import Protonet.Record

/-!
# Synchronization messages

Requests, responses, the bounds both are checked against and the comparison of two inventories.
-/
namespace Protonet.Sync
open Postcard Record

def MAX_BUCKETS : ℕ := 366
def MAX_IDS_PER_RESPONSE : ℕ := 2000
def MAX_REQUESTED_RECORDS : ℕ := 256
def MAX_RECORDS_PER_RESPONSE : ℕ := 256
def MAX_SIMULTANEOUS_SYNC_PEERS : ℕ := 4
def MAX_PENDING_SYNC_REQUESTS_PER_PEER : ℕ := 2
def MAX_SYNC_DURATION_SECS : ℕ := 60

structure BucketDigest where
  startUnix : Int64
  endUnix : Int64
  recordCount : UInt32
  digest : Hash32
  deriving DecidableEq

structure InventorySummary where
  protocolVersion : UInt16
  generation : UInt64
  recordCount : UInt64
  oldestTimestamp : Int64
  newestTimestamp : Int64
  bucketDigests : List BucketDigest
  deriving DecidableEq

def InventorySummary.default : InventorySummary := ⟨PROTOCOL_VERSION, 0, 0, 0, 0, []⟩

inductive SyncRequest
  | getInventory
  | getRecordIds (bucketStart : Int64) (cursor : Option RecordId) (limit : UInt16)
  | getRecords (ids : List RecordId)
  deriving DecidableEq

inductive SyncErrorCode
  | unsupportedVersion
  | invalidRequest
  | tooLarge
  | internal
  deriving DecidableEq

inductive SyncResponse
  | inventory (summary : InventorySummary)
  | recordIds (ids : List RecordId) (nextCursor : Option RecordId)
  | records (records : List FlaggedFileRecord)
  | busy (retryAfterMs : UInt32)
  | error (code : SyncErrorCode)
  deriving DecidableEq

def SyncRequest.validate : SyncRequest → Except SyncErrorCode Unit
  | .getInventory => .ok ()
  | .getRecordIds _ _ limit =>
    if 0 < limit.toNat ∧ limit.toNat ≤ MAX_IDS_PER_RESPONSE then .ok () else .error .tooLarge
  | .getRecords ids =>
    if ids ≠ [] ∧ ids.length ≤ MAX_REQUESTED_RECORDS then .ok () else .error .tooLarge

def SyncResponse.validateBounds : SyncResponse → Except SyncErrorCode Unit
  | .inventory i => if i.bucketDigests.length ≤ MAX_BUCKETS then .ok () else .error .tooLarge
  | .recordIds ids _ => if ids.length ≤ MAX_IDS_PER_RESPONSE then .ok () else .error .tooLarge
  | .records rs =>
    if rs.length ≤ MAX_RECORDS_PER_RESPONSE then .ok () else .error .tooLarge
  | .busy _ => .ok ()
  | .error _ => .ok ()

/-- The buckets of the remote inventory whose count or digest the local one does not match.
Collecting the local buckets into a map keeps the last of each start. -/
def differingBuckets (localSummary remote : InventorySummary) : List Int64 :=
  let localDigests : AList (fun _ : Int64 => UInt32 × Hash32) :=
    localSummary.bucketDigests.foldl (fun m b => m.insert b.startUnix (b.recordCount, b.digest)) ∅
  (remote.bucketDigests.filter fun b =>
    localDigests.lookup b.startUnix ≠ some (b.recordCount, b.digest)).map BucketDigest.startUnix

def encodeSeq {α : Type} (encode : α → Bytes) (as : List α) : Bytes :=
  varintU64.encode (UInt64.ofNat as.length) ++ as.flatMap encode

def BucketDigest.encode (b : BucketDigest) : Bytes :=
  varintI64.encode b.startUnix ++ varintI64.encode b.endUnix ++ varintU32.encode b.recordCount ++
    hash32Wire.encode b.digest

def InventorySummary.encode (i : InventorySummary) : Bytes :=
  varintU16.encode i.protocolVersion ++ varintU64.encode i.generation ++
    varintU64.encode i.recordCount ++ varintI64.encode i.oldestTimestamp ++
    varintI64.encode i.newestTimestamp ++ encodeSeq BucketDigest.encode i.bucketDigests

def SyncErrorCode.index : SyncErrorCode → UInt32
  | .unsupportedVersion => 0
  | .invalidRequest => 1
  | .tooLarge => 2
  | .internal => 3

def SyncResponse.encode : SyncResponse → Bytes
  | .inventory i => varintU32.encode 0 ++ i.encode
  | .recordIds ids nextCursor => varintU32.encode 1 ++ encodeSeq hash32Wire.encode ids ++
    (option hash32Wire).encode nextCursor
  | .records rs => varintU32.encode 2 ++ encodeSeq FlaggedFileRecord.encode rs
  | .busy retryAfterMs => varintU32.encode 3 ++ varintU32.encode retryAfterMs
  | .error code => varintU32.encode 4 ++ varintU32.encode code.index

lemma lookup_collect {bs : List BucketDigest} {m : AList fun _ : Int64 => UInt32 × Hash32}
    {start : Int64} {v : UInt32 × Hash32}
    (h : (bs.foldl (fun m b => m.insert b.startUnix (b.recordCount, b.digest)) m).lookup start =
      some v) :
    m.lookup start = some v ∨ ∃ b ∈ bs, b.startUnix = start ∧ (b.recordCount, b.digest) = v := by
  induction bs generalizing m with
  | nil => exact .inl h
  | cons b bs ih =>
    rcases ih h with hm | ⟨b', hb', hs⟩
    · by_cases hs : start = b.startUnix
      · subst hs
        rw [AList.lookup_insert, Option.some.injEq] at hm
        exact .inr ⟨b, by simp, rfl, hm⟩
      · rw [AList.lookup_insert_ne hs] at hm
        exact .inl hm
    · exact .inr ⟨b', by simp [hb'], hs⟩

/-- A remote bucket whose digest no local bucket of the same start has is asked for. -/
lemma mem_differingBuckets {localSummary remote : InventorySummary} {b : BucketDigest}
    (hb : b ∈ remote.bucketDigests)
    (hne : ∀ b' ∈ localSummary.bucketDigests, b'.startUnix = b.startUnix → b'.digest ≠ b.digest) :
    b.startUnix ∈ differingBuckets localSummary remote := by
  unfold differingBuckets
  refine List.mem_map.mpr ⟨b, List.mem_filter.mpr ⟨hb, ?_⟩, rfl⟩
  rw [decide_eq_true_eq]
  intro hl
  rcases lookup_collect hl with h | ⟨b', hb', hs, hv⟩
  · simp at h
  · exact hne b' hb' hs (Prod.mk.inj hv).2

end Protonet.Sync
