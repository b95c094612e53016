import Protonet.Database
import Protonet.Sync

/-!
# Store queries behind synchronization

The inventory by day buckets, the paged id listing and the lookup by ids. Blobs of one length
compare like the big-endian numbers they spell.
-/
namespace Protonet.Queries
open MachineInt Postcard Record Database Sync

def beNumber (bytes : Bytes) : ℕ := bytes.foldl (fun n b => 256 * n + b.toNat) 0

def idNumber (id : RecordId) : ℕ := beNumber id.1

/-- `(created_at / DAY_MS) * DAY_MS`, with the truncating division of the query language. -/
def bucketStart (createdAt : Int64) : Int64 := createdAt / DAY_MS * DAY_MS

def activeRows (db : SignatureDatabase) (now : Int64) : List Row :=
  db.records.rows.filter (Row.active now)

/-- Rows come by bucket, then by id. -/
def inventoryOrder (x y : Int64 × RecordId) : Prop :=
  x.1 < y.1 ∨ x.1 = y.1 ∧ idNumber x.2 ≤ idNumber y.2

instance : DecidableRel inventoryOrder := fun x y => by
  unfold inventoryOrder
  infer_instance

def inventoryRows (db : SignatureDatabase) (now : Int64) :
    List (Int64 × RecordId) :=
  ((activeRows db now).map fun r => (bucketStart r.createdAt, r.recordId)).insertionSort
    inventoryOrder

/-- The variables of the scan: closed buckets, the open one and the bytes hashed for it. -/
structure InventoryScan where
  buckets : List BucketDigest
  currentStart : Option Int64
  currentCount : UInt32
  currentHashed : Bytes

def closeBucket (K : Primitives) (start : Int64) (count : UInt32) (hashed : Bytes) :
    BucketDigest :=
  ⟨start, start + DAY_MS, count, K.blake3 hashed⟩

def saturatingSucc (count : UInt32) : UInt32 :=
  if count.toNat + 1 < 2 ^ 32 then count + 1 else count

/-- The loop over the rows; it stops early once the last allowed bucket is closed. -/
def scanRows (K : Primitives) (s : InventoryScan) : List (Int64 × RecordId) → InventoryScan
  | [] => s
  | (start, id) :: rows =>
    match s.currentStart with
    | none => scanRows K ⟨s.buckets, some start, saturatingSucc s.currentCount,
        s.currentHashed ++ id.1⟩ rows
    | some old =>
      if old ≠ start then
        let buckets := s.buckets ++ [closeBucket K old s.currentCount s.currentHashed]
        if buckets.length ≥ MAX_BUCKETS then { s with buckets }
        else scanRows K ⟨buckets, some start, saturatingSucc 0, id.1⟩ rows
      else scanRows K ⟨s.buckets, some start, saturatingSucc s.currentCount,
        s.currentHashed ++ id.1⟩ rows

/-- The last open bucket is closed unless the limit is reached. -/
def InventoryScan.finish (K : Primitives) (s : InventoryScan) : List BucketDigest :=
  match s.currentStart with
  | none => s.buckets
  | some start =>
    if s.buckets.length < MAX_BUCKETS then
      s.buckets ++ [closeBucket K start s.currentCount s.currentHashed]
    else s.buckets

def inventory (K : Primitives) (db : SignatureDatabase) (now : Int64) :
    InventorySummary :=
  let buckets := (scanRows K ⟨[], none, 0, []⟩ (inventoryRows db now)).finish K
  { protocolVersion := PROTOCOL_VERSION
    generation := (db.metadata.lookup .generation).getD 0
    recordCount := (buckets.map fun b => b.recordCount.toUInt64).sum
    oldestTimestamp := (buckets.head?.map BucketDigest.startUnix).getD 0
    newestTimestamp := (buckets.getLast?.map BucketDigest.endUnix).getD 0
    bucketDigests := buckets }

def zeroId : RecordId := ⟨List.replicate 32 0, zeros_length⟩

/-- The ids of a bucket after a cursor, in order. -/
def listedIds (db : SignatureDatabase) (bucket : Int64)
    (cursor : Option RecordId) (now : Int64) : List RecordId :=
  ((db.records.rows.filter fun r =>
      decide (bucket ≤ r.createdAt) && decide (r.createdAt < saturatingAddI64 bucket DAY_MS) &&
        Row.active now r && decide (idNumber (cursor.getD zeroId) < idNumber r.recordId)).map
    Row.recordId).insertionSort fun x y => idNumber x ≤ idNumber y

/-- `none` for a zero limit, which is the error of the source. -/
def recordIds (db : SignatureDatabase) (bucket : Int64)
    (cursor : Option RecordId) (limit : ℕ) (now : Int64) :
    Option (List RecordId × Option RecordId) :=
  let limit := min limit MAX_IDS_PER_RESPONSE
  if limit = 0 then none
  else
    let all := (listedIds db bucket cursor now).take (limit + 1)
    if all.length > limit then some (all.take limit, (all.take limit).getLast?)
    else some (all, none)

/-- The primary key makes the row of an id unique. `none` is the error for too many ids. -/
def recordsByIds (db : SignatureDatabase) (ids : List RecordId) (now : Int64) :
    Option (List FlaggedFileRecord) :=
  if ids.length > MAX_REQUESTED_RECORDS then none
  else
    some ((ids.take MAX_RECORDS_PER_RESPONSE).filterMap fun id =>
      match db.records.rows.find? fun r => decide (r.recordId = id) && Row.active now r with
      | none => none
      | some row =>
        match FlaggedFileRecord.decode row.encodedRecord with
        | .ok record => some record
        | .error _ => none)

end Protonet.Queries
