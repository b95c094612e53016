import Protonet.SyncWorld

namespace Protonet.SyncWire
open Postcard Record Database Sync Queries RecordIdentity Listing InventoryDigests SyncWorld

def MAX_SYNC_FRAME_BYTES : ℕ := 4 * 1024 * 1024

inductive FrameError
  | frameTooLarge
  | malformedFrame
  | trailingBytes
  deriving DecidableEq

/-- One byte more than the limit is read, so a longer frame is noticed. -/
def decodeBounded {α : Type} (decode : Bytes → Option (α × Bytes)) (io : Bytes) :
    Except FrameError α :=
  let bytes := io.take (MAX_SYNC_FRAME_BYTES + 1)
  if bytes.length > MAX_SYNC_FRAME_BYTES then .error .frameTooLarge
  else
    match decode bytes with
    | none => .error .malformedFrame
    | some (_, _ :: _) => .error .trailingBytes
    | some (value, []) => .ok value

/-- The bytes written before the stream is closed. -/
def encodeBounded {α : Type} (encode : α → Bytes) (value : α) : Except FrameError Bytes :=
  let bytes := encode value
  if bytes.length > MAX_SYNC_FRAME_BYTES then .error .frameTooLarge else .ok bytes

def decodeSeq {α : Type} (w : Wire α) (bytes : Bytes) : Option (List α × Bytes) :=
  match varintU64.decode bytes with
  | none => none
  | some (n, rest) => takeMany w n.toNat rest

def bucketDigestWire : Wire BucketDigest :=
  (varintI64.prod <| varintI64.prod <| varintU32.prod hash32Wire).map
    (fun (start, stop, count, digest) => some ⟨start, stop, count, digest⟩)
    (fun b => (b.startUnix, b.endUnix, b.recordCount, b.digest)) (fun _ => rfl)

/-- The fields before the buckets. -/
def summaryHeadWire : Wire (UInt16 × UInt64 × UInt64 × Int64 × Int64) :=
  varintU16.prod <| varintU64.prod <| varintU64.prod <| varintI64.prod varintI64

def InventorySummary.decode (bytes : Bytes) : Option (InventorySummary × Bytes) :=
  match summaryHeadWire.decode bytes with
  | none => none
  | some ((version, generation, count, oldest, newest), rest) =>
    match decodeSeq bucketDigestWire rest with
    | none => none
    | some (buckets, rest) => some (⟨version, generation, count, oldest, newest, buckets⟩, rest)

def syncErrorCodeWire : Wire SyncErrorCode :=
  varintU32.map
    (fun i => if i = 0 then some .unsupportedVersion else if i = 1 then some .invalidRequest
      else if i = 2 then some .tooLarge else if i = 3 then some .internal else none)
    SyncErrorCode.index (by rintro (_ | _ | _ | _) <;> rfl)

def SyncResponse.decode (bytes : Bytes) : Option (SyncResponse × Bytes) :=
  match varintU32.decode bytes with
  | none => none
  | some (variant, rest) =>
    if variant = 0 then
      (InventorySummary.decode rest).map fun (summary, rest) => (.inventory summary, rest)
    else if variant = 1 then
      match decodeSeq hash32Wire rest with
      | none => none
      | some (ids, rest) =>
        ((option hash32Wire).decode rest).map fun (cursor, rest) => (.recordIds ids cursor, rest)
    else if variant = 2 then
      (decodeSeq flaggedFileRecordWire rest).map fun (records, rest) => (.records records, rest)
    else if variant = 3 then
      (varintU32.decode rest).map fun (retry, rest) => (.busy retry, rest)
    else if variant = 4 then
      (syncErrorCodeWire.decode rest).map fun (code, rest) => (.error code, rest)
    else none

variable {α : Type} {w : Wire α} {as : List α} {rest : Bytes}

lemma decodeSeq_encodeSeq (h : as.length < 2 ^ 64) :
    decodeSeq w (encodeSeq w.encode as ++ rest) = some (as, rest) := by
  have hlength : (UInt64.ofNat as.length).toNat = as.length := by
    rw [UInt64.toNat_ofNat', Nat.mod_eq_of_lt h]
  unfold decodeSeq encodeSeq
  rw [List.append_assoc, varintU64.decode_encode]
  dsimp only
  rw [hlength, takeMany_flatMap]

lemma bucketDigest_encode (b : BucketDigest) : b.encode = bucketDigestWire.encode b := by
  unfold BucketDigest.encode
  rw [List.append_assoc, List.append_assoc]
  rfl

lemma summary_decode_encode {i : InventorySummary} (h : i.bucketDigests.length < 2 ^ 64) :
    InventorySummary.decode (i.encode ++ rest) = some (i, rest) := by
  have hhead : i.encode = summaryHeadWire.encode (i.protocolVersion, i.generation, i.recordCount,
      i.oldestTimestamp, i.newestTimestamp) ++ encodeSeq bucketDigestWire.encode i.bucketDigests := by
    unfold InventorySummary.encode
    rw [show BucketDigest.encode = bucketDigestWire.encode from funext bucketDigest_encode]
    simp only [summaryHeadWire, Wire.prod, List.append_assoc]
  unfold InventorySummary.decode
  rw [hhead, List.append_assoc, summaryHeadWire.decode_encode]
  dsimp only
  rw [decodeSeq_encodeSeq h]

lemma response_decode_encode {r : SyncResponse} (h : r.validateBounds = .ok ()) :
    SyncResponse.decode (r.encode ++ rest) = some (r, rest) := by
  unfold SyncResponse.decode SyncResponse.encode
  cases r with
  | inventory i =>
    have hfew : i.bucketDigests.length ≤ MAX_BUCKETS := by
      by_contra hmany
      simp [SyncResponse.validateBounds, hmany] at h
    have hlength : i.bucketDigests.length < 2 ^ 64 := hfew.trans_lt (by decide)
    rw [List.append_assoc, varintU32.decode_encode]
    simp only [if_true, summary_decode_encode hlength, Option.map_some]
  | recordIds ids nextCursor =>
    have hfew : ids.length ≤ MAX_IDS_PER_RESPONSE := by
      by_contra hmany
      simp [SyncResponse.validateBounds, hmany] at h
    have hlength : ids.length < 2 ^ 64 := hfew.trans_lt (by decide)
    rw [List.append_assoc, List.append_assoc, varintU32.decode_encode]
    simp [decodeSeq_encodeSeq hlength, (option hash32Wire).decode_encode]
  | records rs =>
    have hfew : rs.length ≤ MAX_RECORDS_PER_RESPONSE := by
      by_contra hmany
      simp [SyncResponse.validateBounds, hmany] at h
    have hlength : rs.length < 2 ^ 64 := hfew.trans_lt (by decide)
    have hrecord : FlaggedFileRecord.encode = flaggedFileRecordWire.encode := rfl
    rw [List.append_assoc, varintU32.decode_encode]
    simp [hrecord, decodeSeq_encodeSeq hlength]
  | busy retryAfterMs =>
    rw [List.append_assoc, varintU32.decode_encode]
    simp [varintU32.decode_encode]
  | error code =>
    have hcode : varintU32.encode code.index = syncErrorCodeWire.encode code := rfl
    rw [List.append_assoc, varintU32.decode_encode]
    simp [hcode, syncErrorCodeWire.decode_encode]

lemma encodeSeq_length {encode : α → Bytes} {n : ℕ} (h : ∀ a ∈ as, (encode a).length ≤ n) :
    (encodeSeq encode as).length ≤ 10 + as.length * n := by
  have hhead := varintU64_length (UInt64.ofNat as.length)
  have hsum : (as.map fun a => (encode a).length).sum ≤ as.length * n := by
    refine (List.sum_le_card_nsmul _ n fun l hl => ?_).trans_eq (by rw [List.length_map, smul_eq_mul])
    obtain ⟨a, ha, rfl⟩ := List.mem_map.mp hl
    exact h a ha
  unfold encodeSeq
  rw [List.length_append, List.length_flatMap]
  exact Nat.add_le_add hhead hsum

lemma bucketDigest_length (b : BucketDigest) : b.encode.length ≤ 57 := by
  have hstart := varintI64_length b.startUnix
  have hstop := varintI64_length b.endUnix
  have hcount := varintU32_length b.recordCount
  have hdigest : (hash32Wire.encode b.digest).length = 32 := array_byte_length b.digest
  unfold BucketDigest.encode
  simp only [List.length_append]
  omega

lemma summary_length {i : InventorySummary} :
    i.encode.length ≤ 53 + i.bucketDigests.length * 57 := by
  have hversion := varintU16_length i.protocolVersion
  have hgeneration := varintU64_length i.generation
  have hcount := varintU64_length i.recordCount
  have holdest := varintI64_length i.oldestTimestamp
  have hnewest := varintI64_length i.newestTimestamp
  have hbuckets := encodeSeq_length fun b (_ : b ∈ i.bucketDigests) => bucketDigest_length b
  unfold InventorySummary.encode
  simp only [List.length_append]
  omega

lemma response_length {r : SyncResponse} (h : r.validateBounds = .ok ())
    (hrecords : ∀ rs, r = .records rs → ∀ record ∈ rs, record.checkFieldBounds = .ok ()) :
    r.encode.length ≤ MAX_SYNC_FRAME_BYTES := by
  have hvariant := varintU32_length
  unfold SyncResponse.encode MAX_SYNC_FRAME_BYTES
  cases r with
  | inventory i =>
    have hfew : i.bucketDigests.length ≤ 366 := by
      by_contra hmany
      simp [SyncResponse.validateBounds, MAX_BUCKETS, hmany] at h
    have hlength := @summary_length i
    have := hvariant 0
    rw [List.length_append]
    omega
  | recordIds ids nextCursor =>
    have hfew : ids.length ≤ 2000 := by
      by_contra hmany
      simp [SyncResponse.validateBounds, MAX_IDS_PER_RESPONSE, hmany] at h
    have hids := encodeSeq_length fun id (_ : id ∈ ids) =>
      show (hash32Wire.encode id).length ≤ 32 from (array_byte_length id).le
    have hcursor := option_length nextCursor fun id (_ : id ∈ nextCursor) =>
      show (hash32Wire.encode id).length ≤ 32 from (array_byte_length id).le
    have := hvariant 1
    rw [List.length_append, List.length_append]
    omega
  | records rs =>
    have hfew : rs.length ≤ 256 := by
      by_contra hmany
      simp [SyncResponse.validateBounds, MAX_RECORDS_PER_RESPONSE, hmany] at h
    have hlength : (encodeSeq FlaggedFileRecord.encode rs).length ≤ 10 + rs.length * 1475 :=
      encodeSeq_length fun record hrecord =>
        encode_length_fields (hrecords rs rfl record hrecord)
    have := hvariant 2
    rw [List.length_append]
    omega
  | busy retryAfterMs =>
    have := hvariant 3
    have := hvariant retryAfterMs
    rw [List.length_append]
    omega
  | error code =>
    have := hvariant 4
    have := hvariant code.index
    rw [List.length_append]
    omega

/-- The response to a request that the rate limiter lets through or not. -/
def prepareSyncResponse (K : Primitives) (db : SignatureDatabase) (now : Int64) (allowed : Bool)
    (request : SyncRequest) : SyncResponse :=
  if !allowed || request.validate ≠ .ok () then .error .tooLarge else respond K db now request

/-- What an effect sends back, and over which channel, once the store has been asked. -/
def sentBack (K : Primitives) (db : SignatureDatabase) (now : Int64) :
    Swarm.Effect → Option (ℕ × SyncResponse)
  | .sendResponse channel response => some (channel, response)
  | .prepareResponse _ channel request => some (channel, respond K db now request)
  | _ => none

/-- The actor answers every request with what is prepared for it, and with nothing else. -/
theorem actor_prepareSyncResponse (K : Primitives) (db : SignatureDatabase) (now : Int64)
    (a : Swarm.Actor) (peer : PeerId) (request : SyncRequest) (channel : ℕ) (c : Swarm.Clock) :
    (a.cleared.prepareSyncResponse peer request channel c).outbox.filterMap (sentBack K db now) =
      [(channel, prepareSyncResponse K db now
        (a.rateLimiter.allowSyncRequest peer (c.instant 0)).1 request)] := by
  have hallowed : (a.cleared.rateLimiter.allowSyncRequest peer (c.instant 0)).1 =
      (a.rateLimiter.allowSyncRequest peer (c.instant 0)).1 := rfl
  unfold Swarm.Actor.prepareSyncResponse prepareSyncResponse
  dsimp only
  rw [hallowed]
  split_ifs
  · rfl
  · rfl

lemma bounds_of_decode {bytes : Bytes} {record : FlaggedFileRecord}
    (h : FlaggedFileRecord.decode bytes = .ok record) : record.checkFieldBounds = .ok () := by
  unfold FlaggedFileRecord.decode at h
  split_ifs at h
  split at h
  · cases h
  · cases h
  · rename_i decoded _
    rcases hbounds : decoded.checkFieldBounds with e | ⟨⟩
    · simp [hbounds] at h
    · simp only [hbounds, Except.ok.injEq] at h
      rw [← h, hbounds]

lemma respond_bounds (K : Primitives) (db : SignatureDatabase) (now : Int64)
    (request : SyncRequest) : (respond K db now request).validateBounds = .ok () ∧
      ∀ rs, respond K db now request = .records rs →
        ∀ record ∈ rs, record.checkFieldBounds = .ok () := by
  cases request with
  | getInventory => exact ⟨if_pos inventory_length, nofun⟩
  | getRecordIds bucket cursor limit =>
    unfold respond
    by_cases hlimit : 0 < min limit.toNat MAX_IDS_PER_RESPONSE
    · simp only [recordIds_page hlimit]
      exact ⟨if_pos (Paging.length_page_le.trans (min_le_right _ _)), nofun⟩
    · have hnone : recordIds db bucket cursor (min limit.toNat MAX_IDS_PER_RESPONSE) now = none :=
        if_pos (Nat.eq_zero_of_not_pos (by rwa [min_assoc, min_self]))
      simp only [hnone]
      exact ⟨rfl, nofun⟩
  | getRecords ids =>
    unfold respond
    by_cases hlong : MAX_REQUESTED_RECORDS < ids.length
    · simp only [recordsByIds_long hlong]
      exact ⟨rfl, nofun⟩
    · obtain ⟨records, hrecords, hfew, hfound, -⟩ :=
        @recordsByIds_short db now ids (not_lt.mp hlong)
      simp only [hrecords]
      refine ⟨if_pos hfew, fun rs hrs record hrecord => ?_⟩
      obtain rfl := SyncResponse.records.inj hrs
      obtain ⟨row, -, -, -, hdecode⟩ := hfound record hrecord
      exact bounds_of_decode hdecode

lemma prepareSyncResponse_bounds (K : Primitives) (db : SignatureDatabase) (now : Int64)
    (allowed : Bool) (request : SyncRequest) :
    (prepareSyncResponse K db now allowed request).validateBounds = .ok () ∧
      ∀ rs, prepareSyncResponse K db now allowed request = .records rs →
        ∀ record ∈ rs, record.checkFieldBounds = .ok () := by
  unfold prepareSyncResponse
  split_ifs
  · exact ⟨rfl, nofun⟩
  · exact respond_bounds K db now request

/-- What a responder prepares goes through the wire unchanged and within the bounds. -/
theorem prepared_survives (K : Primitives) (db : SignatureDatabase) (now : Int64) (allowed : Bool)
    (request : SyncRequest) : ∃ bytes,
      encodeBounded SyncResponse.encode (prepareSyncResponse K db now allowed request) =
        .ok bytes ∧
      bytes.length ≤ MAX_SYNC_FRAME_BYTES ∧
      decodeBounded SyncResponse.decode bytes =
        .ok (prepareSyncResponse K db now allowed request) ∧
      (prepareSyncResponse K db now allowed request).validateBounds = .ok () := by
  obtain ⟨hbounds, hrecords⟩ := prepareSyncResponse_bounds K db now allowed request
  have hlength := response_length hbounds hrecords
  have hread := @response_decode_encode [] _ hbounds
  rw [List.append_nil] at hread
  refine ⟨_, if_neg (not_lt.mpr hlength), hlength, ?_, hbounds⟩
  unfold decodeBounded
  rw [List.take_of_length_le (hlength.trans (Nat.le_succ _))]
  dsimp only
  rw [if_neg (not_lt.mpr hlength), hread]

end Protonet.SyncWire
