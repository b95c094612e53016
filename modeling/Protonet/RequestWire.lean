import Protonet.SyncWire

namespace Protonet.RequestWire
open Postcard Record Sync SyncWire

def SyncRequest.encode : SyncRequest → Bytes
  | .getInventory => varintU32.encode 0
  | .getRecordIds bucketStart cursor limit => varintU32.encode 1 ++ varintI64.encode bucketStart ++
    (option hash32Wire).encode cursor ++ varintU16.encode limit
  | .getRecords ids => varintU32.encode 2 ++ encodeSeq hash32Wire.encode ids

/-- The fields of a page request. -/
def pageWire : Wire (Int64 × Option RecordId × UInt16) :=
  varintI64.prod <| (option hash32Wire).prod varintU16

def SyncRequest.decode (bytes : Bytes) : Option (SyncRequest × Bytes) :=
  match varintU32.decode bytes with
  | none => none
  | some (variant, rest) =>
    if variant = 0 then some (.getInventory, rest)
    else if variant = 1 then
      (pageWire.decode rest).map fun ((bucketStart, cursor, limit), rest) =>
        (.getRecordIds bucketStart cursor limit, rest)
    else if variant = 2 then
      (decodeSeq hash32Wire rest).map fun (ids, rest) => (.getRecords ids, rest)
    else none

/-- What the reader at the other end makes of a value. -/
def transmit {α : Type} (encode : α → Bytes) (decode : Bytes → Option (α × Bytes)) (value : α) :
    Except FrameError α :=
  match encodeBounded encode value with
  | .error e => .error e
  | .ok bytes => decodeBounded decode bytes

variable {r : SyncRequest} {rest : Bytes}

lemma transmit_ok {α : Type} {encode : α → Bytes} {decode : Bytes → Option (α × Bytes)} {value : α}
    (hlength : (encode value).length ≤ MAX_SYNC_FRAME_BYTES)
    (hread : decode (encode value) = some (value, [])) : transmit encode decode value = .ok value := by
  have hfits : encodeBounded encode value = .ok (encode value) := if_neg (not_lt.mpr hlength)
  unfold transmit
  rw [hfits]
  unfold decodeBounded
  dsimp only
  rw [List.take_of_length_le (hlength.trans (Nat.le_succ _)), if_neg (not_lt.mpr hlength), hread]

lemma ids_few {ids : List RecordId} (h : (SyncRequest.getRecords ids).validate = .ok ()) :
    ids.length ≤ 256 := by
  by_contra hmany
  simp [SyncRequest.validate, MAX_REQUESTED_RECORDS, hmany] at h

lemma request_decode_encode (h : r.validate = .ok ()) :
    SyncRequest.decode (SyncRequest.encode r ++ rest) = some (r, rest) := by
  unfold SyncRequest.decode SyncRequest.encode
  cases r with
  | getInventory => simp [varintU32.decode_encode]
  | getRecordIds bucketStart cursor limit =>
    have hfields : varintI64.encode bucketStart ++ ((option hash32Wire).encode cursor ++
        varintU16.encode limit) = pageWire.encode (bucketStart, cursor, limit) := rfl
    simp only [List.append_assoc, varintU32.decode_encode]
    rw [← List.append_assoc ((option hash32Wire).encode cursor), ← List.append_assoc, hfields,
      pageWire.decode_encode]
    rfl
  | getRecords ids =>
    have hlength : ids.length < 2 ^ 64 := (ids_few h).trans_lt (by decide)
    rw [List.append_assoc, varintU32.decode_encode]
    simp [decodeSeq_encodeSeq hlength]

lemma request_length (h : r.validate = .ok ()) :
    (SyncRequest.encode r).length ≤ MAX_SYNC_FRAME_BYTES := by
  have hvariant := varintU32_length
  unfold SyncRequest.encode MAX_SYNC_FRAME_BYTES
  cases r with
  | getInventory => exact (hvariant 0).trans (by decide)
  | getRecordIds bucketStart cursor limit =>
    have := hvariant 1
    have hbucket := varintI64_length bucketStart
    have hcursor := option_length cursor fun id (_ : id ∈ cursor) =>
      show (hash32Wire.encode id).length ≤ 32 from (array_byte_length id).le
    have hlimit := varintU16_length limit
    simp only [List.length_append]
    omega
  | getRecords ids =>
    have := hvariant 2
    have hfew := ids_few h
    have hids := encodeSeq_length fun id (_ : id ∈ ids) =>
      show (hash32Wire.encode id).length ≤ 32 from (array_byte_length id).le
    rw [List.length_append]
    omega

lemma transmit_request (h : r.validate = .ok ()) :
    transmit SyncRequest.encode SyncRequest.decode r = .ok r := by
  have hread := @request_decode_encode r [] h
  rw [List.append_nil] at hread
  exact transmit_ok (request_length h) hread

lemma transmit_response {response : SyncResponse} (h : response.validateBounds = .ok ())
    (hrecords : ∀ rs, response = .records rs → ∀ record ∈ rs, record.checkFieldBounds = .ok ()) :
    transmit SyncResponse.encode SyncResponse.decode response = .ok response := by
  have hread := @response_decode_encode [] _ h
  rw [List.append_nil] at hread
  exact transmit_ok (response_length h hrecords) hread

end Protonet.RequestWire
