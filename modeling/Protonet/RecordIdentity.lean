import Protonet.Record

namespace Protonet.RecordIdentity
open Postcard Record

theorem encode_length_fields {r : FlaggedFileRecord} (h : r.checkFieldBounds = .ok ()) :
    r.encode.length ≤ 1475 := by
  obtain ⟨hp, hk, hs, hn, hr⟩ := checkFieldBounds_ok_iff.mp h
  have hname := option_length (w := text) (n := 522) r.fileName fun v hv => by
    have := text_length v
    have := hn v hv
    simp only [MAX_FILENAME_BYTES] at this
    omega
  have hpeer : ((seq byte).encode r.originPeerId).length ≤ 10 + 128 :=
    (seq_byte_length _).trans (Nat.add_le_add_left hp 10)
  have hkey : ((seq byte).encode r.originPublicKey).length ≤ 10 + 256 :=
    (seq_byte_length _).trans (Nat.add_le_add_left hk 10)
  have hreason : (text.encode r.reason).length ≤ 10 + 256 :=
    (text_length _).trans (Nat.add_le_add_left hr 10)
  have hlevel : (threatLevelWire.encode r.threatLevel).length ≤ 5 := varintU32_length 0
  have hsignature : ((seq byte).encode r.signature).length ≤ 10 + 128 :=
    (seq_byte_length _).trans (Nat.add_le_add_left hs 10)
  simp only [FlaggedFileRecord.encode, flaggedFileRecordWire, Wire.map, Wire.prod, hash32Wire,
    List.length_append]
  exact (Nat.add_le_add (varintU16_length _) <| Nat.add_le_add (array_byte_length _).le <|
    Nat.add_le_add hpeer <| Nat.add_le_add hkey <| Nat.add_le_add (varintU64_length _) <|
    Nat.add_le_add (varintI64_length _) <| Nat.add_le_add (varintI64_length _) <|
    Nat.add_le_add (array_byte_length _).le <| Nat.add_le_add (array_byte_length _).le <|
    Nat.add_le_add (varintU64_length _) <| Nat.add_le_add hname <| Nat.add_le_add hreason <|
    Nat.add_le_add hlevel hsignature).trans (by decide)

/-- A record within the field bounds encodes well below the size limit. -/
theorem encode_length_le {r : FlaggedFileRecord} (h : r.checkFieldBounds = .ok ()) :
    r.encode.length ≤ MAX_ENCODED_RECORD_SIZE :=
  (encode_length_fields h).trans (by decide)

theorem decode_encode {r : FlaggedFileRecord} (h : r.checkFieldBounds = .ok ()) :
    FlaggedFileRecord.decode r.encode = .ok r := by
  have hl := encode_length_le h
  have hd : flaggedFileRecordWire.decode r.encode = some (r, []) :=
    flaggedFileRecordWire.decode_encode_nil r
  rw [FlaggedFileRecord.decode, if_neg (by omega), hd]
  simp [h]

theorem preimage_injective {r s : FlaggedFileRecord} (h : r.preimage = s.preimage) :
    r.unsigned = s.unsigned :=
  unsignedRecordWire.encode_injective (List.append_cancel_left h)

/-- The hash separates the members of a set of inputs. -/
def CollisionFree (K : Primitives) (inputs : Set Bytes) : Prop := Set.InjOn K.blake3 inputs

instance (K : Primitives) (a b : Bytes) : Decidable (CollisionFree K {a, b}) :=
  decidable_of_iff (K.blake3 a = K.blake3 b → a = b) Set.injOn_pair.symm

/-- Two records with one id, each matching its own contents, have the same contents. -/
theorem unsigned_eq_of_recordId {K : Primitives} {r s : FlaggedFileRecord}
    (hcf : CollisionFree K {r.preimage, s.preimage}) (hr : r.calculateRecordId K = r.recordId)
    (hs : s.calculateRecordId K = s.recordId) (hid : r.recordId = s.recordId) :
    r.unsigned = s.unsigned := by
  have hh : K.blake3 r.preimage = K.blake3 s.preimage := by
    rw [← hs, ← hr] at hid
    exact hid
  exact preimage_injective (hcf (by simp) (by simp) hh)

/-- The id and the unsigned contents are everything but the signature. -/
lemma eq_of_unsigned {r s : FlaggedFileRecord} (hu : r.unsigned = s.unsigned)
    (hid : s.recordId = r.recordId) : s = { r with signature := s.signature } := by
  obtain ⟨_, _, _, _, _, _, _, _, _, _, _, _, level, _⟩ := r
  obtain ⟨_, _, _, _, _, _, _, _, _, _, _, _, level', _⟩ := s
  cases level
  cases level'
  simp only [FlaggedFileRecord.unsigned, UnsignedRecord.mk.injEq, and_true] at hu hid
  obtain ⟨rfl, rfl, rfl, rfl, rfl, rfl, rfl, rfl, rfl, rfl, rfl⟩ := hu
  rw [hid]

/-- A record with the id of an accepted one is accepted only if it has the same contents, and is
rejected once a single one of them differs. -/
theorem tamper_evident {K : Primitives} {v : RecordValidator} {r s : FlaggedFileRecord}
    {now : Int64} (hr : v.validate K r now = .ok ()) (hid : s.recordId = r.recordId)
    (hcf : CollisionFree K {r.preimage, s.preimage}) (v' : RecordValidator) (now' : Int64) :
    (v'.validate K s now' = .ok () → s = { r with signature := s.signature }) ∧
      (s ≠ { r with signature := s.signature } → ∃ e, v'.validate K s now' = .error e) := by
  have hsame : v'.validate K s now' = .ok () → s = { r with signature := s.signature } := by
    intro hs
    obtain ⟨-, -, -, -, -, -, hrid, -⟩ := validate_ok_iff.mp hr
    obtain ⟨-, -, -, -, -, -, hsid, -⟩ := validate_ok_iff.mp hs
    exact eq_of_unsigned (unsigned_eq_of_recordId hcf hrid hsid hid.symm) hid
  refine ⟨hsame, fun hne => ?_⟩
  rcases hs : v'.validate K s now' with e | ⟨⟩
  · exact ⟨e, rfl⟩
  · exact absurd (hsame hs) hne

/-- A polynomial hash onto thirty-two bytes. -/
def sampleHash (b : Bytes) : Hash32 :=
  let digest := b.foldl (fun acc x => (acc * 257 + x.toNat + 1) % 2 ^ 256) 0
  ⟨(List.range 32).map fun i => UInt8.ofNat (digest / 256 ^ i % 256), by simp⟩

/-- Keys are their own peer ids, and a signature is the key followed by the message. -/
def samplePrimitives : Primitives where
  PublicKey := Bytes
  blake3 := sampleHash
  tryDecodeProtobuf b := some b
  fromPublicKey k := ⟨k⟩
  verify k message signature := signature == k ++ message
  isPeerId _ := true
  isPeerId_fromPublicKey _ := rfl

theorem sample_verify_length {key : samplePrimitives.PublicKey} {message signature : Bytes}
    (h : samplePrimitives.verify key message signature = true) :
    message.length ≤ signature.length := by
  have he : signature = List.append key message := eq_of_beq h
  rw [he]
  exact (List.suffix_append _ _).length_le

def sampleUnsigned (origin : UInt8) (sequence fileSize : UInt64) (created expires : Int64) :
    UnsignedRecord :=
  ⟨PROTOCOL_VERSION, ⟨[origin], by simp⟩, ⟨[origin], by simp⟩, sequence, created, expires,
    ⟨List.replicate 32 0, zeros_length⟩, ⟨List.replicate 32 0, zeros_length⟩, fileSize, none,
    ⟨"", empty_fits⟩, .malicious⟩

/-- A record signed by a one-byte origin key. -/
def sampleRecord (origin : UInt8) (sequence fileSize : UInt64) (created expires : Int64) :
    FlaggedFileRecord :=
  let u := sampleUnsigned origin sequence fileSize created expires
  let id := sampleHash (RECORD_DOMAIN ++ unsignedRecordWire.encode u)
  ⟨u.protocolVersion, id, u.originPeerId, u.originPublicKey, u.sequence, u.createdAtUnixMs,
    u.expiresAtUnixMs, u.sha256, u.blake3, u.fileSize, u.fileName, u.reason, u.threatLevel,
    ⟨[origin] ++ (SIGNATURE_DOMAIN ++ id.1), by simp [id.2, SIGNATURE_DOMAIN, ascii]⟩⟩

theorem sampleRecord_bounds (origin : UInt8) (sequence fileSize : UInt64)
    (created expires : Int64) :
    (sampleRecord origin sequence fileSize created expires).checkFieldBounds = .ok () := by
  rw [checkFieldBounds_ok_iff]
  refine ⟨by simp [sampleRecord, sampleUnsigned, MAX_PEER_ID_BYTES],
    by simp [sampleRecord, sampleUnsigned, MAX_PUBLIC_KEY_BYTES], ?_,
    by simp [sampleRecord, sampleUnsigned], by simp [sampleRecord, sampleUnsigned]⟩
  change ([origin] ++ (SIGNATURE_DOMAIN ++ _)).length ≤ _
  have hd : SIGNATURE_DOMAIN.length = 25 := by decide
  rw [List.length_append, List.length_append, (sampleHash _).2, hd]
  simp [MAX_SIGNATURE_BYTES]

theorem sampleRecord_signed (origin : UInt8) (sequence fileSize : UInt64)
    (created expires : Int64) :
    (sampleRecord origin sequence fileSize created expires).SignedByOrigin samplePrimitives :=
  ⟨[origin], rfl, rfl, by simp [sampleRecord, samplePrimitives]⟩

theorem sampleRecord_valid {origin : UInt8} {sequence fileSize : UInt64}
    {created expires now : Int64} (hle : created ≤ expires)
    (hlife : expires - created ≤ MAX_LIFETIME_MS) (hexp : now < expires)
    (hskew : created ≤ MachineInt.saturatingAddI64 now CLOCK_SKEW_MS) :
    RecordValidator.default.validate samplePrimitives
      (sampleRecord origin sequence fileSize created expires) now = .ok () :=
  validate_ok_iff.mpr ⟨sampleRecord_bounds _ _ _ _ _, rfl, hle, hlife, hexp, hskew, rfl,
    sampleRecord_signed _ _ _ _ _⟩

/-- The sample record with a larger file under the old id. -/
def grownSample : FlaggedFileRecord := { sampleRecord 1 1 1 0 1000 with fileSize := 2 }

lemma grownSample_preimage : CollisionFree samplePrimitives
    {(sampleRecord 1 1 1 0 1000).preimage, grownSample.preimage} := by
  have hne : samplePrimitives.blake3 (sampleRecord 1 1 1 0 1000).preimage ≠
      samplePrimitives.blake3 grownSample.preimage := by decide +kernel
  rw [CollisionFree, Set.injOn_pair]
  exact fun h => absurd h hne

theorem grownSample_rejected :
    ∃ e, RecordValidator.default.validate samplePrimitives grownSample 0 = .error e :=
  have haccepted : RecordValidator.default.validate samplePrimitives (sampleRecord 1 1 1 0 1000) 0 =
      .ok () := sampleRecord_valid (by decide) (by decide) (by decide) (by decide)
  have hgrown : grownSample.fileSize ≠ (sampleRecord 1 1 1 0 1000).fileSize := by decide
  have hid : grownSample.recordId = (sampleRecord 1 1 1 0 1000).recordId := rfl
  (tamper_evident haccepted hid grownSample_preimage .default 0).2
    fun h => hgrown (congrArg FlaggedFileRecord.fileSize h)

/-- `message_id_fn`: the record id of bytes that decode, otherwise their hash. -/
def gossipMessageId (K : Primitives) (data : Bytes) : RecordId :=
  match FlaggedFileRecord.decode data with
  | .ok record => record.recordId
  | .error _ => K.blake3 data

/-- The payload carries a genuine copy of the record: the same contents under the same id, with
a signature of the origin. -/
def GenuineCopy (K : Primitives) (r : FlaggedFileRecord) (data : Bytes) : Prop :=
  ∃ s, FlaggedFileRecord.decode data = .ok s ∧ s.unsigned = r.unsigned ∧ s.recordId = r.recordId ∧
    s.SignedByOrigin K

/-- The payload decodes to a record that passes the id and signature checks. -/
def Authentic (K : Primitives) (data : Bytes) : Prop :=
  ∃ s, FlaggedFileRecord.decode data = .ok s ∧ s.calculateRecordId K = s.recordId ∧
    s.SignedByOrigin K

/-- The hash inputs that a payload and a record put next to each other. -/
def comparedInputs (r : FlaggedFileRecord) (data : Bytes) : Set Bytes :=
  {x | x = r.preimage ∨ ∃ s, FlaggedFileRecord.decode data = .ok s ∧ x = s.preimage}

/-- A payload sharing the message id of an accepted one is a genuine copy of it exactly when it
passes the id and signature checks itself, which the message id does not ask for. -/
theorem genuineCopy_iff_authentic {K : Primitives} {v : RecordValidator} {a b : Bytes}
    {now : Int64} {r : FlaggedFileRecord} (ha : v.validateBytes K a now = .ok r)
    (hid : gossipMessageId K b = gossipMessageId K a)
    (hcf : CollisionFree K (comparedInputs r b)) : GenuineCopy K r b ↔ Authentic K b := by
  obtain ⟨hda, hva⟩ := validateBytes_ok_iff.mp ha
  obtain ⟨-, -, -, -, -, -, hr, -⟩ := validate_ok_iff.mp hva
  have hma : gossipMessageId K a = r.recordId := by simp [gossipMessageId, hda]
  constructor
  · rintro ⟨s, hd, hu, hsid, hsig⟩
    refine ⟨s, hd, ?_, hsig⟩
    have hp : s.preimage = r.preimage := by rw [FlaggedFileRecord.preimage, hu]; rfl
    rw [FlaggedFileRecord.calculateRecordId, hp, hsid]
    exact hr
  · rintro ⟨s, hd, hs, hsig⟩
    have hmb : gossipMessageId K b = s.recordId := by simp [gossipMessageId, hd]
    have hsid : s.recordId = r.recordId := by rw [← hmb, hid, hma]
    have hcf' : CollisionFree K {s.preimage, r.preimage} := by
      apply hcf.mono
      rintro x (rfl | rfl)
      · exact .inr ⟨s, hd, rfl⟩
      · exact .inl rfl
    exact ⟨s, hd, unsigned_eq_of_recordId hcf' hs hr hsid, hsid, hsig⟩

/-- The sample record with its signature cut off. -/
def unsignedCopy : FlaggedFileRecord := { sampleRecord 1 1 1 0 1000 with signature := ⟨[], nil_fits⟩ }

theorem unsignedCopy_decode : FlaggedFileRecord.decode unsignedCopy.encode = .ok unsignedCopy :=
  decode_encode (by decide)

theorem sampleRecord_validateBytes : RecordValidator.default.validateBytes samplePrimitives
    (sampleRecord 1 1 1 0 1000).encode 0 = .ok (sampleRecord 1 1 1 0 1000) :=
  validateBytes_ok_iff.mpr ⟨decode_encode (sampleRecord_bounds _ _ _ _ _),
    sampleRecord_valid (by decide) (by decide) (by decide) (by decide)⟩

theorem unsignedCopy_messageId : gossipMessageId samplePrimitives unsignedCopy.encode =
    gossipMessageId samplePrimitives (sampleRecord 1 1 1 0 1000).encode := by
  have h := decode_encode (sampleRecord_bounds 1 1 1 0 1000)
  simp only [gossipMessageId, unsignedCopy_decode, h]
  rfl

theorem unsignedCopy_collisionFree : CollisionFree samplePrimitives
    (comparedInputs (sampleRecord 1 1 1 0 1000) unsignedCopy.encode) := by
  have hone : ∀ x ∈ comparedInputs (sampleRecord 1 1 1 0 1000) unsignedCopy.encode,
      x = (sampleRecord 1 1 1 0 1000).preimage := by
    rintro x (rfl | ⟨s, hs, rfl⟩)
    · rfl
    · rw [unsignedCopy_decode] at hs
      cases hs
      rfl
  intro x hx y hy _
  rw [hone x hx, hone y hy]

theorem unsignedCopy_genuine_iff :
    GenuineCopy samplePrimitives (sampleRecord 1 1 1 0 1000) unsignedCopy.encode ↔
      Authentic samplePrimitives unsignedCopy.encode :=
  genuineCopy_iff_authentic sampleRecord_validateBytes unsignedCopy_messageId
    unsignedCopy_collisionFree

/-- A copy with no signature takes the message id of the accepted record. -/
theorem unsignedCopy_shadows :
    RecordValidator.default.validateBytes samplePrimitives (sampleRecord 1 1 1 0 1000).encode 0 =
        .ok (sampleRecord 1 1 1 0 1000) ∧
      gossipMessageId samplePrimitives unsignedCopy.encode =
        gossipMessageId samplePrimitives (sampleRecord 1 1 1 0 1000).encode ∧
      CollisionFree samplePrimitives
        (comparedInputs (sampleRecord 1 1 1 0 1000) unsignedCopy.encode) ∧
      ¬ GenuineCopy samplePrimitives (sampleRecord 1 1 1 0 1000) unsignedCopy.encode := by
  refine ⟨sampleRecord_validateBytes, unsignedCopy_messageId, unsignedCopy_collisionFree, ?_⟩
  rintro ⟨s, hs, -, -, key, -, -, hv⟩
  rw [unsignedCopy_decode] at hs
  cases hs
  have hl := sample_verify_length hv
  have hd : SIGNATURE_DOMAIN.length = 25 := by decide
  simp [unsignedCopy, hd] at hl

/-- The fallback for undecodable bytes has no domain of its own: an undecodable payload with an
accepted record's message id is that record's hash input itself. -/
theorem undecodable_eq_preimage {K : Primitives} {v : RecordValidator} {a b : Bytes}
    {now : Int64} {r : FlaggedFileRecord} {e : RecordValidation}
    (ha : v.validateBytes K a now = .ok r) (hb : FlaggedFileRecord.decode b = .error e)
    (hid : gossipMessageId K b = gossipMessageId K a)
    (hcf : CollisionFree K {b, r.preimage}) : b = r.preimage := by
  obtain ⟨hda, hva⟩ := validateBytes_ok_iff.mp ha
  obtain ⟨-, -, -, -, -, -, hr, -⟩ := validate_ok_iff.mp hva
  have hh : K.blake3 b = K.blake3 r.preimage := by
    have hmb : gossipMessageId K b = K.blake3 b := by simp [gossipMessageId, hb]
    have hma : gossipMessageId K a = r.recordId := by simp [gossipMessageId, hda]
    rw [← hmb, hid, hma]
    exact hr.symm
  exact hcf (by simp) (by simp) hh

end Protonet.RecordIdentity
