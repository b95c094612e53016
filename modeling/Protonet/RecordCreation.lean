import Protonet.RecordIdentity

namespace Protonet.RecordCreation
open MachineInt Postcard Record RecordIdentity

def DEFAULT_LIFETIME_MS : Int64 := 30 * 24 * 60 * 60 * 1000

/-- The key pairs of the third-party identity library. -/
structure Signer (K : Primitives) where
  Keypair : Type
  publicKey : Keypair → K.PublicKey
  encodeProtobuf : K.PublicKey → VecU8
  peerIdBytes : K.PublicKey → VecU8
  sign : Keypair → Bytes → Option VecU8

/-- Public keys survive their encoding, signatures verify, and both kinds of bytes are those of the
receiver's side. A signature is no longer than records allow. -/
structure Signer.Lawful {K : Primitives} (S : Signer K) : Prop where
  decodes : ∀ keypair, K.tryDecodeProtobuf (S.encodeProtobuf (S.publicKey keypair)).1 =
    some (S.publicKey keypair)
  names : ∀ keypair, (S.peerIdBytes (S.publicKey keypair)).1 =
    (K.fromPublicKey (S.publicKey keypair)).toBytes
  verifies : ∀ keypair message signature, S.sign keypair message = some signature →
    K.verify (S.publicKey keypair) message signature.1 = true
  short : ∀ keypair message signature, S.sign keypair message = some signature →
    signature.1.length ≤ MAX_SIGNATURE_BYTES

def demoReason : Text := ⟨"Protonet collaborative demo", by decide⟩

def draft {K : Primitives} (S : Signer K) (keypair : S.Keypair) (sequence : UInt64)
    (createdAtUnixMs expiresAtUnixMs : Int64) (sha256 blake3 : Hash32) (fileSize : UInt64)
    (fileName : Option Text) : FlaggedFileRecord where
  protocolVersion := PROTOCOL_VERSION
  recordId := ⟨List.replicate 32 0, zeros_length⟩
  originPeerId := S.peerIdBytes (S.publicKey keypair)
  originPublicKey := S.encodeProtobuf (S.publicKey keypair)
  sequence := sequence
  createdAtUnixMs := createdAtUnixMs
  expiresAtUnixMs := expiresAtUnixMs
  sha256 := sha256
  blake3 := blake3
  fileSize := fileSize
  fileName := fileName
  reason := demoReason
  threatLevel := .malicious
  signature := ⟨[], nil_fits⟩

/-- `FlaggedFileRecord::create`. -/
def create (K : Primitives) (S : Signer K) (keypair : S.Keypair) (sequence : UInt64)
    (createdAtUnixMs : Int64) (sha256 blake3 : Hash32) (fileSize : UInt64)
    (fileName : Option Text) : Except RecordValidation FlaggedFileRecord :=
  match checkedAddI64 createdAtUnixMs DEFAULT_LIFETIME_MS with
  | none => .error .impossibleTimestamp
  | some expiresAtUnixMs =>
    let record := draft S keypair sequence createdAtUnixMs expiresAtUnixMs sha256 blake3 fileSize
      fileName
    match record.checkFieldBounds with
    | .error e => .error e
    | .ok () =>
      let record := { record with recordId := record.calculateRecordId K }
      match S.sign keypair (SIGNATURE_DOMAIN ++ record.recordId.1) with
      | none => .error .invalidSignature
      | some signature =>
        let record := { record with signature }
        if record.encode.length > MAX_ENCODED_RECORD_SIZE then .error .oversized
        else .ok record

/-- The checks that do not depend on the time. -/
structure Genuine (K : Primitives) (r : FlaggedFileRecord) : Prop where
  bounds : r.checkFieldBounds = .ok ()
  id : r.calculateRecordId K = r.recordId
  signed : r.SignedByOrigin K

variable {K : Primitives} {S : Signer K} {r : FlaggedFileRecord}

lemma genuine_of_validate {v : RecordValidator} {now : Int64}
    (h : v.validate K r now = .ok ()) : Genuine K r := by
  obtain ⟨hbounds, -, -, -, -, -, hid, hsigned⟩ := validate_ok_iff.mp h
  exact ⟨hbounds, hid, hsigned⟩

lemma Genuine.origin (h : Genuine K r) : r.origin K = .ok ⟨r.originPeerId.1⟩ := by
  obtain ⟨key, -, hname, -⟩ := h.signed
  have hparsed := K.isPeerId_fromPublicKey key
  rw [hname] at hparsed
  simp [FlaggedFileRecord.origin, Primitives.peerIdFromBytes, hparsed]

lemma create_genuine (hS : S.Lawful) {keypair : S.Keypair} {sequence fileSize : UInt64}
    {created : Int64} {sha256 blake3 : Hash32} {fileName : Option Text}
    (h : create K S keypair sequence created sha256 blake3 fileSize fileName = .ok r) :
    Genuine K r := by
  unfold create at h
  rcases hexpires : checkedAddI64 created DEFAULT_LIFETIME_MS with _ | expires
  · simp [hexpires] at h
  · rw [hexpires] at h
    dsimp only at h
    generalize hdraft : draft S keypair sequence created expires sha256 blake3 fileSize fileName =
      d at h
    rcases hbounds : d.checkFieldBounds with error | ⟨⟩
    · simp [hbounds] at h
    · rw [hbounds] at h
      dsimp only at h
      rcases hsign : S.sign keypair (SIGNATURE_DOMAIN ++ (d.calculateRecordId K).1)
        with _ | signature
      · simp [hsign] at h
      · rw [hsign] at h
        dsimp only at h
        split_ifs at h
        obtain rfl := Except.ok.inj h
        obtain ⟨hpeer, hkey, -, hname, hreason⟩ := checkFieldBounds_ok_iff.mp hbounds
        refine ⟨checkFieldBounds_ok_iff.mpr ⟨hpeer, hkey, hS.short _ _ _ hsign, hname, hreason⟩,
          rfl, S.publicKey keypair, ?_, ?_, hS.verifies _ _ _ hsign⟩
        · rw [← hdraft]
          exact hS.decodes _
        · rw [← hdraft]
          exact (hS.names _).symm

end Protonet.RecordCreation
