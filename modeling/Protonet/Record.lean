import Protonet.MachineInt
import Protonet.Postcard

/-!
# Flagged-file records and their validator

The signed record, its wire encodings, the content hash that names it and the checks a receiver
makes. BLAKE3 and the libp2p identity types are parameters.
-/
namespace Protonet.Record
open MachineInt Postcard

/-- Thirty-two bytes: a BLAKE3 or SHA-256 output. -/
abbrev Hash32 := {b : Bytes // b.length = 32}

lemma zeros_length : (List.replicate 32 (0 : UInt8)).length = 32 := List.length_replicate

abbrev RecordId := Hash32

-- Named once, so that a membership test on ids carries no proof of its own.
instance : LawfulBEq RecordId := inferInstance

/-- A peer id by its canonical bytes. -/
structure PeerId where
  toBytes : Bytes
  deriving DecidableEq

/-- The third-party primitives: the hash, the key and peer-id codecs and the signature check.
A peer id computed from a key is one that the byte parser accepts. -/
structure Primitives where
  PublicKey : Type
  blake3 : Bytes → Hash32
  tryDecodeProtobuf : Bytes → Option PublicKey
  fromPublicKey : PublicKey → PeerId
  verify : PublicKey → Bytes → Bytes → Bool
  isPeerId : Bytes → Bool
  isPeerId_fromPublicKey : ∀ k, isPeerId (fromPublicKey k).toBytes = true

/-- `PeerId::from_bytes`. -/
def Primitives.peerIdFromBytes (K : Primitives) (b : Bytes) : Option PeerId :=
  if K.isPeerId b then some ⟨b⟩ else none

def MAX_ENCODED_RECORD_SIZE : ℕ := 16 * 1024
def MAX_FILENAME_BYTES : ℕ := 512
def MAX_REASON_BYTES : ℕ := 256
def MAX_SIGNATURE_BYTES : ℕ := 128
def MAX_PEER_ID_BYTES : ℕ := 128
def MAX_PUBLIC_KEY_BYTES : ℕ := 256
def MAX_LIFETIME_MS : Int64 := 31 * 24 * 60 * 60 * 1000
def CLOCK_SKEW_MS : Int64 := 15 * 60 * 1000
def PROTOCOL_VERSION : UInt16 := 1

def ascii (s : String) : Bytes := s.toList.map fun c => UInt8.ofNat c.toNat

def RECORD_DOMAIN : Bytes := ascii "PROTONET-RECORD-V1"
def SIGNATURE_DOMAIN : Bytes := ascii "PROTONET-SIGNED-RECORD-V1"

inductive ThreatLevel
  | malicious
  deriving DecidableEq

/-- `threat_level as u8`. -/
def ThreatLevel.toU8 : ThreatLevel → UInt8
  | .malicious => 1

structure UnsignedRecord where
  protocolVersion : UInt16
  originPeerId : VecU8
  originPublicKey : VecU8
  sequence : UInt64
  createdAtUnixMs : Int64
  expiresAtUnixMs : Int64
  sha256 : Hash32
  blake3 : Hash32
  fileSize : UInt64
  fileName : Option Text
  reason : Text
  threatLevel : ThreatLevel
  deriving DecidableEq

structure FlaggedFileRecord where
  protocolVersion : UInt16
  recordId : RecordId
  originPeerId : VecU8
  originPublicKey : VecU8
  sequence : UInt64
  createdAtUnixMs : Int64
  expiresAtUnixMs : Int64
  sha256 : Hash32
  blake3 : Hash32
  fileSize : UInt64
  fileName : Option Text
  reason : Text
  threatLevel : ThreatLevel
  signature : VecU8
  deriving DecidableEq

inductive RecordValidation
  | oversized
  | malformed
  | unsupportedVersion
  | fieldTooLarge
  | invalidPeerId
  | forgedOrigin
  | modifiedRecord
  | invalidSignature
  | expired
  | futureDated
  | impossibleTimestamp
  | excessiveLifetime
  deriving DecidableEq

def RecordValidation.message : RecordValidation → String
  | .oversized => "record exceeds the maximum encoded size"
  | .malformed => "malformed record"
  | .unsupportedVersion => "unsupported protocol major version"
  | .fieldTooLarge => "field exceeds its configured bound"
  | .invalidPeerId => "origin peer ID is invalid"
  | .forgedOrigin => "origin public key does not match the peer ID"
  | .modifiedRecord => "record ID does not match its contents"
  | .invalidSignature => "origin signature is invalid"
  | .expired => "record has expired"
  | .futureDated => "record creation time is too far in the future"
  | .impossibleTimestamp => "expiration precedes creation"
  | .excessiveLifetime => "record lifetime exceeds the maximum"

def hash32Wire : Wire Hash32 := array byte 32

/-- A unit variant is its index, whatever its discriminant. -/
def threatLevelWire : Wire ThreatLevel :=
  varintU32.map (fun i => if i = 0 then some .malicious else none) (fun _ => 0)
    (by rintro ⟨⟩; rfl)

def unsignedRecordWire : Wire UnsignedRecord :=
  (varintU16.prod <| (seq byte).prod <| (seq byte).prod <| varintU64.prod <| varintI64.prod <|
    varintI64.prod <| hash32Wire.prod <| hash32Wire.prod <| varintU64.prod <|
    (option text).prod <| text.prod threatLevelWire).map
    (fun (version, peer, key, sequence, created, expires, sha, blake, size, name, reason, level) =>
      some ⟨version, peer, key, sequence, created, expires, sha, blake, size, name, reason, level⟩)
    (fun r => (r.protocolVersion, r.originPeerId, r.originPublicKey, r.sequence,
      r.createdAtUnixMs, r.expiresAtUnixMs, r.sha256, r.blake3, r.fileSize, r.fileName, r.reason,
      r.threatLevel))
    (fun _ => rfl)

def flaggedFileRecordWire : Wire FlaggedFileRecord :=
  (varintU16.prod <| hash32Wire.prod <| (seq byte).prod <| (seq byte).prod <| varintU64.prod <|
    varintI64.prod <| varintI64.prod <| hash32Wire.prod <| hash32Wire.prod <| varintU64.prod <|
    (option text).prod <| text.prod <| threatLevelWire.prod (seq byte)).map
    (fun (version, id, peer, key, sequence, created, expires, sha, blake, size, name, reason,
        level, signature) =>
      some ⟨version, id, peer, key, sequence, created, expires, sha, blake, size, name, reason,
        level, signature⟩)
    (fun r => (r.protocolVersion, r.recordId, r.originPeerId, r.originPublicKey, r.sequence,
      r.createdAtUnixMs, r.expiresAtUnixMs, r.sha256, r.blake3, r.fileSize, r.fileName, r.reason,
      r.threatLevel, r.signature))
    (fun _ => rfl)

/-- Every field but the id and the signature. -/
def FlaggedFileRecord.unsigned (r : FlaggedFileRecord) : UnsignedRecord :=
  ⟨r.protocolVersion, r.originPeerId, r.originPublicKey, r.sequence, r.createdAtUnixMs,
    r.expiresAtUnixMs, r.sha256, r.blake3, r.fileSize, r.fileName, r.reason, r.threatLevel⟩

/-- The serializer refuses only sequences of unknown length, and a record has none. -/
def FlaggedFileRecord.encode (r : FlaggedFileRecord) : Bytes := flaggedFileRecordWire.encode r

def FlaggedFileRecord.checkFieldBounds (r : FlaggedFileRecord) : Except RecordValidation Unit :=
  if r.originPeerId.1.length > MAX_PEER_ID_BYTES
      ∨ r.originPublicKey.1.length > MAX_PUBLIC_KEY_BYTES
      ∨ r.signature.1.length > MAX_SIGNATURE_BYTES
      ∨ (r.fileName.any fun v => v.1.toByteArray.size > MAX_FILENAME_BYTES) = true
      ∨ r.reason.1.toByteArray.size > MAX_REASON_BYTES then
    .error .fieldTooLarge
  else .ok ()

def FlaggedFileRecord.decode (bytes : Bytes) : Except RecordValidation FlaggedFileRecord :=
  if bytes.length > MAX_ENCODED_RECORD_SIZE then .error .oversized
  else
    match flaggedFileRecordWire.decode bytes with
    | none => .error .malformed
    | some (_, _ :: _) => .error .malformed
    | some (record, []) =>
      match record.checkFieldBounds with
      | .error e => .error e
      | .ok () => .ok record

def FlaggedFileRecord.origin (K : Primitives) (r : FlaggedFileRecord) :
    Except RecordValidation PeerId :=
  match K.peerIdFromBytes r.originPeerId.1 with
  | none => .error .invalidPeerId
  | some peer => .ok peer

/-- What the hasher is fed: the domain string, then the unsigned encoding. -/
def FlaggedFileRecord.preimage (r : FlaggedFileRecord) : Bytes :=
  RECORD_DOMAIN ++ unsignedRecordWire.encode r.unsigned

def FlaggedFileRecord.calculateRecordId (K : Primitives) (r : FlaggedFileRecord) : RecordId :=
  K.blake3 r.preimage

def supportsMajor (version : UInt16) : Bool := version == PROTOCOL_VERSION

structure RecordValidator where
  clockSkewMs : Int64
  maxLifetimeMs : Int64

def RecordValidator.default : RecordValidator := ⟨CLOCK_SKEW_MS, MAX_LIFETIME_MS⟩

/-- The lifetime subtraction wraps, as the release profile compiles it. -/
def RecordValidator.validate (K : Primitives) (v : RecordValidator) (record : FlaggedFileRecord)
    (nowUnixMs : Int64) : Except RecordValidation Unit :=
  match record.checkFieldBounds with
  | .error e => .error e
  | .ok () =>
    if !supportsMajor record.protocolVersion then .error .unsupportedVersion
    else if record.expiresAtUnixMs < record.createdAtUnixMs then .error .impossibleTimestamp
    else if record.expiresAtUnixMs - record.createdAtUnixMs > v.maxLifetimeMs then
      .error .excessiveLifetime
    else if record.expiresAtUnixMs ≤ nowUnixMs then .error .expired
    else if record.createdAtUnixMs > saturatingAddI64 nowUnixMs v.clockSkewMs then
      .error .futureDated
    else if record.calculateRecordId K ≠ record.recordId then .error .modifiedRecord
    else
      match K.tryDecodeProtobuf record.originPublicKey.1 with
      | none => .error .forgedOrigin
      | some key =>
        if (K.fromPublicKey key).toBytes ≠ record.originPeerId.1 then .error .forgedOrigin
        else if !K.verify key (SIGNATURE_DOMAIN ++ record.recordId.1) record.signature.1 then
          .error .invalidSignature
        else .ok ()

def RecordValidator.validateBytes (K : Primitives) (v : RecordValidator) (bytes : Bytes)
    (nowUnixMs : Int64) : Except RecordValidation FlaggedFileRecord :=
  match FlaggedFileRecord.decode bytes with
  | .error e => .error e
  | .ok record =>
    match v.validate K record nowUnixMs with
    | .error e => .error e
    | .ok () => .ok record

/-- The origin key decodes, names the origin peer and signs the record id. -/
def FlaggedFileRecord.SignedByOrigin (K : Primitives) (r : FlaggedFileRecord) : Prop :=
  ∃ key, K.tryDecodeProtobuf r.originPublicKey.1 = some key ∧
    (K.fromPublicKey key).toBytes = r.originPeerId.1 ∧
    K.verify key (SIGNATURE_DOMAIN ++ r.recordId.1) r.signature.1 = true

theorem guard_eq_ok {ε α : Type*} {p : Prop} [Decidable p] {e : ε} {x : Except ε α} {a : α} :
    (if p then .error e else x) = .ok a ↔ ¬ p ∧ x = .ok a := by
  split_ifs with h
  · simp [h]
  · simp [h]

theorem validate_ok_iff {K : Primitives} {v : RecordValidator} {r : FlaggedFileRecord}
    {now : Int64} : v.validate K r now = .ok () ↔
      r.checkFieldBounds = .ok () ∧ supportsMajor r.protocolVersion = true ∧
      r.createdAtUnixMs ≤ r.expiresAtUnixMs ∧
      r.expiresAtUnixMs - r.createdAtUnixMs ≤ v.maxLifetimeMs ∧
      now < r.expiresAtUnixMs ∧
      r.createdAtUnixMs ≤ saturatingAddI64 now v.clockSkewMs ∧
      r.calculateRecordId K = r.recordId ∧ r.SignedByOrigin K := by
  unfold RecordValidator.validate
  cases hb : r.checkFieldBounds with
  | error e => simp
  | ok u =>
    dsimp only
    rw [guard_eq_ok, guard_eq_ok, guard_eq_ok, guard_eq_ok, guard_eq_ok, guard_eq_ok,
      Bool.not_eq_true', Bool.not_eq_false, Int64.not_lt, gt_iff_lt, Int64.not_lt, Int64.not_le,
      gt_iff_lt, Int64.not_lt, not_ne_iff]
    unfold FlaggedFileRecord.SignedByOrigin
    rcases K.tryDecodeProtobuf r.originPublicKey.1 with _ | key
    · simp only [reduceCtorEq, false_and, exists_false, and_false]
    · dsimp only
      rw [guard_eq_ok, guard_eq_ok, not_ne_iff, Bool.not_eq_true', Bool.not_eq_false]
      simp only [Option.some.injEq, exists_eq_left', and_true, true_and]

theorem validateBytes_ok_iff {K : Primitives} {v : RecordValidator} {bytes : Bytes}
    {now : Int64} {r : FlaggedFileRecord} : v.validateBytes K bytes now = .ok r ↔
      FlaggedFileRecord.decode bytes = .ok r ∧ v.validate K r now = .ok () := by
  unfold RecordValidator.validateBytes
  cases hd : FlaggedFileRecord.decode bytes with
  | error e => simp
  | ok s =>
    cases hv : v.validate K s now with
    | error e =>
      simp only [hv, Except.ok.injEq, reduceCtorEq, false_iff, not_and]
      rintro rfl
      simp [hv]
    | ok u =>
      simp only [hv, Except.ok.injEq]
      constructor
      · rintro rfl
        exact ⟨rfl, hv⟩
      · exact fun h => h.1

/-- A validated record's origin always parses. -/
theorem origin_of_validate {K : Primitives} {v : RecordValidator} {r : FlaggedFileRecord}
    {now : Int64} (h : v.validate K r now = .ok ()) :
    r.origin K = .ok ⟨r.originPeerId.1⟩ := by
  obtain ⟨-, -, -, -, -, -, -, key, -, hp, -⟩ := validate_ok_iff.mp h
  have hv := K.isPeerId_fromPublicKey key
  rw [hp] at hv
  simp [FlaggedFileRecord.origin, Primitives.peerIdFromBytes, hv]

theorem checkFieldBounds_ok_iff {r : FlaggedFileRecord} : r.checkFieldBounds = .ok () ↔
    r.originPeerId.1.length ≤ MAX_PEER_ID_BYTES ∧
    r.originPublicKey.1.length ≤ MAX_PUBLIC_KEY_BYTES ∧
    r.signature.1.length ≤ MAX_SIGNATURE_BYTES ∧
    (∀ v ∈ r.fileName, v.1.toByteArray.size ≤ MAX_FILENAME_BYTES) ∧
    r.reason.1.toByteArray.size ≤ MAX_REASON_BYTES := by
  unfold FlaggedFileRecord.checkFieldBounds
  cases hn : r.fileName <;> simp

end Protonet.Record
