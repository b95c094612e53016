import Protonet.RecordCreation
import Protonet.RecordPaths

namespace Protonet.RecordLifetime
open MachineInt Postcard Record RecordIdentity RecordCreation RecordPaths

/-- Ed25519 key pairs sign whatever there is to sign, and their public keys, peer ids and signatures
have the standard lengths. -/
structure Standard {K : Primitives} (S : Signer K) : Prop extends S.Lawful where
  signs : ∀ keypair message, (S.sign keypair message).isSome
  keyLength : ∀ keypair, (S.encodeProtobuf (S.publicKey keypair)).1.length = 36
  peerIdLength : ∀ keypair, (S.peerIdBytes (S.publicKey keypair)).1.length = 38
  signatureLength : ∀ keypair message signature, S.sign keypair message = some signature →
    signature.1.length = 64

variable {K : Primitives} {S : Signer K} {keypair : S.Keypair} {sequence fileSize : UInt64}
  {created expires : Int64} {sha256 blake3 : Hash32} {fileName : Option Text}
  {r : FlaggedFileRecord}

def Named (fileName : Option Text) : Prop :=
  ∀ v ∈ fileName, v.1.toByteArray.size ≤ MAX_FILENAME_BYTES

lemma draft_bounds (hS : Standard S) :
    (draft S keypair sequence created expires sha256 blake3 fileSize fileName).checkFieldBounds =
      .ok () ↔ Named fileName := by
  have hpeer : (S.peerIdBytes (S.publicKey keypair)).1.length ≤ MAX_PEER_ID_BYTES := by
    rw [hS.peerIdLength]
    decide
  have hkey : (S.encodeProtobuf (S.publicKey keypair)).1.length ≤ MAX_PUBLIC_KEY_BYTES := by
    rw [hS.keyLength]
    decide
  have hreason : demoReason.1.toByteArray.size ≤ MAX_REASON_BYTES := by decide
  rw [checkFieldBounds_ok_iff]
  constructor
  · rintro ⟨-, -, -, hname, -⟩
    exact hname
  · exact fun hname => ⟨hpeer, hkey, Nat.zero_le _, hname, hreason⟩

lemma create_ok (hS : Standard S) (hexpires : checkedAddI64 created DEFAULT_LIFETIME_MS =
    some expires) (hname : Named fileName) : ∃ r,
      create K S keypair sequence created sha256 blake3 fileSize fileName = .ok r ∧
        r.protocolVersion = PROTOCOL_VERSION ∧ r.createdAtUnixMs = created ∧
        r.expiresAtUnixMs = expires := by
  have hbounds : (draft S keypair sequence created expires sha256 blake3 fileSize
      fileName).checkFieldBounds = .ok () := (draft_bounds hS).mpr hname
  unfold create
  rw [hexpires]
  dsimp only
  generalize hdraft : draft S keypair sequence created expires sha256 blake3 fileSize fileName = d
  rw [hdraft] at hbounds
  rw [hbounds]
  dsimp only
  obtain ⟨signature, hsign⟩ := Option.isSome_iff_exists.mp
    (hS.signs keypair (SIGNATURE_DOMAIN ++ (d.calculateRecordId K).1))
  rw [hsign]
  dsimp only
  obtain ⟨hpeer, hkey, -, hfits, hreason⟩ := checkFieldBounds_ok_iff.mp hbounds
  have hshort := encode_length_le (r := { d with recordId := d.calculateRecordId K, signature })
    (checkFieldBounds_ok_iff.mpr ⟨hpeer, hkey, hS.short _ _ _ hsign, hfits, hreason⟩)
  rw [if_neg (not_lt.mpr hshort)]
  exact ⟨_, rfl, hdraft ▸ rfl, hdraft ▸ rfl, hdraft ▸ rfl⟩

lemma create_error (hS : Standard S)
    (h : ¬ Named fileName ∨ checkedAddI64 created DEFAULT_LIFETIME_MS = none) :
    ∃ e, create K S keypair sequence created sha256 blake3 fileSize fileName = .error e := by
  unfold create
  rcases hexpires : checkedAddI64 created DEFAULT_LIFETIME_MS with _ | expires
  · exact ⟨_, rfl⟩
  · have hname : ¬ Named fileName := by
      rcases h with hname | hnone
      · exact hname
      · simp [hexpires] at hnone
    dsimp only
    rcases hbounds : (draft S keypair sequence created expires sha256 blake3 fileSize
      fileName).checkFieldBounds with e | ⟨⟩
    · exact ⟨e, rfl⟩
    · exact absurd ((draft_bounds hS).mp hbounds) hname

/-- The default lifetime is within the maximum, so all that matters is the time. -/
lemma validate_own_iff (hgenuine : Genuine K r) (hversion : r.protocolVersion = PROTOCOL_VERSION)
    (hexpires : r.expiresAtUnixMs.toInt = r.createdAtUnixMs.toInt + DEFAULT_LIFETIME_MS.toInt)
    {now : Int64} : RecordValidator.default.validate K r now = .ok () ↔
      r.createdAtUnixMs ≤ saturatingAddI64 now CLOCK_SKEW_MS ∧
        now.toInt < r.createdAtUnixMs.toInt + DEFAULT_LIFETIME_MS.toInt := by
  have hlife : DEFAULT_LIFETIME_MS.toInt = 2592000000 := by decide
  have hmax : RecordValidator.default.maxLifetimeMs.toInt = 2678400000 := by decide
  have horder : r.createdAtUnixMs ≤ r.expiresAtUnixMs := by
    rw [Int64.le_iff_toInt_le]
    omega
  have hshort : r.expiresAtUnixMs - r.createdAtUnixMs ≤ RecordValidator.default.maxLifetimeMs := by
    rw [Int64.le_iff_toInt_le, sub_toInt (by omega) (by omega)]
    omega
  rw [validate_ok_iff, ← hexpires, ← Int64.lt_iff_toInt_lt]
  constructor
  · rintro ⟨-, -, -, -, hunexpired, hcreated, -, -⟩
    exact ⟨hcreated, hunexpired⟩
  · rintro ⟨hcreated, hunexpired⟩
    exact ⟨hgenuine.bounds, by rw [hversion]; decide, horder, hshort, hunexpired, hcreated,
      hgenuine.id, hgenuine.signed⟩

lemma checkedAddI64_lifetime : checkedAddI64 created DEFAULT_LIFETIME_MS = none ↔
    2 ^ 63 ≤ created.toInt + DEFAULT_LIFETIME_MS.toInt := by
  have hlow := created.le_toInt
  have hlife : DEFAULT_LIFETIME_MS.toInt = 2592000000 := by decide
  unfold checkedAddI64
  split_ifs with hrange
  · exact iff_of_false nofun fun h => by omega
  · exact iff_of_true rfl (by omega)

/-- Creating a record fails exactly for a name that is too long or a creation time whose expiry is
out of range, and what is created passes the default validator as bytes exactly from its creation,
allowing for the skew of the clocks, to its expiry. -/
theorem own_records_accepted (hS : Standard S) (keypair : S.Keypair) (sequence : UInt64)
    (created : Int64) (sha256 blake3 : Hash32) (fileSize : UInt64) (fileName : Option Text) :
    ((∃ e, create K S keypair sequence created sha256 blake3 fileSize fileName = .error e) ↔
      (∃ v ∈ fileName, MAX_FILENAME_BYTES < v.1.toByteArray.size) ∨
        2 ^ 63 ≤ created.toInt + DEFAULT_LIFETIME_MS.toInt) ∧
    ∀ r, create K S keypair sequence created sha256 blake3 fileSize fileName = .ok r → ∀ now,
      ((∃ s, RecordValidator.default.validateBytes K r.encode now = .ok s) ↔
        created ≤ saturatingAddI64 now CLOCK_SKEW_MS ∧
          now.toInt < created.toInt + DEFAULT_LIFETIME_MS.toInt) := by
  have hlong : (∃ v ∈ fileName, MAX_FILENAME_BYTES < v.1.toByteArray.size) ↔ ¬ Named fileName := by
    simp [Named]
  rw [hlong, ← checkedAddI64_lifetime]
  by_cases hfails : ¬ Named fileName ∨ checkedAddI64 created DEFAULT_LIFETIME_MS = none
  · obtain ⟨e, he⟩ : ∃ e, create K S keypair sequence created sha256 blake3 fileSize fileName =
        .error e := create_error hS hfails
    refine ⟨iff_of_true ⟨e, he⟩ hfails, fun r hr => ?_⟩
    rw [he] at hr
    cases hr
  · obtain ⟨hname, hin⟩ := not_or.mp hfails
    obtain ⟨expires, hexpires⟩ := Option.ne_none_iff_exists'.mp hin
    obtain ⟨own, hown, hversion, hcreated, hends⟩ : ∃ r,
        create K S keypair sequence created sha256 blake3 fileSize fileName = .ok r ∧
          r.protocolVersion = PROTOCOL_VERSION ∧ r.createdAtUnixMs = created ∧
          r.expiresAtUnixMs = expires := create_ok hS hexpires (not_not.mp hname)
    have hgenuine := create_genuine hS.toLawful hown
    refine ⟨iff_of_false ?_ hfails, fun r hr now => ?_⟩
    · rintro ⟨e, he⟩
      rw [hown] at he
      cases he
    · obtain rfl := Except.ok.inj (hown.symm.trans hr)
      have hsum : own.expiresAtUnixMs.toInt =
          own.createdAtUnixMs.toInt + DEFAULT_LIFETIME_MS.toInt := by
        rw [hends, hcreated]
        exact (checkedAddI64_eq_some hexpires).2
      rw [← hcreated, ← validate_own_iff hgenuine hversion hsum]
      constructor
      · rintro ⟨s, hs⟩
        exact (validateBytes_encode_iff.mp hs).2
      · exact fun hvalid => ⟨own, validateBytes_encode_iff.mpr ⟨rfl, hvalid⟩⟩

/-- What stands before the bytes of a key in its encoding. -/
def keyHeader : Bytes := [8, 1, 18, 32]

def encodeKey (key : Hash32) : Bytes := keyHeader ++ key.1

lemma encodeKey_length (key : Hash32) : (encodeKey key).length = 36 := by
  simp [encodeKey, keyHeader, key.2]

lemma drop_encodeKey (key : Hash32) : (encodeKey key).drop 4 = key.1 := by
  simp [encodeKey, keyHeader]

/-- A signature is a hash of the key and the message, and the key. -/
def signatureOf (key : Hash32) (message : Bytes) : Bytes :=
  (sampleHash (key.1 ++ message)).1 ++ key.1

lemma signatureOf_length (key : Hash32) (message : Bytes) :
    (signatureOf key message).length = 64 := by
  simp [signatureOf, (sampleHash (key.1 ++ message)).2, key.2]

/-- A peer id contains the encoded key. -/
def peerBytes (key : Hash32) : Bytes := [0, 36] ++ encodeKey key

lemma peerBytes_length (key : Hash32) : (peerBytes key).length = 38 := by
  rw [peerBytes, List.length_append, encodeKey_length]
  rfl

def decodeKey (b : Bytes) : Option Hash32 :=
  if h : (b.drop 4).length = 32 then
    if b.take 4 = keyHeader then some ⟨b.drop 4, h⟩ else none
  else none

lemma decodeKey_encodeKey (key : Hash32) : decodeKey (encodeKey key) = some key := by
  have hlength : ((encodeKey key).drop 4).length = 32 := by rw [drop_encodeKey, key.2]
  have hheader : (encodeKey key).take 4 = keyHeader := by simp [encodeKey, keyHeader]
  rw [decodeKey, dif_pos hlength, if_pos hheader, Option.some.injEq]
  exact Subtype.ext (drop_encodeKey key)

def standardPrimitives : Primitives where
  PublicKey := Hash32
  blake3 := sampleHash
  tryDecodeProtobuf := decodeKey
  fromPublicKey key := ⟨peerBytes key⟩
  verify key message signature := signature == signatureOf key message
  isPeerId _ := true
  isPeerId_fromPublicKey _ := rfl

lemma fits_of_length {b : Bytes} {n : ℕ} (h : b.length = n) (hn : n < 2 ^ 63) :
    b.length < 2 ^ 63 := h.trans_lt hn

def standardSigner : Signer standardPrimitives where
  Keypair := Hash32
  publicKey key := key
  encodeProtobuf key := ⟨encodeKey key, fits_of_length (encodeKey_length key) (by decide)⟩
  peerIdBytes key := ⟨peerBytes key, fits_of_length (peerBytes_length key) (by decide)⟩
  sign key message :=
    some ⟨signatureOf key message, fits_of_length (signatureOf_length key message) (by decide)⟩

lemma standardSigner_standard : Standard standardSigner where
  decodes := decodeKey_encodeKey
  names _ := rfl
  verifies key message signature h := by
    obtain rfl := Option.some.inj h
    exact beq_self_eq_true (signatureOf key message)
  short key message signature h := by
    obtain rfl := Option.some.inj h
    exact (signatureOf_length key message).trans_le (by decide)
  signs _ _ := rfl
  keyLength := encodeKey_length
  peerIdLength := peerBytes_length
  signatureLength key message signature h := by
    obtain rfl := Option.some.inj h
    exact signatureOf_length key message

def sampleKey : Hash32 := ⟨List.replicate 32 0, zeros_length⟩

/-- A record of the epoch is created, and accepted a second later. -/
theorem epoch_record_accepted : ∃ r s,
    create standardPrimitives standardSigner sampleKey 1 0 sampleKey sampleKey 1 none = .ok r ∧
      RecordValidator.default.validateBytes standardPrimitives r.encode 1000 = .ok s := by
  obtain ⟨hfails, haccepts⟩ :=
    own_records_accepted standardSigner_standard sampleKey 1 0 sampleKey sampleKey 1 none
  rcases hcreate : create standardPrimitives standardSigner sampleKey 1 0 sampleKey sampleKey 1
    none with e | r
  · have hnone := hfails.mp ⟨e, hcreate⟩
    exact absurd hnone (by decide)
  · obtain ⟨s, hs⟩ := (haccepts r hcreate 1000).mpr (by decide)
    exact ⟨r, s, rfl, hs⟩

end Protonet.RecordLifetime
