import Protonet.RecordCreation

namespace Protonet.RecordTimes
open MachineInt Record RecordIdentity RecordCreation

/-- `validate` in a build with overflow checks: `none` where the subtraction overflows. -/
def validateChecked (K : Primitives) (v : RecordValidator) (record : FlaggedFileRecord)
    (nowUnixMs : Int64) : Option (Except RecordValidation Unit) :=
  match record.checkFieldBounds with
  | .error e => some (.error e)
  | .ok () =>
    if !supportsMajor record.protocolVersion then some (.error .unsupportedVersion)
    else if record.expiresAtUnixMs < record.createdAtUnixMs then some (.error .impossibleTimestamp)
    else
      match checkedSubI64 record.expiresAtUnixMs record.createdAtUnixMs with
      | none => none
      | some lifetime =>
        some <|
          if lifetime > v.maxLifetimeMs then .error .excessiveLifetime
          else if record.expiresAtUnixMs ≤ nowUnixMs then .error .expired
          else if record.createdAtUnixMs > saturatingAddI64 nowUnixMs v.clockSkewMs then
            .error .futureDated
          else if record.calculateRecordId K ≠ record.recordId then .error .modifiedRecord
          else
            match K.tryDecodeProtobuf record.originPublicKey.1 with
            | none => .error .forgedOrigin
            | some key =>
              if (K.fromPublicKey key).toBytes ≠ record.originPeerId.1 then .error .forgedOrigin
              else if !K.verify key (SIGNATURE_DOMAIN ++ record.recordId.1) record.signature.1 then
                .error .invalidSignature
              else .ok ()

def lifetime (r : FlaggedFileRecord) : ℤ := r.expiresAtUnixMs.toInt - r.createdAtUnixMs.toInt

/-- The times of a record are what the validator is there to make sure of. -/
structure InTime (v : RecordValidator) (r : FlaggedFileRecord) (now : Int64) : Prop where
  nonneg : 0 ≤ lifetime r
  short : lifetime r ≤ v.maxLifetimeMs.toInt
  unexpired : now.toInt < r.expiresAtUnixMs.toInt
  created : r.createdAtUnixMs.toInt ≤ now.toInt + v.clockSkewMs.toInt
  ends : r.expiresAtUnixMs.toInt ≤ now.toInt + v.clockSkewMs.toInt + v.maxLifetimeMs.toInt

/-- Nothing overflows, and what is accepted is in time. -/
structure Exact (K : Primitives) (v : RecordValidator) (r : FlaggedFileRecord) (now : Int64) :
    Prop where
  checked : (validateChecked K v r now).isSome
  accepted : v.validate K r now = .ok () → InTime v r now

/-- The two times are further apart than the type can tell, and the checks before the subtraction
do not mind. -/
structure Apart (r : FlaggedFileRecord) : Prop where
  bounds : r.checkFieldBounds = .ok ()
  version : supportsMajor r.protocolVersion = true
  far : 2 ^ 63 ≤ lifetime r

/-- The clock less a negative tolerance is below the range, and the record is of the first instant
in it but has no other fault. -/
structure Sunk (K : Primitives) (v : RecordValidator) (r : FlaggedFileRecord) (now : Int64) :
    Prop where
  genuine : Genuine K r
  version : supportsMajor r.protocolVersion = true
  nonneg : 0 ≤ lifetime r
  short : lifetime r ≤ v.maxLifetimeMs.toInt
  unexpired : now < r.expiresAtUnixMs
  first : r.createdAtUnixMs = Int64.minValue
  below : now.toInt + v.clockSkewMs.toInt < -2 ^ 63

variable {K : Primitives} {v : RecordValidator} {r : FlaggedFileRecord} {now : Int64}

/-- Where nothing overflows, the release build answers the same. -/
lemma validate_of_checked {answer : Except RecordValidation Unit}
    (h : validateChecked K v r now = some answer) : v.validate K r now = answer := by
  unfold validateChecked at h
  unfold RecordValidator.validate
  cases hbounds : r.checkFieldBounds with
  | error e =>
    rw [hbounds] at h
    exact Option.some.inj h
  | ok u =>
    rw [hbounds] at h
    dsimp only at h ⊢
    by_cases hversion : (!supportsMajor r.protocolVersion) = true
    · rw [if_pos hversion] at h ⊢
      exact Option.some.inj h
    · rw [if_neg hversion] at h ⊢
      by_cases horder : r.expiresAtUnixMs < r.createdAtUnixMs
      · rw [if_pos horder] at h ⊢
        exact Option.some.inj h
      · rw [if_neg horder] at h ⊢
        rcases hlife : checkedSubI64 r.expiresAtUnixMs r.createdAtUnixMs with _ | life
        · simp [hlife] at h
        · obtain ⟨rfl, -⟩ := checkedSubI64_eq_some hlife
          rw [hlife] at h
          exact Option.some.inj h

lemma validateChecked_eq_none : validateChecked K v r now = none ↔ Apart r := by
  unfold validateChecked
  cases hbounds : r.checkFieldBounds with
  | error e => exact iff_of_false nofun fun h => absurd (hbounds.symm.trans h.bounds) nofun
  | ok u =>
    dsimp only
    by_cases hversion : supportsMajor r.protocolVersion = true
    · rw [if_neg (by simp [hversion])]
      by_cases horder : r.expiresAtUnixMs < r.createdAtUnixMs
      · rw [if_pos horder]
        refine iff_of_false nofun fun h => ?_
        have hfar := h.far
        have hlt := Int64.lt_iff_toInt_lt.mp horder
        unfold lifetime at hfar
        omega
      · rw [if_neg horder]
        have hfar := checkedSubI64_eq_none (Int64.not_lt.mp horder)
        rcases hlife : checkedSubI64 r.expiresAtUnixMs r.createdAtUnixMs with _ | life
        · exact iff_of_true rfl ⟨hbounds, hversion, hfar.mp hlife⟩
        · refine iff_of_false nofun fun h => ?_
          rw [hfar.mpr h.far] at hlife
          exact absurd hlife nofun
    · rw [if_pos (by simp [hversion])]
      exact iff_of_false nofun fun h => hversion h.version

lemma times_of_ok (hnear : lifetime r < 2 ^ 63) (h : v.validate K r now = .ok ()) :
    0 ≤ lifetime r ∧ lifetime r ≤ v.maxLifetimeMs.toInt ∧
      now.toInt < r.expiresAtUnixMs.toInt ∧
      (r.createdAtUnixMs.toInt ≤ now.toInt + v.clockSkewMs.toInt ∨
        r.createdAtUnixMs = Int64.minValue ∧ now.toInt + v.clockSkewMs.toInt < -2 ^ 63) := by
  obtain ⟨-, -, horder, hlife, hexpires, hcreated, -, -⟩ := validate_ok_iff.mp h
  rw [Int64.le_iff_toInt_le] at horder hlife hcreated
  rw [Int64.lt_iff_toInt_lt] at hexpires
  have hnonneg : 0 ≤ lifetime r := by
    unfold lifetime
    omega
  unfold lifetime at hnear hnonneg ⊢
  rw [sub_toInt (by omega) hnear] at hlife
  rw [saturatingAddI64_toInt] at hcreated
  refine ⟨hnonneg, hlife, hexpires, ?_⟩
  by_cases hbelow : now.toInt + v.clockSkewMs.toInt < -2 ^ 63
  · right
    have hfirst : r.createdAtUnixMs.toInt = Int64.minValue.toInt := by
      have hlow := r.createdAtUnixMs.le_toInt
      have hmin : Int64.minValue.toInt = -2 ^ 63 := rfl
      omega
    exact ⟨Int64.toInt_inj.mp hfirst, hbelow⟩
  · left
    omega

lemma Sunk.accepted (h : Sunk K v r now) : v.validate K r now = .ok () := by
  have hmin : Int64.minValue.toInt = -2 ^ 63 := rfl
  have hnonneg := h.nonneg
  have hshort := h.short
  have hmax := v.maxLifetimeMs.toInt_lt
  unfold lifetime at hnonneg hshort
  refine validate_ok_iff.mpr ⟨h.genuine.bounds, h.version, Int64.le_iff_toInt_le.mpr (by omega),
    Int64.le_iff_toInt_le.mpr ?_, h.unexpired, Int64.le_iff_toInt_le.mpr ?_, h.genuine.id,
    h.genuine.signed⟩
  · rw [sub_toInt (by omega) (by omega)]
    exact hshort
  · rw [saturatingAddI64_toInt, h.first, hmin]
    exact le_max_left ..

/-- For every record and clock, the time checks are exact unless the times of the record are too far
apart to subtract, or a negative tolerance takes the clock below the range. -/
theorem times_exact_iff (K : Primitives) (v : RecordValidator) (r : FlaggedFileRecord)
    (now : Int64) : Exact K v r now ↔ ¬ Apart r ∧ ¬ Sunk K v r now := by
  constructor
  · intro h
    refine ⟨fun hapart => ?_, fun hsunk => ?_⟩
    · have hnone := h.checked
      rw [validateChecked_eq_none.mpr hapart] at hnone
      simp at hnone
    · have hcreated := (h.accepted hsunk.accepted).created
      have hmin : Int64.minValue.toInt = -2 ^ 63 := rfl
      have hbelow := hsunk.below
      rw [hsunk.first, hmin] at hcreated
      omega
  · rintro ⟨hnear, hdry⟩
    refine ⟨?_, fun hok => ?_⟩
    · rw [Option.isSome_iff_ne_none, Ne, validateChecked_eq_none]
      exact hnear
    · obtain ⟨hbounds, hversion, -, -, hexpires, -⟩ := validate_ok_iff.mp hok
      have hclose : lifetime r < 2 ^ 63 := not_le.mp fun hfar => hnear ⟨hbounds, hversion, hfar⟩
      obtain ⟨hnonneg, hshort, hunexpired, hcreated | ⟨hfirst, hbelow⟩⟩ := times_of_ok hclose hok
      · refine ⟨hnonneg, hshort, hunexpired, hcreated, ?_⟩
        unfold lifetime at hshort
        omega
      · exact absurd ⟨genuine_of_validate hok, hversion, hnonneg, hshort, hexpires, hfirst, hbelow⟩
          hdry

/-- A record from before the epoch that expires with the last instant there is. -/
def everlasting : FlaggedFileRecord := sampleRecord 1 1 1 (-1) Int64.maxValue

/-- It is accepted from the epoch on until that instant, although its lifetime is far above the
maximum. -/
theorem everlasting_accepted :
    (∀ now : Int64, 0 ≤ now → now < Int64.maxValue →
      RecordValidator.default.validate samplePrimitives everlasting now = .ok ()) ∧
    MAX_LIFETIME_MS.toInt < lifetime everlasting ∧
    ¬ Exact samplePrimitives .default everlasting 0 := by
  have haccepted : ∀ now : Int64, 0 ≤ now → now < Int64.maxValue →
      RecordValidator.default.validate samplePrimitives everlasting now = .ok () := by
    intro now hpast hlast
    refine sampleRecord_valid (by decide) (by decide) hlast (Int64.le_iff_toInt_le.mpr ?_)
    have hnow : 0 ≤ now.toInt := Int64.le_iff_toInt_le.mp hpast
    have hskew : (0 : ℤ) ≤ CLOCK_SKEW_MS.toInt := by decide
    have hcreated : (-1 : Int64).toInt = -1 := rfl
    rw [saturatingAddI64_toInt, hcreated]
    omega
  have hlong : MAX_LIFETIME_MS.toInt < lifetime everlasting := by decide +kernel
  refine ⟨haccepted, hlong, fun hexact => ?_⟩
  exact absurd (hexact.accepted (haccepted 0 (by decide) (by decide))).short (not_le.mpr hlong)

end Protonet.RecordTimes
