import Mathlib

namespace Protonet.MachineInt

/-- `u64::saturating_add`. -/
def saturatingAdd (x y : UInt64) : UInt64 :=
  if x.toNat + y.toNat < 2 ^ 64 then x + y else UInt64.ofNat (2 ^ 64 - 1)

/-- `u64::saturating_sub`. -/
def saturatingSub (x y : UInt64) : UInt64 := if y ≤ x then x - y else 0

/-- `i64::saturating_add`. -/
def saturatingAddI64 (x y : Int64) : Int64 := Int64.ofIntClamp (x.toInt + y.toInt)

/-- `i64::checked_add`. -/
def checkedAddI64 (x y : Int64) : Option Int64 :=
  if -2 ^ 63 ≤ x.toInt + y.toInt ∧ x.toInt + y.toInt < 2 ^ 63 then some (x + y) else none

/-- `i64::checked_sub`, which is also where a build with overflow checks stops. -/
def checkedSubI64 (x y : Int64) : Option Int64 :=
  if -2 ^ 63 ≤ x.toInt - y.toInt ∧ x.toInt - y.toInt < 2 ^ 63 then some (x - y) else none

/-- `i64::try_from` on a `u64`. -/
def i64TryFrom (x : UInt64) : Option Int64 :=
  if x.toNat < 2 ^ 63 then some (Int64.ofNat x.toNat) else none

/-- `u64::try_from` on an `i64`. -/
def u64TryFrom (x : Int64) : Option UInt64 :=
  if 0 ≤ x.toInt then some (UInt64.ofNat x.toInt.toNat) else none

theorem saturatingAdd_toNat (x y : UInt64) :
    (saturatingAdd x y).toNat = min (x.toNat + y.toNat) (2 ^ 64 - 1) := by
  unfold saturatingAdd
  split_ifs with h
  · rw [UInt64.toNat_add, Nat.mod_eq_of_lt h]
    omega
  · rw [UInt64.toNat_ofNat']
    omega

theorem saturatingSub_toNat (x y : UInt64) :
    (saturatingSub x y).toNat = x.toNat - y.toNat := by
  unfold saturatingSub
  split_ifs with h
  · exact UInt64.toNat_sub_of_le _ _ h
  · have hlt := UInt64.lt_iff_toNat_lt.mp (UInt64.not_le.mp h)
    simp only [UInt64.toNat_zero]
    omega

lemma max_toNat (x y : UInt64) : (max x y).toNat = max x.toNat y.toNat := by
  change (if x ≤ y then y else x).toNat = _
  split_ifs with h
  · exact (max_eq_right (UInt64.le_iff_toNat_le.mp h)).symm
  · have hlt := UInt64.lt_iff_toNat_lt.mp (UInt64.not_le.mp h)
    exact (max_eq_left hlt.le).symm

lemma max_eq_or (x y : UInt64) : max x y = x ∨ max x y = y := by
  by_cases h : x ≤ y
  · exact .inr (if_pos h)
  · exact .inl (if_neg h)

lemma le_max_right (x y : UInt64) : y ≤ max x y := by
  rw [UInt64.le_iff_toNat_le, max_toNat]
  exact Nat.le_max_right ..

lemma le_max_left (x y : UInt64) : x ≤ max x y := by
  rw [UInt64.le_iff_toNat_le, max_toNat]
  exact Nat.le_max_left ..

/-- A floor test `s + w ≤ h` gives the same answer saturated, as long as it holds unbounded. -/
theorem saturatingAdd_le_of_le {s w h : UInt64} (hle : s.toNat + w.toNat ≤ h.toNat) :
    saturatingAdd s w ≤ h := by
  rw [UInt64.le_iff_toNat_le, saturatingAdd_toNat]
  omega

theorem i64TryFrom_isSome (x : UInt64) : (i64TryFrom x).isSome ↔ x.toNat < 2 ^ 63 := by
  simp [i64TryFrom]

theorem i64TryFrom_eq_some {x : UInt64} {y : Int64} :
    i64TryFrom x = some y ↔ x.toNat < 2 ^ 63 ∧ y.toInt = x.toNat := by
  unfold i64TryFrom
  split_ifs with h
  · have hv : (Int64.ofNat x.toNat).toInt = x.toNat := Int64.toInt_ofNat_of_lt h
    simp only [Option.some.injEq, h, true_and]
    rw [← hv, Int64.toInt_inj, eq_comm]
  · simp only [h, false_and]

theorem saturatingAddI64_toInt (x y : Int64) :
    (saturatingAddI64 x y).toInt = max (-2 ^ 63) (min (x.toInt + y.toInt) (2 ^ 63 - 1)) := by
  have hmin : Int64.minValue.toInt = -2 ^ 63 := rfl
  have hmax : Int64.maxValue.toInt = 2 ^ 63 - 1 := rfl
  unfold saturatingAddI64
  by_cases h₁ : Int64.minValue.toInt ≤ x.toInt + y.toInt
  · by_cases h₂ : x.toInt + y.toInt ≤ Int64.maxValue.toInt
    · rw [Int64.toInt_ofIntClamp h₁ h₂]
      omega
    · have he : Int64.ofIntClamp (x.toInt + y.toInt) = Int64.maxValue := by
        rw [Int64.ofIntClamp, dif_pos h₁, dif_neg h₂]
      rw [he, hmax]
      omega
  · have he : Int64.ofIntClamp (x.toInt + y.toInt) = Int64.minValue := by
      rw [Int64.ofIntClamp, dif_neg h₁]
    rw [he, hmin]
    omega

theorem sub_toInt {x y : Int64} (hlow : -2 ^ 63 ≤ x.toInt - y.toInt)
    (hhigh : x.toInt - y.toInt < 2 ^ 63) : (x - y).toInt = x.toInt - y.toInt := by
  rw [Int64.toInt_sub]
  exact Int.bmod_eq_of_le (by omega) (by omega)

theorem checkedAddI64_eq_some {x y z : Int64} (h : checkedAddI64 x y = some z) :
    z = x + y ∧ z.toInt = x.toInt + y.toInt := by
  unfold checkedAddI64 at h
  split_ifs at h with hrange
  obtain rfl := Option.some.inj h
  refine ⟨rfl, ?_⟩
  rw [Int64.toInt_add]
  exact Int.bmod_eq_of_le (by omega) (by omega)

theorem checkedSubI64_eq_some {x y z : Int64} (h : checkedSubI64 x y = some z) :
    z = x - y ∧ z.toInt = x.toInt - y.toInt := by
  unfold checkedSubI64 at h
  split_ifs at h with hrange
  obtain rfl := Option.some.inj h
  exact ⟨rfl, sub_toInt hrange.1 hrange.2⟩

theorem checkedSubI64_eq_none {x y : Int64} (h : y ≤ x) :
    checkedSubI64 x y = none ↔ 2 ^ 63 ≤ x.toInt - y.toInt := by
  have hle := Int64.le_iff_toInt_le.mp h
  unfold checkedSubI64
  split_ifs with hrange
  · simp only [false_iff]
    omega
  · simp only [true_iff]
    omega

end Protonet.MachineInt
