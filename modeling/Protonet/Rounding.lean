import Mathlib.Data.Int.Log
import Mathlib.Data.Rat.Floor
import Mathlib.Algebra.Order.Round

/-!
# Rounding to significant bits

Rationals rounded to the nearest number with some significant binary digits, of two such numbers to
the one whose last digit is even. The exponent has no bounds.
-/
namespace Protonet.Rounding

/-- The integer next to a number, of two the even one. -/
def nearestEven (q : ℚ) : ℤ :=
  if 2 * Int.fract q = 1 ∧ Even ⌊q⌋ then ⌊q⌋ else round q

/-- The unit in the last of `p` significant digits of a number. -/
def ulp (p : ℕ) (q : ℚ) : ℚ := 2 ^ (Int.log 2 |q| + 1 - p)

def toDigits (p : ℕ) (q : ℚ) : ℚ := nearestEven (q / ulp p q) * ulp p q

/-- A rounding that leaves numbers of up to 53 digits before the point as they are. -/
structure Arithmetic where
  round : ℚ → ℚ
  natCast : ∀ n : ℕ, n < 2 ^ 53 → round n = n

lemma nearestEven_natCast (n : ℕ) : nearestEven n = n := by
  unfold nearestEven
  rw [round_natCast, Int.floor_natCast, ite_self]

lemma toDigits_natCast {p n : ℕ} (h : n < 2 ^ p) : toDigits p n = n := by
  have hlog : Int.log 2 |(n : ℚ)| = Nat.log 2 n := by rw [Nat.abs_cast, Int.log_natCast]
  have hunit : ulp p n ≠ 0 := zpow_ne_zero _ two_ne_zero
  rcases Nat.eq_zero_or_pos n with rfl | hpos
  · have hzero : ((0 : ℕ) : ℚ) / ulp p (0 : ℕ) = (0 : ℕ) := by simp
    unfold toDigits
    rw [hzero, nearestEven_natCast]
    simp
  · have hdigits : Nat.log 2 n < p := Nat.log_lt_of_lt_pow hpos.ne' h
    -- a whole number of units, since the unit is one or a power of a half
    have hwhole : (n : ℚ) / ulp p n = (n * 2 ^ (p - (Nat.log 2 n + 1)) : ℕ) := by
      have hexp : -(Int.log 2 |(n : ℚ)| + 1 - p) = (p - (Nat.log 2 n + 1) : ℕ) := by
        rw [hlog]
        omega
      unfold ulp
      rw [div_eq_mul_inv, ← zpow_neg, hexp, zpow_natCast]
      push_cast
      rfl
    unfold toDigits
    rw [hwhole, nearestEven_natCast, Int.cast_natCast, ← hwhole, div_mul_cancel₀ _ hunit]

/-- Doubles, as long as they are neither too large nor too close to zero. -/
def float64 : Arithmetic := ⟨toDigits 53, fun _ h => toDigits_natCast h⟩

def exact : Arithmetic := ⟨id, fun _ _ => rfl⟩

@[simp] lemma exact_round (q : ℚ) : exact.round q = q := rfl

@[simp] lemma Arithmetic.round_one (r : Arithmetic) : r.round 1 = 1 := by
  have h := r.natCast 1 (by norm_num)
  rwa [Nat.cast_one] at h

example : float64.round (1 / 10) = 3602879701896397 / 36028797018963968 := by decide +kernel

end Protonet.Rounding
