import Mathlib

namespace Protonet.Cidr

structure Block (w : ℕ) where
  base : ℕ
  length : ℕ
  length_le : length ≤ w := by decide
  aligned : 2 ^ (w - length) ∣ base := by decide

variable {w k n : ℕ}

def Block.Contains (b : Block w) (n : ℕ) : Prop :=
  n / 2 ^ (w - b.length) = b.base / 2 ^ (w - b.length)

instance (b : Block w) : Decidable (b.Contains n) := inferInstanceAs (Decidable (_ = _))

theorem contains_iff_range {b : Block w} :
    b.Contains n ↔ b.base ≤ n ∧ n < b.base + 2 ^ (w - b.length) := by
  obtain ⟨q, hq⟩ := b.aligned
  have hpos : 0 < 2 ^ (w - b.length) := Nat.two_pow_pos _
  unfold Block.Contains
  rw [hq, Nat.mul_div_cancel_left q hpos, Nat.div_eq_iff hpos, mul_comm q]
  omega

theorem and_mask (hn : n < 2 ^ w) (hk : k ≤ w) : n &&& (2 ^ w - 2 ^ k) = n / 2 ^ k * 2 ^ k := by
  have hmask : 2 ^ w - 2 ^ k = 2 ^ w - ((2 ^ k - 1) + 1) := by
    rw [Nat.sub_add_cancel (Nat.two_pow_pos k)]
  have hlt : 2 ^ k - 1 < 2 ^ w :=
    (Nat.sub_lt (Nat.two_pow_pos k) one_pos).trans_le (Nat.pow_le_pow_right two_pos hk)
  refine Nat.eq_of_testBit_eq fun i => ?_
  rw [Nat.testBit_and, hmask, Nat.testBit_two_pow_sub_succ hlt, Nat.testBit_two_pow_sub_one,
    Nat.testBit_mul_two_pow, Nat.testBit_div_two_pow]
  rcases le_or_gt k i with hki | hik
  · by_cases hi : i < w
    · simp [hi, hki]
    · have hzero : n.testBit i = false :=
        Nat.testBit_lt_two_pow (hn.trans_le (Nat.pow_le_pow_right two_pos (not_lt.mp hi)))
      simp [hki, hzero]
  · simp [hik, hik.not_ge]

theorem contains_iff_mask {b : Block w} (hn : n < 2 ^ w) :
    b.Contains n ↔ n &&& (2 ^ w - 2 ^ (w - b.length)) = b.base := by
  obtain ⟨q, hq⟩ := b.aligned
  have hpos : 0 < 2 ^ (w - b.length) := Nat.two_pow_pos _
  unfold Block.Contains
  rw [and_mask hn (Nat.sub_le _ _), hq, Nat.mul_div_cancel_left q hpos, mul_comm _ q,
    Nat.mul_left_inj hpos.ne']

/-- The block of longer addresses that begin as the addresses of `b` do. -/
def Block.widen (b : Block w) (k : ℕ) : Block (w + k) where
  base := b.base * 2 ^ k
  length := b.length
  length_le := b.length_le.trans (Nat.le_add_right w k)
  aligned := by
    have hexp : w + k - b.length = w - b.length + k := by
      have := b.length_le
      omega
    rw [hexp, pow_add]
    exact Nat.mul_dvd_mul_right b.aligned _

theorem widen_contains {b : Block w} : (b.widen k).Contains n ↔ b.Contains (n / 2 ^ k) := by
  have hexp : w + k - b.length = k + (w - b.length) := by
    have := b.length_le
    omega
  unfold Block.Contains Block.widen
  rw [hexp, pow_add, ← Nat.div_div_eq_div_mul, ← Nat.div_div_eq_div_mul,
    Nat.mul_div_cancel _ (Nat.two_pow_pos k)]

end Protonet.Cidr
