import Mathlib

namespace Protonet.FixedWindows

variable {cap period start used now x y z : ℕ} {log : List ℕ}

/-- The grants in `[x, y)`. -/
def between (x y : ℕ) (log : List ℕ) : ℕ := log.countP fun t => x ≤ t ∧ t < y

def since (x : ℕ) (log : List ℕ) : ℕ := log.countP fun t => x ≤ t

theorem between_snoc :
    between x y (log ++ [now]) = between x y log + if x ≤ now ∧ now < y then 1 else 0 := by
  simp [between, List.countP_append, List.countP_singleton]

theorem since_snoc : since x (log ++ [now]) = since x log + if x ≤ now then 1 else 0 := by
  simp [since, List.countP_append, List.countP_singleton]

theorem between_le_since : between x y log ≤ since x log := by
  refine List.countP_mono_left fun t _ ht => ?_
  simp only [decide_eq_true_eq] at ht ⊢
  exact ht.1

theorem since_anti (h : x ≤ y) : since y log ≤ since x log := by
  refine List.countP_mono_left fun t _ ht => ?_
  simp only [decide_eq_true_eq] at ht ⊢
  exact h.trans ht

theorem between_le_add : between x y log ≤ between x z log + since z log := by
  induction log with
  | nil => exact le_rfl
  | cons t log ih =>
    unfold between since at ih ⊢
    simp only [List.countP_cons, decide_eq_true_eq]
    split_ifs <;> omega

theorem since_eq_zero (h : ∀ t ∈ log, t < x) : since x log = 0 := by
  refine List.countP_eq_zero.mpr fun t ht => ?_
  have := h t ht
  simpa using this

/-- The log of a counter whose current window began at `start` and has `used` grants so far. -/
structure Windowed (cap period : ℕ) (log : List ℕ) (start used : ℕ) : Prop where
  used_le : used ≤ cap
  ends : ∀ t ∈ log, t < start + period
  current : since start log = used
  before : ∀ x, start < x + period → between x start log ≤ cap
  interval : ∀ x, between x (x + period) log ≤ 2 * cap

theorem Windowed.new : Windowed cap period [] start 0 where
  used_le := Nat.zero_le _
  ends := by simp
  current := rfl
  before _ _ := Nat.zero_le _
  interval _ := Nat.zero_le _

theorem Windowed.restart (h : Windowed cap period log start used) (hnow : start + period ≤ now) :
    Windowed cap period log now 0 where
  used_le := Nat.zero_le _
  ends t ht := by
    have := h.ends t ht
    omega
  current := since_eq_zero fun t ht => (h.ends t ht).trans_le hnow
  before x hx := by
    -- what is left of an interval that reaches the new window lies in the one before it
    have hstart : start ≤ x := by omega
    calc between x now log
      _ ≤ since x log := between_le_since
      _ ≤ since start log := since_anti hstart
      _ = used := h.current
      _ ≤ cap := h.used_le
  interval := h.interval

theorem Windowed.grant (h : Windowed cap period log start used) (hfrom : start ≤ now)
    (hto : now < start + period) (hused : used < cap) :
    Windowed cap period (log ++ [now]) start (used + 1) where
  used_le := hused
  ends t ht := by
    rcases List.mem_append.mp ht with ht | ht
    · exact h.ends t ht
    · rwa [List.mem_singleton.mp ht]
  current := by rw [since_snoc, h.current, if_pos hfrom]
  before x hx := by
    rw [between_snoc, if_neg (by omega)]
    exact h.before x hx
  interval x := by
    rw [between_snoc]
    split_ifs with hin
    · rcases le_or_gt x start with hx | hx
      · have hold := h.before x (by omega)
        have hcut : between x (x + period) log ≤ between x start log + since start log :=
          between_le_add
        rw [h.current] at hcut
        omega
      · have hcut : between x (x + period) log ≤ since start log :=
          between_le_since.trans (since_anti hx.le)
        rw [h.current] at hcut
        omega
    · exact h.interval x

end Protonet.FixedWindows
