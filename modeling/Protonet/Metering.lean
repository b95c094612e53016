import Mathlib

namespace Protonet.Metering

variable {𝕜 : Type*} [Field 𝕜] {log : List (ℕ × 𝕜)} {amount : 𝕜} {now : ℕ} {P Q : ℕ → Prop}
  [DecidablePred P] [DecidablePred Q]

def spent (P : ℕ → Prop) [DecidablePred P] (log : List (ℕ × 𝕜)) : 𝕜 :=
  ((log.filter fun e => P e.1).map Prod.snd).sum

@[simp] theorem spent_nil : spent P ([] : List (ℕ × 𝕜)) = 0 := rfl

theorem spent_snoc :
    spent P (log ++ [(now, amount)]) = spent P log + if P now then amount else 0 := by
  unfold spent
  rw [List.filter_append, List.map_append, List.sum_append]
  by_cases h : P now
  · simp [h]
  · simp [h]

variable [LinearOrder 𝕜] {cap rate level level' : 𝕜} {clock : ℕ}

/-- The log of a meter with the given capacity and rate, its level and the instant it was read. -/
structure Metered (cap rate : 𝕜) (log : List (ℕ × 𝕜)) (level : 𝕜) (clock : ℕ) : Prop where
  amounts : ∀ e ∈ log, 0 ≤ e.2
  nonneg : 0 ≤ level
  le_cap : level ≤ cap
  past : ∀ t, clock < t → spent (t ≤ ·) log = 0
  since : ∀ t ≤ clock, spent (t ≤ ·) log + level ≤ cap + (clock - t : ℕ) * rate
  between : ∀ t t', t ≤ t' →
    spent (fun n => t ≤ n ∧ n ≤ t') log ≤ cap + (t' - t : ℕ) * rate

theorem Metered.idle (h : Metered cap rate log level clock) :
    Metered cap rate (log ++ [(now, 0)]) level clock where
  amounts e he := by
    rcases List.mem_append.mp he with he | he
    · exact h.amounts e he
    · rw [List.mem_singleton.mp he]
  nonneg := h.nonneg
  le_cap := h.le_cap
  past t ht := by
    rw [spent_snoc, ite_self, add_zero]
    exact h.past t ht
  since t ht := by
    rw [spent_snoc, ite_self, add_zero]
    exact h.since t ht
  between t t' ht := by
    rw [spent_snoc, ite_self, add_zero]
    exact h.between t t' ht

variable [IsStrictOrderedRing 𝕜]

theorem spent_mono (h : ∀ e ∈ log, 0 ≤ e.2) (hPQ : ∀ n, P n → Q n) : spent P log ≤ spent Q log := by
  induction log with
  | nil => exact le_rfl
  | cons e log ih =>
    have htail := ih fun e' he' => h e' (List.mem_cons_of_mem _ he')
    have hhead := h e List.mem_cons_self
    unfold spent at htail ⊢
    by_cases hP : P e.1
    · simpa [List.filter_cons, hP, hPQ _ hP] using htail
    · by_cases hQ : Q e.1
      · simp only [List.filter_cons, hP, hQ, decide_true, decide_false, Bool.false_eq_true,
          if_true, if_false, List.map_cons, List.sum_cons]
        exact htail.trans (le_add_of_nonneg_left hhead)
      · simpa [List.filter_cons, hP, hQ] using htail

theorem Metered.start (hcap : 0 ≤ cap) (hrate : 0 ≤ rate) : Metered cap rate [] cap now where
  amounts := nofun
  nonneg := hcap
  le_cap := le_rfl
  past _ _ := rfl
  since t _ := by
    rw [spent_nil, zero_add]
    exact le_add_of_nonneg_right (mul_nonneg (Nat.cast_nonneg _) hrate)
  between t t' _ := by
    rw [spent_nil]
    exact add_nonneg hcap (mul_nonneg (Nat.cast_nonneg _) hrate)

theorem Metered.spend (h : Metered cap rate log level clock) (hrate : 0 ≤ rate)
    (hclock : clock ≤ now) (hamount : 0 ≤ amount) (hlevel : 0 ≤ level')
    (heq : level' + amount = min (level + (now - clock : ℕ) * rate) cap) :
    Metered cap rate (log ++ [(now, amount)]) level' now := by
  have hamounts : ∀ e ∈ log ++ [(now, amount)], 0 ≤ e.2 := by
    intro e he
    rcases List.mem_append.mp he with he | he
    · exact h.amounts e he
    · rwa [List.mem_singleton.mp he]
  have hcap : level' + amount ≤ cap := heq.trans_le (min_le_right ..)
  have hsince : ∀ t ≤ now, spent (t ≤ ·) (log ++ [(now, amount)]) + level' ≤
      cap + (now - t : ℕ) * rate := by
    intro t ht
    rw [spent_snoc, if_pos ht]
    by_cases hold : t ≤ clock
    · have hflow := h.since t hold
      have hin : level' + amount ≤ level + (now - clock : ℕ) * rate :=
        heq.trans_le (min_le_left ..)
      have hsplit : ((now - t : ℕ) : 𝕜) = (now - clock : ℕ) + (clock - t : ℕ) := by
        rw [← Nat.cast_add, Nat.sub_add_sub_cancel hclock hold]
      rw [hsplit, add_mul]
      linarith
    · rw [h.past t (not_le.mp hold)]
      have hflow : 0 ≤ ((now - t : ℕ) : 𝕜) * rate := mul_nonneg (Nat.cast_nonneg _) hrate
      linarith
  refine ⟨hamounts, hlevel, (le_add_of_nonneg_right hamount).trans hcap, ?_, hsince, ?_⟩
  · intro t ht
    rw [spent_snoc, if_neg (not_le.mpr ht), add_zero]
    exact h.past t (hclock.trans_lt ht)
  · intro t t' ht
    by_cases hin : t ≤ now ∧ now ≤ t'
    · have hall : spent (fun n => t ≤ n ∧ n ≤ t') (log ++ [(now, amount)]) ≤
          spent (t ≤ ·) (log ++ [(now, amount)]) := spent_mono hamounts fun n hn => hn.1
      have hflow : ((now - t : ℕ) : 𝕜) * rate ≤ (t' - t : ℕ) * rate :=
        mul_le_mul_of_nonneg_right (Nat.cast_le.mpr (Nat.sub_le_sub_right hin.2 t)) hrate
      have hnow := hsince t hin.1
      linarith
    · rw [spent_snoc, if_neg hin, add_zero]
      exact h.between t t' ht

def flow (cap rate level : 𝕜) (time : ℕ) : 𝕜 := min (level + time * rate) cap

variable {m n : ℕ}

omit [IsStrictOrderedRing 𝕜] in
theorem flow_zero (h : level ≤ cap) : flow cap rate level 0 = level := by
  unfold flow
  rw [Nat.cast_zero, zero_mul, add_zero, min_eq_left h]

theorem flow_nonneg (hcap : 0 ≤ cap) (hrate : 0 ≤ rate) (hlevel : 0 ≤ level) :
    0 ≤ flow cap rate level n :=
  le_min (add_nonneg hlevel (mul_nonneg (Nat.cast_nonneg _) hrate)) hcap

theorem flow_flow (hrate : 0 ≤ rate) :
    flow cap rate (flow cap rate level m) n = flow cap rate level (m + n) := by
  have hin : 0 ≤ (n : 𝕜) * rate := mul_nonneg (Nat.cast_nonneg _) hrate
  unfold flow
  rw [Nat.cast_add, add_mul, ← add_assoc]
  rcases le_total (level + m * rate) cap with hle | hle
  · rw [min_eq_left hle]
  · rw [min_eq_right hle, min_eq_right (le_add_of_nonneg_right hin),
      min_eq_right (hle.trans (le_add_of_nonneg_right hin))]

theorem flow_mono (h : level ≤ level') : flow cap rate level n ≤ flow cap rate level' n := by
  unfold flow
  exact min_le_min_right cap (add_le_add_left h _)

/-- A lead is kept as long as the one behind has room for it. -/
theorem flow_lead (h : level + amount ≤ level') (hroom : flow cap rate level n + amount ≤ cap) :
    flow cap rate level n + amount ≤ flow cap rate level' n := by
  unfold flow at hroom ⊢
  have hleft : min (level + n * rate) cap + amount ≤ level' + n * rate := by
    have hmin : min (level + n * rate) cap ≤ level + n * rate := min_le_left ..
    linarith
  exact le_min hleft hroom

end Protonet.Metering
