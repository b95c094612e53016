import Protonet.FixedWindows
import Protonet.RateLimit
import Protonet.StepRun

namespace Protonet.WindowGrants
open FixedWindows StepRun RateLimit

/-- The window a call falls into, before anything is taken from it. -/
def current (w : WindowCounter) (now : ℕ) : WindowCounter :=
  if now - w.start ≥ w.period then { w with start := now, used := 0 } else w

def next (w : WindowCounter) (now : ℕ) : WindowCounter := (w.take now).2

/-- The instants of the calls that return true. -/
def grants (w : WindowCounter) : List ℕ → List ℕ
  | [] => []
  | now :: calls =>
    if (w.take now).1 then now :: grants (next w now) calls else grants (next w now) calls

variable {w : WindowCounter} {limit period created clock now : ℕ} {log calls : List ℕ}

lemma take_full (h : (current w now).limit ≤ (current w now).used) :
    w.take now = (false, current w now) := if_pos h

lemma take_free (h : (current w now).used < (current w now).limit) :
    w.take now = (true, { current w now with used := (current w now).used + 1 }) :=
  if_neg (not_le.mpr h)

/-- A counter, the last instant it was asked at, and the grants it has made. -/
structure Counts (limit period clock : ℕ) (w : WindowCounter) (log : List ℕ) : Prop where
  limit_eq : w.limit = limit
  period_eq : w.period = period
  start_le : w.start ≤ clock
  windowed : Windowed limit period log w.start w.used

lemma counts_new : Counts limit period created (.new limit period created) [] :=
  ⟨rfl, rfl, le_rfl, .new⟩

lemma Counts.later (h : Counts limit period clock w log) (hle : clock ≤ now) :
    Counts limit period now w log := { h with start_le := h.start_le.trans hle }

lemma Counts.current (h : Counts limit period clock w log) (hle : clock ≤ now) :
    Counts limit period now (current w now) log := by
  unfold WindowGrants.current
  split_ifs with hout
  · have hstart := h.start_le
    rw [ge_iff_le, h.period_eq] at hout
    have hend : w.start + period ≤ now := by omega
    exact ⟨h.limit_eq, h.period_eq, le_rfl, h.windowed.restart hend⟩
  · exact h.later hle

lemma Counts.lt_current (h : Counts limit period clock w log) (hperiod : 0 < period) :
    now < (WindowGrants.current w now).start + period := by
  unfold WindowGrants.current
  split_ifs with hout
  · exact Nat.lt_add_of_pos_right hperiod
  · rw [ge_iff_le, h.period_eq] at hout
    omega

lemma Counts.take (h : Counts limit period clock w log) (hperiod : 0 < period)
    (hle : clock ≤ now) :
    Counts limit period now (next w now) (log ++ if (w.take now).1 then [now] else []) := by
  have hcurrent := h.current hle
  have hlt : now < (WindowGrants.current w now).start + period := h.lt_current hperiod
  unfold next
  rcases lt_or_ge (WindowGrants.current w now).used (WindowGrants.current w now).limit with
    hfree | hfull
  · rw [take_free hfree, if_pos rfl]
    rw [hcurrent.limit_eq] at hfree
    exact { hcurrent with windowed := hcurrent.windowed.grant hcurrent.start_le hlt hfree }
  · rw [take_full hfull, if_neg Bool.false_ne_true, List.append_nil]
    exact hcurrent

/-- A call that returns false found the window full. -/
lemma Counts.since_refused (h : Counts limit period clock w log) (hle : clock ≤ now)
    (hrefused : (w.take now).1 = false) : since (next w now).start log = limit := by
  have hcurrent := h.current hle
  unfold next
  rcases lt_or_ge (WindowGrants.current w now).used (WindowGrants.current w now).limit with
    hfree | hfull
  · rw [take_free hfree] at hrefused
    cases hrefused
  · rw [take_full hfull, hcurrent.windowed.current]
    rw [hcurrent.limit_eq] at hfull
    exact le_antisymm hcurrent.windowed.used_le hfull

/-- Calls at non-decreasing instants, none after `now`. -/
lemma Counts.run (h : Counts limit period clock w log) (hperiod : 0 < period)
    (hsorted : (clock :: calls).Pairwise (· ≤ ·)) (hnow : ∀ t ∈ clock :: calls, t ≤ now) :
    Counts limit period now (run next w calls) (log ++ grants w calls) := by
  induction calls generalizing clock w log with
  | nil =>
    rw [grants, List.append_nil]
    exact h.later (hnow clock List.mem_cons_self)
  | cons t calls ih =>
    have ht : clock ≤ t := List.rel_of_pairwise_cons hsorted List.mem_cons_self
    have hrest := ih (h.take hperiod ht) hsorted.of_cons fun u hu =>
      hnow u (List.mem_cons_of_mem _ hu)
    rw [run_cons, grants]
    rw [List.append_assoc] at hrest
    split_ifs at hrest ⊢ with hgranted
    · exact hrest
    · exact hrest

/-- Whatever the limit and the period, at non-decreasing instants a counter grants at most twice
its limit in any interval of one period; and it refuses a call only when exactly its limit has
been granted since the start of the window the call falls into. -/
theorem window_grants (limit period created : ℕ) (calls : List ℕ) (hperiod : 0 < period)
    (hsorted : calls.Pairwise (· ≤ ·)) (hcreated : ∀ t ∈ calls, created ≤ t) :
    (∀ x, between x (x + period) (grants (.new limit period created) calls) ≤ 2 * limit) ∧
      ∀ earlier now later, calls = earlier ++ now :: later →
        ((run next (.new limit period created) earlier).take now).1 = false →
          since ((run next (.new limit period created) earlier).take now).2.start
            (grants (.new limit period created) earlier) = limit := by
  have hordered : (created :: calls).Pairwise (· ≤ ·) := List.pairwise_cons.mpr ⟨hcreated, hsorted⟩
  constructor
  · obtain ⟨now, hnow⟩ : ∃ now, ∀ t ∈ created :: calls, t ≤ now :=
      ⟨(created :: calls).sum, fun t ht => List.single_le_sum (by simp) t ht⟩
    exact (counts_new.run hperiod hordered hnow).windowed.interval
  · rintro earlier now later rfl hrefused
    rw [← List.cons_append, List.pairwise_append] at hordered
    have hbefore : Counts limit period now (run next (.new limit period created) earlier)
        (grants (.new limit period created) earlier) :=
      counts_new.run hperiod hordered.1 fun t ht => hordered.2.2 t ht now List.mem_cons_self
    exact hbefore.since_refused le_rfl hrefused

/-- Two calls a window: the last two of one and the first two of the next are all granted. -/
def sampleCalls : List ℕ := [8, 9, 9, 10, 11, 12]

/-- The bound of the interval is met, and the third call finds its window full. -/
theorem sampleCalls_grants :
    (between 8 18 (grants (.new 2 10 0) sampleCalls) = 4 ∧
      ∀ x, between x (x + 10) (grants (.new 2 10 0) sampleCalls) ≤ 2 * 2) ∧
    since ((run next (.new 2 10 0) [8, 9]).take 9).2.start (grants (.new 2 10 0) [8, 9]) = 2 := by
  obtain ⟨hinterval, hrefused⟩ :=
    window_grants 2 10 0 sampleCalls (by decide) (by decide) (by decide)
  exact ⟨⟨by decide, hinterval⟩, hrefused [8, 9] 9 [10, 11, 12] rfl (by decide)⟩

end Protonet.WindowGrants
