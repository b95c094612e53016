import Mathlib

/-!
# Runs of a deterministic step function

`Along step P s es` says that `P` holds of every state and event a run meets, in order. Invariant
rules turn facts about one step into facts about every step of every run.
-/
namespace Protonet.StepRun

variable {σ ε : Type*} (step : σ → ε → σ)

/-- The state after a list of events. -/
def run (s : σ) (es : List ε) : σ := es.foldl step s

/-- `P` holds at each step of the run, of the state before the event and the event itself. -/
def Along (P : σ → ε → Prop) : σ → List ε → Prop
  | _, [] => True
  | s, e :: es => P s e ∧ Along P (step s e) es

instance Along.decidable {P : σ → ε → Prop} [∀ s e, Decidable (P s e)] :
    ∀ s es, Decidable (Along step P s es)
  | _, [] => .isTrue trivial
  | s, e :: es => @instDecidableAnd _ _ _ (Along.decidable (step s e) es)

variable {step} {P Q C : σ → ε → Prop} {s : σ} {es : List ε}

@[simp] theorem run_nil (s : σ) : run step s [] = s := rfl

@[simp] theorem run_cons (s : σ) (e : ε) (es : List ε) :
    run step s (e :: es) = run step (step s e) es := rfl

theorem run_append (s : σ) (xs ys : List ε) :
    run step s (xs ++ ys) = run step (run step s xs) ys := List.foldl_append

@[simp] theorem along_nil : Along step P s [] := trivial

@[simp] theorem along_cons {e : ε} : Along step P s (e :: es) ↔ P s e ∧ Along step P (step s e) es :=
  Iff.rfl

/-- The same statement by positions: `P` at the state every prefix reaches. -/
theorem along_iff : Along step P s es ↔
    ∀ xs e ys, es = xs ++ e :: ys → P (run step s xs) e := by
  induction es generalizing s with
  | nil => simp
  | cons e es ih =>
    rw [along_cons, ih]
    constructor
    · rintro ⟨he, h⟩ xs d ys heq
      cases xs with
      | nil =>
        obtain ⟨rfl, rfl⟩ := List.cons.inj heq
        exact he
      | cons x xs =>
        obtain ⟨rfl, rfl⟩ := List.cons.inj heq
        exact h xs d ys rfl
    · intro h
      exact ⟨h [] e es rfl, fun xs d ys heq => h (e :: xs) d ys (by simp [heq])⟩

theorem Along.mono (h : Along step P s es) (hPQ : ∀ s e, P s e → Q s e) : Along step Q s es := by
  induction es generalizing s with
  | nil => trivial
  | cons e es ih => exact ⟨hPQ s e h.1, ih h.2⟩

theorem along_congr (h : ∀ s e, P s e ↔ Q s e) : Along step P s es ↔ Along step Q s es :=
  ⟨fun hp => hp.mono fun s e => (h s e).mp, fun hq => hq.mono fun s e => (h s e).mpr⟩

theorem Along.and (h : Along step P s es) (g : Along step Q s es) :
    Along step (fun s e => P s e ∧ Q s e) s es := by
  induction es generalizing s with
  | nil => trivial
  | cons e es ih => exact ⟨⟨h.1, g.1⟩, ih h.2 g.2⟩

/-- An invariant that each step preserves under the step's condition holds at the end of every
run whose steps meet the condition. -/
theorem run_invariant {I : σ → Prop} (h₀ : I s) (hC : Along step C s es)
    (hstep : ∀ s e, I s → C s e → I (step s e)) : I (run step s es) := by
  induction es generalizing s with
  | nil => exact h₀
  | cons e es ih => exact ih (hstep s e h₀ hC.1) hC.2

/-- Under an invariant, a property of single steps holds along the run. -/
theorem along_of_invariant {I : σ → Prop} (h₀ : I s) (hC : Along step C s es)
    (hstep : ∀ s e, I s → C s e → I (step s e)) (hP : ∀ s e, I s → C s e → P s e) :
    Along step P s es := by
  induction es generalizing s with
  | nil => trivial
  | cons e es ih => exact ⟨hP s e h₀ hC.1, ih (hstep s e h₀ hC.1) hC.2⟩

/-- In a run whose steps keep a promise `B`, where the condition and the property agree at every
state of the invariant, they agree along the run, although only steps that meet the condition
keep the invariant. -/
theorem along_iff_of_invariant {I : σ → Prop} {B : σ → ε → Prop} (h₀ : I s)
    (hB : Along step B s es) (hstep : ∀ s e, I s → B s e → C s e → I (step s e))
    (hP : ∀ s e, I s → B s e → (P s e ↔ C s e)) : Along step P s es ↔ Along step C s es := by
  induction es generalizing s with
  | nil => simp
  | cons e es ih =>
    rw [along_cons, along_cons, hP s e h₀ hB.1]
    constructor
    · rintro ⟨hc, h⟩
      exact ⟨hc, (ih (hstep s e h₀ hB.1 hc) hB.2).mp h⟩
    · rintro ⟨hc, h⟩
      exact ⟨hc, (ih (hstep s e h₀ hB.1 hc) hB.2).mpr h⟩

theorem along_congr_of {B : σ → ε → Prop} (hB : Along step B s es)
    (h : ∀ s e, B s e → (P s e ↔ Q s e)) : Along step P s es ↔ Along step Q s es :=
  along_iff_of_invariant (I := fun _ => True) trivial hB (fun _ _ _ _ _ => trivial)
    fun s e _ => h s e

theorem along_append {xs ys : List ε} :
    Along step P s (xs ++ ys) ↔ Along step P s xs ∧ Along step P (run step s xs) ys := by
  induction xs generalizing s with
  | nil => simp
  | cons x xs ih => simp [ih, and_assoc]

theorem along_of_forall (h : ∀ s e, P s e) : Along step P s es := by
  induction es generalizing s with
  | nil => trivial
  | cons e es ih => exact ⟨h s e, ih⟩

theorem along_forall {R : ε → Prop} : Along step (fun _ e => R e) s es ↔ ∀ e ∈ es, R e := by
  induction es generalizing s with
  | nil => simp
  | cons e es ih => rw [along_cons, ih, List.forall_mem_cons]

/-- A measure that no step raises and some kind of step lowers bounds how many steps of that kind
a run has. -/
theorem countP_add_le {μ : σ → ℕ} {p : ε → Bool} (hle : Along step (fun s e => μ (step s e) ≤ μ s) s es)
    (hlt : Along step (fun s e => p e = true → μ (step s e) < μ s) s es) :
    es.countP p + μ (run step s es) ≤ μ s := by
  induction es generalizing s with
  | nil => simp
  | cons e es ih =>
    have hrest := ih hle.2 hlt.2
    rw [List.countP_cons, run_cons]
    by_cases he : p e = true
    · have hlower := hlt.1 he
      rw [if_pos he]
      omega
    · have hkept := hle.1
      rw [if_neg he]
      omega

/-- What begins at some steps and lasts until others end it: it holds after a run if it began in
the run, or held before it, and was not ended since. -/
theorem since_iff {P : σ → Prop} {begins ends : σ → ε → Prop}
    (hstep : Along step (fun s e => P (step s e) ↔ begins s e ∨ P s ∧ ¬ends s e) s es) :
    P (run step s es) ↔
      (∃ xs e ys, es = xs ++ e :: ys ∧ begins (run step s xs) e ∧
        Along step (fun s e => ¬ends s e) (step (run step s xs) e) ys) ∨
      P s ∧ Along step (fun s e => ¬ends s e) s es := by
  induction es generalizing s with
  | nil => simp
  | cons e es ih =>
    obtain ⟨hone, hstep⟩ := along_cons.mp hstep
    rw [run_cons, ih hstep, hone, along_cons]
    constructor
    · rintro (⟨xs, d, ys, rfl, hd, hys⟩ | ⟨hbegins | ⟨hp, he⟩, hes⟩)
      · exact .inl ⟨e :: xs, d, ys, rfl, hd, hys⟩
      · exact .inl ⟨[], e, es, rfl, hbegins, hes⟩
      · exact .inr ⟨hp, he, hes⟩
    · rintro (⟨xs, d, ys, heq, hd, hys⟩ | ⟨hp, he, hes⟩)
      · cases xs with
        | nil =>
          obtain ⟨rfl, rfl⟩ := List.cons.inj heq
          exact .inr ⟨.inl hd, hys⟩
        | cons x xs =>
          obtain ⟨rfl, rfl⟩ := List.cons.inj heq
          exact .inl ⟨xs, d, ys, rfl, hd, hys⟩
      · exact .inr ⟨.inr ⟨hp, he⟩, hes⟩

/-- What the steps of a run bring out, in order. -/
def collected {β : Type*} (step : σ → ε → σ) (out : σ → ε → List β) : σ → List ε → List β
  | _, [] => []
  | s, e :: es => out s e ++ collected step out (step s e) es

end Protonet.StepRun
