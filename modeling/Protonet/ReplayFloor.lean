import Protonet.Replay
import Protonet.StepRun

namespace Protonet.ReplayFloor
open Lru MachineInt Record Replay StepRun

inductive ReplayOp
  | accept (recordId : RecordId) (origin : PeerId) (sequence : UInt64) (now : ℕ)
  | markPending (recordId : RecordId) (now : ℕ)
  | forget (recordId : RecordId)
  | check (recordId : RecordId) (origin : PeerId) (sequence : UInt64) (now : ℕ)

def apply (s : ReplayState) : ReplayOp → ReplayState
  | .accept id o q now => s.accept id o q now
  | .markPending id now => s.markPending id now
  | .forget id => s.forget id
  | .check id o q now => (s.check id o q now).2

/-- `s + W ≤ h` in unbounded arithmetic. -/
def Below (W q h : UInt64) : Prop := q.toNat + W.toNat ≤ h.toNat

def acceptedSequence (o : PeerId) : ReplayOp → Option UInt64
  | .accept _ o' q _ => if o' = o then some q else none
  | _ => none

def loadedSequence (o : PeerId) (row : PeerId × UInt64) : Option UInt64 :=
  if row.1 = o then some row.2 else none

/-- Every sequence number that was loaded or accepted for an origin. -/
def met (rows : List (PeerId × UInt64)) (ops : List ReplayOp) (o : PeerId) : List UInt64 :=
  rows.filterMap (loadedSequence o) ++ ops.filterMap (acceptedSequence o)

/-- An accept that opens a window for its origin leaves no gap between the window and the
persistent highest sequence: whatever lies a window below the latter, other than the accepted
number itself, lies a window below the accepted number too. -/
def LeavesNoGap (s : ReplayState) : ReplayOp → Prop
  | .accept _ o q _ => s.origins.peek o = none → ∀ h ∈ s.persistentHighest.lookup o, ∀ q' ≠ q,
      Below s.sequenceWindow q' h → Below s.sequenceWindow q' q
  | _ => True

/-- Open windows refuse whatever lies a window below the persistent highest sequence. -/
def FloorHeld (s : ReplayState) : Prop :=
  ∀ o w, s.origins.peek o = some w → ∀ h ∈ s.persistentHighest.lookup o, ∀ q,
    Below s.sequenceWindow q h → q ∈ w.accepted ∨ Below s.sequenceWindow q w.highest

lemma accept_highest (w : OriginWindow) (q W : UInt64) :
    (w.accept q W).highest = max w.highest q := rfl

/-- Pruning only removes what the raised highest sequence refuses by itself. -/
lemma accept_keeps {w : OriginWindow} {q W q' : UInt64}
    (h : q' = q ∨ q' ∈ w.accepted ∨ Below W q' (max w.highest q)) :
    q' ∈ (w.accept q W).accepted ∨ Below W q' (w.accept q W).highest := by
  by_cases hb : Below W q' (max w.highest q)
  · exact .inr hb
  · left
    have hfloor : saturatingSub (max w.highest q) W ≤ q' := by
      rw [UInt64.le_iff_toNat_le, saturatingSub_toNat]
      unfold Below at hb
      omega
    rcases h with rfl | hm | hb'
    · simpa [OriginWindow.accept] using hfloor
    · simpa [OriginWindow.accept, hm] using hfloor
    · exact absurd hb' hb

lemma below_max {W q x y : UInt64} : Below W q (max x y) ↔ Below W q x ∨ Below W q y := by
  simp only [Below, max_toNat, le_max_iff]

lemma floorHeld_accept {s : ReplayState} (h : FloorHeld s) {id : RecordId} {o : PeerId}
    {q : UInt64} {now : ℕ} (hgap : LeavesNoGap s (.accept id o q now)) :
    FloorHeld (s.accept id o q now) := by
  intro o' w hw H hH q' hq'
  by_cases ho : o' = o
  · subst ho
    simp only [ReplayState.accept, LruCache.peek_put_self, Option.some.injEq] at hw
    simp only [ReplayState.accept, AList.lookup_insert, Option.mem_some_iff] at hH
    subst hw hH
    apply accept_keeps
    rcases hp : s.origins.peek o' with _ | w₀
    · -- a window opened afresh
      by_cases heq : q' = q
      · exact .inl heq
      · refine .inr (.inr (below_max.mpr (.inr ?_)))
        rcases hl : s.persistentHighest.lookup o' with _ | h₀
        · rw [hl] at hq'
          exact hq'
        · rw [hl] at hq'
          rcases below_max.mp hq' with hb | hb
          · exact hgap hp h₀ hl q' heq hb
          · exact hb
    · right
      rcases hl : s.persistentHighest.lookup o' with _ | h₀
      · rw [hl] at hq'
        exact .inr (below_max.mpr (.inr hq'))
      · rw [hl] at hq'
        rcases below_max.mp hq' with hb | hb
        · rcases h o' w₀ hp h₀ hl q' hb with hm | hb'
          · exact .inl hm
          · exact .inr (below_max.mpr (.inl hb'))
        · exact .inr (below_max.mpr (.inr hb))
  · have hw' : s.origins.peek o' = some w := LruCache.peek_of_peek_put ho hw
    have hH' : H ∈ s.persistentHighest.lookup o' := by
      simpa only [ReplayState.accept, AList.lookup_insert_ne ho] using hH
    exact h o' w hw' H hH' q' hq'

lemma floorHeld_apply {s : ReplayState} (h : FloorHeld s) {op : ReplayOp}
    (hgap : LeavesNoGap s op) : FloorHeld (apply s op) := by
  cases op with
  | accept id o q now => exact floorHeld_accept h hgap
  | markPending id now => exact h
  | forget id => exact h
  | check id o q now =>
    obtain ⟨hp, -, hW, -, ho, -⟩ := check_frame s id o q now
    intro o' w hw H hH q' hq'
    simp only [apply, hp, hW, ho] at hw hH hq' ⊢
    exact h o' w hw H hH q' hq'

lemma lookup_load (rows : List (PeerId × UInt64)) (m : AList fun _ : PeerId => UInt64)
    (hrows : (rows.map Prod.fst).Nodup) (o : PeerId) :
    (rows.foldl (fun m row => m.insert row.1 row.2) m).lookup o =
      ((rows.filterMap (loadedSequence o)).head?).or (m.lookup o) := by
  induction rows generalizing m with
  | nil => simp
  | cons row rows ih =>
    rw [List.map_cons, List.nodup_cons] at hrows
    rw [List.foldl_cons, ih _ hrows.2]
    by_cases ho : row.1 = o
    · have hnone : rows.filterMap (loadedSequence o) = [] := by
        rw [List.filterMap_eq_nil_iff]
        intro r hr
        have hne : r.1 ≠ o := fun h => hrows.1 (by rw [ho, ← h]; exact List.mem_map_of_mem hr)
        simp [loadedSequence, hne]
      simp [loadedSequence, ho, hnone]
    · simp [loadedSequence, ho, AList.lookup_insert_ne (Ne.symm ho)]

lemma met_le_highest {s : ReplayState} {rows : List (PeerId × UInt64)} {ids : List RecordId}
    (hrows : (rows.map Prod.fst).Nodup) (ops : List ReplayOp) {o : PeerId} {h : UInt64}
    (hm : h ∈ met rows ops o) :
    ∃ H ∈ (run apply (s.loadPersistentState rows ids) ops).persistentHighest.lookup o, h ≤ H := by
  induction ops using List.reverseRecOn generalizing h with
  | nil =>
    have hm' : h ∈ rows.filterMap (loadedSequence o) := by simpa [met] using hm
    have hlook := lookup_load rows ∅ hrows o
    obtain ⟨row, hrow, hr⟩ := List.mem_filterMap.mp hm'
    have hall : ∀ x ∈ rows.filterMap (loadedSequence o), x = h := by
      intro x hx
      obtain ⟨row', hrow', hr'⟩ := List.mem_filterMap.mp hx
      simp only [loadedSequence, Option.ite_none_right_eq_some, Option.some.injEq] at hr hr'
      have heq := List.inj_on_of_nodup_map hrows hrow hrow' (hr.1.trans hr'.1.symm)
      rw [← hr.2, ← hr'.2, heq]
    rcases hl : rows.filterMap (loadedSequence o) with _ | ⟨x, xs⟩
    · simp [hl] at hm'
    · have hx := hall x (by simp [hl])
      refine ⟨h, ?_, UInt64.le_refl h⟩
      simpa [ReplayState.loadPersistentState, hl, hx] using hlook
  | append_singleton ops op ih =>
    rw [run_append, run_cons, run_nil]
    have hcases : h ∈ met rows ops o ∨ acceptedSequence o op = some h := by
      simpa [met, or_assoc, List.filterMap_append] using hm
    cases op with
    | accept id o' q now =>
      simp only [apply, ReplayState.accept]
      by_cases ho : o' = o
      · subst ho
        simp only [AList.lookup_insert, Option.mem_some_iff, exists_eq_left']
        rcases hcases with hm | hq
        · obtain ⟨H, hH, hle⟩ := ih hm
          rw [Option.mem_def] at hH
          simp only [hH]
          exact UInt64.le_trans hle (MachineInt.le_max_left _ _)
        · simp only [acceptedSequence, if_true, Option.some.injEq] at hq
          subst hq
          split
          · exact MachineInt.le_max_right _ _
          · exact UInt64.le_refl _
      · rw [AList.lookup_insert_ne (Ne.symm ho)]
        rcases hcases with hm | hq
        · exact ih hm
        · simp [acceptedSequence, ho] at hq
    | markPending id now => exact ih (by simpa [acceptedSequence] using hcases)
    | forget id => exact ih (by simpa [acceptedSequence] using hcases)
    | check id o' q now =>
      have hp := (check_frame (run apply (s.loadPersistentState rows ids) ops) id o' q now).1
      rw [apply, hp]
      exact ih (by simpa [acceptedSequence] using hcases)

lemma run_sequenceWindow (s : ReplayState) (ops : List ReplayOp) :
    (run apply s ops).sequenceWindow = s.sequenceWindow := by
  induction ops generalizing s with
  | nil => rfl
  | cons op ops ih =>
    rw [run_cons, ih]
    cases op with
    | accept id o q now => rfl
    | markPending id now => rfl
    | forget id => rfl
    | check id o q now => exact (check_frame s id o q now).2.2.1

/-- A state as it stands after a start: limits, then one load. -/
def started (records ttl origins : ℕ) (W : UInt64) (rows : List (PeerId × UInt64))
    (ids : List RecordId) : ReplayState :=
  (ReplayState.withLimits records ttl origins W).loadPersistentState rows ids

/-- As long as no accept opens a window with a gap under the persistent highest sequence, nothing
a whole window below a number loaded or accepted for its origin is ever new. -/
theorem floor_never_back {records ttl origins : ℕ} {W : UInt64}
    {rows : List (PeerId × UInt64)} {ids : List RecordId} {ops : List ReplayOp}
    (hrows : (rows.map Prod.fst).Nodup)
    (hops : Along apply LeavesNoGap (started records ttl origins W rows ids) ops)
    {o : PeerId} {h q : UInt64} (hm : h ∈ met rows ops o) (hq : q.toNat + W.toNat ≤ h.toNat)
    (id : RecordId) (now : ℕ) :
    ((run apply (started records ttl origins W rows ids) ops).check id o q now).1 ≠ .new := by
  have hstart : FloorHeld (started records ttl origins W rows ids) := by
    intro o' w hw
    simp [started, ReplayState.loadPersistentState, ReplayState.withLimits] at hw
  have hheld := run_invariant hstart hops fun _ _ h hC => floorHeld_apply h hC
  have hW := run_sequenceWindow (started records ttl origins W rows ids) ops
  obtain ⟨H, hH, hle⟩ := @met_le_highest (.withLimits records ttl origins W) rows ids hrows ops
    o h hm
  have hbelow : q.toNat + W.toNat ≤ H.toNat := hq.trans (UInt64.le_iff_toNat_le.mp hle)
  intro hnew
  obtain ⟨-, -, hadm⟩ := check_new_iff.mp hnew
  unfold ReplayState.OriginAdmits at hadm
  rw [hW] at hadm
  rcases hp : (run apply (started records ttl origins W rows ids) ops).origins.peek o with _ | w
  · rw [hp] at hadm
    exact absurd (saturatingAdd_le_of_le hbelow) (UInt64.not_le.mpr (hadm H hH))
  · rw [hp] at hadm
    rcases hheld o w hp H hH q (by rw [hW]; exact hbelow) with hm | hb
    · exact hadm.1 hm
    · rw [hW] at hb
      exact absurd (saturatingAdd_le_of_le hb) (UInt64.not_le.mpr hadm.2)

def sampleOrigin : PeerId := ⟨[1]⟩

def sampleId (b : UInt8) : RecordId := ⟨List.replicate 32 b, by simp⟩

theorem floor_never_back_sample :
    ((run apply (started 4 10 2 10 [(sampleOrigin, 1000)] [])
      [.accept (sampleId 1) sampleOrigin 1000 0]).check (sampleId 2) sampleOrigin 6 0).1 ≠ .new := by
  refine floor_never_back (by decide) (along_cons.mpr ⟨?_, along_nil⟩) (h := 1000) (by decide)
    (by decide) (sampleId 2) 0
  intro _ h hh q' _ hb
  have hlook : (1000 : UInt64) = h := by
    have hh' : (AList.singleton sampleOrigin 1000 : AList fun _ => UInt64).lookup sampleOrigin =
        some h := hh
    simpa [AList.lookup, AList.singleton] using hh'
  rwa [← hlook] at hb

/-- A restart that replays one old record opens a window far below the loaded floor. -/
theorem floor_falls_back : (1000 : UInt64) ∈
      met [(sampleOrigin, 1000)] [.accept (sampleId 1) sampleOrigin 5 0] sampleOrigin ∧
    (6 : UInt64).toNat + (10 : UInt64).toNat ≤ (1000 : UInt64).toNat ∧
    ((run apply (started 4 10 2 10 [(sampleOrigin, 1000)] [])
      [.accept (sampleId 1) sampleOrigin 5 0]).check (sampleId 2) sampleOrigin 6 0).1 = .new := by
  refine ⟨by decide, by decide, ?_⟩
  decide +kernel

/-- An accept that leaves a gap lets some number below the floor through, for every id the caches
do not know. -/
theorem gap_reopens {s : ReplayState} {id : RecordId} {o : PeerId} {q : UInt64} {now : ℕ}
    (hgap : ¬ LeavesNoGap s (.accept id o q now)) :
    ∃ h ∈ s.persistentHighest.lookup o, ∃ q', Below s.sequenceWindow q' h ∧ ∀ id' now',
      (s.accept id o q now).recentlySeen.peek id' = none →
      (s.accept id o q now).activeRecords.contains id' = false →
      ((s.accept id o q now).check id' o q' now').1 = .new := by
  simp only [LeavesNoGap, not_forall] at hgap
  obtain ⟨hnone, h, hh, q', hne, hb, hnb⟩ := hgap
  refine ⟨h, hh, q', hb, fun id' now' hseen hfilter => check_new_iff.mpr ⟨by simp [hseen],
    hfilter, ?_⟩⟩
  have hw : (s.accept id o q now).origins.peek o =
      some (OriginWindow.accept ⟨q, ∅⟩ q s.sequenceWindow) := by
    simp [ReplayState.accept, hnone]
  unfold ReplayState.OriginAdmits
  rw [hw]
  refine ⟨by simp [OriginWindow.accept, hne], ?_⟩
  have hlt := h.toNat_lt
  rw [UInt64.lt_iff_toNat_lt, saturatingAdd_toNat, accept_highest, max_toNat, max_self]
  change q.toNat < min (q'.toNat + s.sequenceWindow.toNat) _
  unfold Below at hb hnb
  omega

end Protonet.ReplayFloor
