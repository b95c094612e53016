import Protonet.Ingestion
import Protonet.ReplayFloor

namespace Protonet.ReplayMemory
open Lru Record Replay StepRun ReplayFloor Ingestion

/-- A call on the replay state, loading included. -/
inductive Call
  | load (origins : List (PeerId × UInt64)) (activeIds : List RecordId)
  | op (op : ReplayOp)

def step (s : ReplayState) : Call → ReplayState
  | .load origins activeIds => s.loadPersistentState origins activeIds
  | .op op => apply s op

def Call.ids : Call → List RecordId
  | .load _ activeIds => activeIds
  | .op (.accept id _ _ _) => [id]
  | .op _ => []

def Known (calls : List Call) (id : RecordId) : Prop := id ∈ calls.flatMap Call.ids

/-- The id was marked pending at the given instant and not forgotten since. -/
def PendingSince (calls : List Call) (id : RecordId) (t : ℕ) : Prop :=
  ∃ xs ys, calls = xs ++ .op (.markPending id t) :: ys ∧ .op (.forget id) ∉ ys

def Spent (calls : List Call) (origin : PeerId) (sequence : UInt64) : Prop :=
  ∃ id now, .op (.accept id origin sequence now) ∈ calls

/-- Each bit of the id belongs to some id that was accepted or loaded. -/
def Covered (calls : List Call) (id : RecordId) : Prop :=
  ∀ index ∈ filterIndices id, ∃ id', Known calls id' ∧ index ∈ filterIndices id'

structure Remembers (ttl : ℕ) (calls : List Call) (s : ReplayState) : Prop where
  ttl : s.ttl = ttl
  indices : ∀ id, s.activeRecords.indices id = filterIndices id
  seen : ∀ id t, s.recentlySeen.peek id = some t → Known calls id ∨ PendingSince calls id t
  ones : ∀ i ∈ s.activeRecords.ones, ∃ id, Known calls id ∧ i ∈ filterIndices id
  spent : ∀ o w, s.origins.peek o = some w → ∀ q ∈ w.accepted, Spent calls o q

variable {ttl : ℕ} {calls : List Call} {call : Call} {s : ReplayState} {id : RecordId}

lemma Known.snoc (h : Known calls id) : Known (calls ++ [call]) id := by
  unfold Known at h ⊢
  rw [List.flatMap_append]
  exact List.mem_append_left _ h

lemma known_last (h : id ∈ call.ids) : Known (calls ++ [call]) id := by
  unfold Known
  rw [List.flatMap_append]
  exact List.mem_append_right _ (by simpa using h)

lemma PendingSince.snoc {t : ℕ} (h : PendingSince calls id t)
    (hkept : call ≠ .op (.forget id)) : PendingSince (calls ++ [call]) id t := by
  obtain ⟨xs, ys, rfl, hys⟩ := h
  refine ⟨xs, ys ++ [call], by simp, ?_⟩
  rw [List.mem_append, List.mem_singleton, not_or]
  exact ⟨hys, hkept.symm⟩

lemma pendingSince_last {t : ℕ} : PendingSince (calls ++ [.op (.markPending id t)]) id t :=
  ⟨calls, [], rfl, by simp⟩

lemma Spent.snoc {o : PeerId} {q : UInt64} (h : Spent calls o q) : Spent (calls ++ [call]) o q := by
  obtain ⟨id, now, hmem⟩ := h
  exact ⟨id, now, List.mem_append_left _ hmem⟩

/-- Where a call leaves an entry as it was, what is remembered of it stays true. -/
lemma seen_snoc (h : Remembers ttl calls s) {t : ℕ} (hpeek : s.recentlySeen.peek id = some t)
    (hkept : call ≠ .op (.forget id)) :
    Known (calls ++ [call]) id ∨ PendingSince (calls ++ [call]) id t :=
  (h.seen id t hpeek).imp Known.snoc fun hp => hp.snoc hkept

lemma ones_snoc (h : Remembers ttl calls s) {i : ℕ} (hi : i ∈ s.activeRecords.ones) :
    ∃ id, Known (calls ++ [call]) id ∧ i ∈ filterIndices id := by
  obtain ⟨id, hid, hmem⟩ := h.ones i hi
  exact ⟨id, hid.snoc, hmem⟩

lemma load_ones (f : ActiveRecordFilter) (ids : List RecordId) {i : ℕ}
    (h : i ∈ (ids.foldl ActiveRecordFilter.insert f).ones) :
    i ∈ f.ones ∨ ∃ id ∈ ids, i ∈ f.indices id := by
  induction ids generalizing f with
  | nil => exact .inl h
  | cons id ids ih =>
    rcases ih (f.insert id) h with h | ⟨id', hid', h⟩
    · rcases ActiveRecordFilter.mem_insert.mp h with h | h
      · exact .inl h
      · exact .inr ⟨id, List.mem_cons_self, h⟩
    · exact .inr ⟨id', List.mem_cons_of_mem _ hid', h⟩

lemma load_indices (f : ActiveRecordFilter) (ids : List RecordId) (id : RecordId) :
    (ids.foldl ActiveRecordFilter.insert f).indices id = f.indices id := by
  induction ids generalizing f with
  | nil => rfl
  | cons x ids ih => rw [List.foldl_cons, ih, ActiveRecordFilter.insert_indices]

lemma remembers_load (h : Remembers ttl calls s) (origins : List (PeerId × UInt64))
    (activeIds : List RecordId) : Remembers ttl (calls ++ [.load origins activeIds])
      (s.loadPersistentState origins activeIds) where
  ttl := h.ttl
  indices id := (load_indices _ _ _).trans (h.indices id)
  seen id t hpeek := seen_snoc h hpeek (by simp)
  ones i hi := by
    rcases load_ones _ _ hi with hi | ⟨id, hid, hi⟩
    · exact ones_snoc h hi
    · exact ⟨id, known_last hid, h.indices id ▸ hi⟩
  spent o w hw q hq := (h.spent o w hw q hq).snoc

lemma remembers_accept (h : Remembers ttl calls s) (id : RecordId) (o : PeerId) (q : UInt64)
    (now : ℕ) :
    Remembers ttl (calls ++ [.op (.accept id o q now)]) (s.accept id o q now) where
  ttl := h.ttl
  indices id' := h.indices id'
  seen id' t hpeek := by
    by_cases heq : id' = id
    · exact .inl (known_last (by simp [Call.ids, heq]))
    · exact seen_snoc h (LruCache.peek_of_peek_put heq hpeek) (by simp)
  ones i hi := by
    rcases ActiveRecordFilter.mem_insert.mp hi with hi | hi
    · exact ones_snoc h hi
    · exact ⟨id, known_last (by simp [Call.ids]), h.indices id ▸ hi⟩
  spent o' w hw q' hq' := by
    by_cases ho : o' = o
    · subst ho
      simp only [ReplayState.accept, LruCache.peek_put_self, Option.some.injEq] at hw
      subst hw
      simp only [OriginWindow.accept, Finset.mem_filter, Finset.mem_insert] at hq'
      rcases hq'.1 with rfl | hold
      · exact ⟨id, now, by simp⟩
      · rcases hp : s.origins.peek o' with _ | w
        · simp [hp] at hold
        · rw [hp] at hold
          exact (h.spent o' w hp q' hold).snoc
    · exact (h.spent o' w (LruCache.peek_of_peek_put ho hw) q' hq').snoc

lemma remembers_step (h : Remembers ttl calls s) (call : Call) :
    Remembers ttl (calls ++ [call]) (step s call) := by
  rcases call with ⟨origins, activeIds⟩ | ⟨id, o, q, now⟩ | ⟨id, now⟩ | ⟨id⟩ | ⟨id, o, q, now⟩
  case load => exact remembers_load h origins activeIds
  case op.accept => exact remembers_accept h id o q now
  case op.markPending =>
    refine ⟨h.ttl, h.indices, fun id' t hpeek => ?_, fun i hi => ones_snoc h hi,
      fun o w hw q hq => (h.spent o w hw q hq).snoc⟩
    by_cases heq : id' = id
    · subst heq
      have ht : some now = some t := (LruCache.peek_put_self ..).symm.trans hpeek
      obtain rfl := Option.some.inj ht
      exact .inr pendingSince_last
    · exact seen_snoc h (LruCache.peek_of_peek_put heq hpeek) (by simp)
  case op.forget =>
    refine ⟨h.ttl, h.indices, fun id' t hpeek => ?_, fun i hi => ones_snoc h hi,
      fun o w hw q hq => (h.spent o w hw q hq).snoc⟩
    have hpop : (s.recentlySeen.pop id).peek id' = some t := hpeek
    rw [LruCache.peek_pop] at hpop
    split_ifs at hpop with heq
    refine seen_snoc h hpop ?_
    simpa using fun hid => heq hid.symm
  case op.check =>
    obtain ⟨-, hfilter, -, httl, horigins, -⟩ := check_frame s id o q now
    refine ⟨httl.trans h.ttl, ?_, fun id' t hpeek => seen_snoc h (peek_of_check hpeek) (by simp),
      ?_, ?_⟩
    · intro id'
      simp only [step, apply, hfilter]
      exact h.indices id'
    · intro i hi
      simp only [step, apply, hfilter] at hi
      exact ones_snoc h hi
    · intro o' w hw q' hq'
      simp only [step, apply, horigins] at hw
      exact (h.spent o' w hw q' hq').snoc

lemma remembers_run (records origins : ℕ) (W : UInt64) (calls : List Call) :
    Remembers ttl calls (run step (.withLimits records ttl origins W) calls) := by
  induction calls using List.reverseRecOn with
  | nil =>
    refine ⟨rfl, fun id => rfl, ?_, ?_, ?_⟩
    · simp [ReplayState.withLimits]
    · simp [ReplayState.withLimits, ActiveRecordFilter.new]
    · simp [ReplayState.withLimits]
  | append_singleton calls call ih =>
    rw [run_append, run_cons, run_nil]
    exact remembers_step ih call

/-- In every run a record is called a duplicate only if its id was accepted or loaded, if it is
pending and not forgotten, if its sequence number was accepted for its origin, or if the bits of
its id all belong to accepted or loaded ids. -/
theorem duplicate_only_if_met {records origins : ℕ} {W : UInt64} {o : PeerId} {q : UInt64}
    {now : ℕ} (h : ((run step (.withLimits records ttl origins W) calls).check id o q now).1 =
      .duplicate) :
    Known calls id ∨ (∃ t, PendingSince calls id t ∧ now - t ≤ ttl) ∨ Spent calls o q ∨
      Covered calls id := by
  have hrun := @remembers_run ttl records origins W calls
  rcases duplicate_cases h with ⟨t, hpeek, hle⟩ | hcovered | ⟨w, hw, hq⟩
  · rw [hrun.ttl] at hle
    exact (hrun.seen id t hpeek).imp_right fun hp => .inl ⟨t, hp, hle⟩
  · refine .inr (.inr (.inr fun index hindex => hrun.ones index ?_))
    rw [← hrun.indices] at hindex
    exact ActiveRecordFilter.contains_iff.mp hcovered index hindex
  · exact .inr (.inr (.inl (hrun.spent o w hw q hq)))

theorem pending_duplicate_met : Known [.op (.markPending (sampleId 1) 5)] (sampleId 1) ∨
    (∃ t, PendingSince [.op (.markPending (sampleId 1) 5)] (sampleId 1) t ∧ 7 - t ≤ 10) ∨
      Spent [.op (.markPending (sampleId 1) 5)] sampleOrigin 1 ∨
      Covered [.op (.markPending (sampleId 1) 5)] (sampleId 1) :=
  @duplicate_only_if_met 10 [.op (.markPending (sampleId 1) 5)] (sampleId 1) 4 2 10 sampleOrigin 1 7
    (by decide +kernel)

/-- An id that differs from the first sample id only where the filter does not look. -/
def shadowedId : RecordId :=
  ⟨(List.replicate 4 (List.replicate 7 1 ++ [2])).flatten, by decide⟩

/-- A record that was never stored, whose persistence failed and was forgotten, is called a
duplicate because another id sets the same bits. -/
theorem shadowedId_suppressed :
    let calls : List Call := [.op (.accept (sampleId 1) sampleOrigin 1 0),
      .op (.markPending shadowedId 5), .op (.forget shadowedId)]
    ((run step (.withLimits 4 10 2 10) calls).check shadowedId sampleOrigin 2 6).1 = .duplicate ∧
      ¬ Known calls shadowedId ∧ (¬ ∃ t, PendingSince calls shadowedId t) ∧
      ¬ Spent calls sampleOrigin 2 := by
  refine ⟨by decide +kernel, by unfold Known; decide +kernel, ?_, ?_⟩
  · rintro ⟨t, xs, ys, heq, hys⟩
    rcases xs with _ | ⟨x, _ | ⟨y, _ | ⟨z, xs⟩⟩⟩
    all_goals simp at heq
    exact hys (by simp [← heq.2.2])
  · rintro ⟨id, now, hmem⟩
    simp at hmem

end Protonet.ReplayMemory
