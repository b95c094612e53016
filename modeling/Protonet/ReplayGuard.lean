import Protonet.ReplayMemory

namespace Protonet.ReplayGuard
open Lru MachineInt Record Replay StepRun ReplayFloor ReplayMemory Ingestion

variable {s : ReplayState} {call : Call} {calls : List Call} {id : RecordId} {o : PeerId}
  {q W : UInt64} {now ttl records origins : ℕ} {S : Finset PeerId}

lemma contains_step (h : s.activeRecords.contains id = true ∨ id ∈ call.ids) :
    (step s call).activeRecords.contains id = true := by
  rcases call with ⟨origins, activeIds⟩ | ⟨id', o, q, now⟩ | ⟨id', now⟩ | ⟨id'⟩ | ⟨id', o, q, now⟩
  case load => exact ActiveRecordFilter.contains_load h.symm
  case op.accept =>
    refine ActiveRecordFilter.contains_insert (h.symm.imp_left fun hid => ?_)
    exact List.mem_singleton.mp hid
  case op.markPending => exact h.resolve_right List.not_mem_nil
  case op.forget => exact h.resolve_right List.not_mem_nil
  case op.check =>
    have hframe := (check_frame s id' o q now).2.1
    have hstep : (step s (.op (.check id' o q now))).activeRecords = s.activeRecords := hframe
    rw [hstep]
    exact h.resolve_right List.not_mem_nil

lemma contains_run (h : s.activeRecords.contains id = true ∨ Known calls id) :
    (run step s calls).activeRecords.contains id = true := by
  induction calls generalizing s with
  | nil => exact h.resolve_right List.not_mem_nil
  | cons call calls ih =>
    unfold Known at h ih
    rw [List.flatMap_cons, List.mem_append, ← or_assoc] at h
    exact ih (h.imp_left contains_step)

lemma check_of_contains (h : s.activeRecords.contains id = true) :
    (s.check id o q now).1 = .duplicate := by
  have hmember : ∀ s' : ReplayState, s'.activeRecords = s.activeRecords →
      (s'.checkMembership id o q).1 = .duplicate := by
    intro s' hs'
    unfold ReplayState.checkMembership
    rw [hs', if_pos h]
  unfold ReplayState.check
  rcases s.recentlySeen.peek id with _ | seenAt
  · exact hmember _ rfl
  · dsimp only
    split_ifs
    · rfl
    · exact hmember _ rfl

/-- In every run, once an id was accepted or loaded, every check of it answers that it is a
duplicate, for every origin and sequence number and at every time. -/
theorem known_stays_duplicate (h : Known calls id) :
    ((run step (.withLimits records ttl origins W) calls).check id o q now).1 = .duplicate :=
  check_of_contains (contains_run (.inr h))

/-- The id is still refused when the only entry of the cache has gone to another one. -/
theorem evicted_stays_duplicate :
    ((run step (.withLimits 1 10 1 10) [.op (.accept (sampleId 1) sampleOrigin 1 5),
      .op (.accept (sampleId 2) sampleOrigin 2 6), .op (.forget (sampleId 1))]).check (sampleId 1)
        sampleOrigin 7 1000).1 = .duplicate :=
  known_stays_duplicate (by unfold Known; decide +kernel)

def origin? : Call → Option PeerId
  | .op (.accept _ o _ _) => some o
  | _ => none

def acceptedOrigins (calls : List Call) : Finset PeerId := (calls.filterMap origin?).toFinset

/-- The cache holds origins of the set only, and has room for all of them. -/
structure Roomy (W : UInt64) (S : Finset PeerId) (s : ReplayState) : Prop where
  window : s.sequenceWindow = W
  room : S.card ≤ s.origins.cap
  origins : ∀ o ∈ s.origins.keys, o ∈ S

/-- A check of the sequence number meets a window that refuses it. -/
def Refused (s : ReplayState) (o : PeerId) (q : UInt64) : Prop :=
  ∃ w, s.origins.peek o = some w ∧ (q ∈ w.accepted ∨ Below s.sequenceWindow q w.highest)

lemma Refused.check_ne (h : Refused s o q) : (s.check id o q now).1 ≠ .new := by
  intro hnew
  obtain ⟨-, -, hadmits⟩ := check_new_iff.mp hnew
  obtain ⟨w, hw, hrefused⟩ := h
  unfold ReplayState.OriginAdmits at hadmits
  rw [hw] at hadmits
  rcases hrefused with hmem | hbelow
  · exact hadmits.1 hmem
  · exact absurd (saturatingAdd_le_of_le hbelow) (UInt64.not_le.mpr hadmits.2)

lemma roomy_accept (h : Roomy W S s) (ho : o ∈ S) : Roomy W S (s.accept id o q now) where
  window := h.window
  room := h.room
  origins o' ho' := by
    by_cases heq : o' = o
    · exact heq ▸ ho
    · obtain ⟨w, hw⟩ := Option.isSome_iff_exists.mp (LruCache.mem_keys.mp ho')
      refine h.origins o' (LruCache.mem_keys.mpr ?_)
      rw [LruCache.peek_of_peek_put heq hw]
      rfl

lemma roomy_step (h : Roomy W S s) (hS : ∀ o ∈ origin? call, o ∈ S) : Roomy W S (step s call) := by
  rcases call with ⟨origins, activeIds⟩ | ⟨id', o, q, now⟩ | ⟨id', now⟩ | ⟨id'⟩ | ⟨id', o, q, now⟩
  case op.accept => exact roomy_accept h (hS o rfl)
  case op.check =>
    obtain ⟨-, -, hwindow, -, horigins, -⟩ := check_frame s id' o q now
    refine ⟨hwindow.trans h.window, ?_, fun o' ho' => ?_⟩
    · exact h.room.trans_eq (check_caps s id' o q now).2.symm
    · refine h.origins o' (LruCache.mem_keys.mpr ?_)
      rw [← horigins]
      exact LruCache.mem_keys.mp ho'
  all_goals exact ⟨h.window, h.room, h.origins⟩

lemma refused_accept (h : Roomy W S s) (ho : o ∈ S) {o' : PeerId} {q' : UInt64}
    (hrefused : Refused s o' q' ∨ o' = o ∧ q' = q) : Refused (s.accept id o q now) o' q' := by
  by_cases heq : o' = o
  · subst heq
    refine ⟨_, LruCache.peek_put_self .., accept_keeps ?_⟩
    rcases hrefused with ⟨w, hw, hmem | hbelow⟩ | ⟨-, rfl⟩
    · rw [hw]
      exact .inr (.inl hmem)
    · rw [hw]
      exact .inr (.inr (below_max.mpr (.inl hbelow)))
    · exact .inl rfl
  · obtain ⟨w, hw, hkept⟩ := hrefused.resolve_right fun hsame => heq hsame.1
    have hroom := LruCache.room_of_keys_subset h.origins ho h.room
    exact ⟨w, (LruCache.peek_put_of_room hroom heq).trans hw, hkept⟩

lemma refused_step (h : Roomy W S s) (hS : ∀ o ∈ origin? call, o ∈ S)
    (hrefused : Refused s o q ∨ Spent [call] o q) : Refused (step s call) o q := by
  rcases call with ⟨origins, activeIds⟩ | ⟨id', o', q', now⟩ | ⟨id', now⟩ | ⟨id'⟩ |
    ⟨id', o', q', now⟩
  case op.accept =>
    refine refused_accept h (hS o' rfl) (hrefused.imp_right ?_)
    rintro ⟨id, now, hmem⟩
    obtain ⟨-, rfl, rfl, -⟩ := ReplayOp.accept.inj (Call.op.inj (List.mem_singleton.mp hmem))
    exact ⟨rfl, rfl⟩
  case op.check =>
    obtain ⟨w, hw, hkept⟩ := hrefused.resolve_right (by simp [Spent])
    obtain ⟨-, -, hwindow, -, horigins, -⟩ := check_frame s id' o' q' now
    refine ⟨w, (horigins o).trans hw, ?_⟩
    have hsame : (step s (.op (.check id' o' q' now))).sequenceWindow = s.sequenceWindow := hwindow
    rwa [hsame]
  all_goals exact hrefused.resolve_right (by simp [Spent])

lemma refused_run (h : Roomy W S s) (hS : acceptedOrigins calls ⊆ S)
    (hrefused : Refused s o q ∨ Spent calls o q) : Refused (run step s calls) o q := by
  induction calls generalizing s with
  | nil => exact hrefused.resolve_right (by simp [Spent])
  | cons call calls ih =>
    have hhead : ∀ o ∈ origin? call, o ∈ S := fun o ho =>
      hS (List.mem_toFinset.mpr (List.mem_filterMap.mpr ⟨call, List.mem_cons_self, ho⟩))
    have htail : acceptedOrigins calls ⊆ S := by
      refine subset_trans (fun o ho => ?_) hS
      obtain ⟨c, hc, hco⟩ := List.mem_filterMap.mp (List.mem_toFinset.mp ho)
      exact List.mem_toFinset.mpr (List.mem_filterMap.mpr ⟨c, List.mem_cons_of_mem _ hc, hco⟩)
    refine ih (roomy_step h hhead) htail ?_
    rcases hrefused with hrefused | ⟨id, now, hmem⟩
    · exact .inl (refused_step h hhead (.inl hrefused))
    · rcases List.mem_cons.mp hmem with rfl | hmem
      · exact .inl (refused_step h hhead (.inr ⟨id, now, List.mem_singleton_self _⟩))
      · exact .inr ⟨id, now, hmem⟩

/-- In every run that accepts records of no more origins than the cache has room for, a sequence
number that was accepted for an origin is not new again, whatever the id it comes with. -/
theorem spent_not_new (hfew : (acceptedOrigins calls).card ≤ max origins 1) (h : Spent calls o q) :
    ((run step (.withLimits records ttl origins W) calls).check id o q now).1 ≠ .new := by
  have hroomy : Roomy W (acceptedOrigins calls) (.withLimits records ttl origins W) :=
    ⟨rfl, hfew, by simp [ReplayState.withLimits, LruCache.keys, LruCache.new]⟩
  exact (refused_run hroomy subset_rfl (.inr h)).check_ne

/-- With a window of nothing a number is pruned at once, and still not new. -/
theorem pruned_not_new :
    ((run step (.withLimits 1 10 1 0) [.op (.accept (sampleId 1) sampleOrigin 1 5),
      .op (.accept (sampleId 2) sampleOrigin 2 6)]).check (sampleId 3) sampleOrigin 1 1000).1 ≠
        .new :=
  spent_not_new (by decide +kernel) ⟨sampleId 1, 5, by simp⟩

end Protonet.ReplayGuard
