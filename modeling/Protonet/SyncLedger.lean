import Protonet.SyncBooks

namespace Protonet.SyncLedger
open StepRun Record Replay Sync Swarm

structure Ledger extends Dues where
  actor : Actor

def Ledger.start (identity : PeerId) (replay : ReplayState) (storageSafetyMode : Bool)
    (storageSafetyReason : Option String) (now : ℕ) : Ledger where
  actor := .start identity replay storageSafetyMode storageSafetyReason now
  asked := ∅
  comparing := ∅
  sent := []
  jobs := []

def Dues.report (e : Event) (o : Dues) : Dues :=
  { o with asked := o.asked \ e.answered, comparing := o.comparing \ e.delivered }

def Ledger.step (K : Primitives) (w : Ledger) (e : Clock × Event) : Ledger where
  toDues := (Dues.report e.2 w.toDues).add (w.actor.step K e).outbox
  actor := w.actor.step K e

/-- Only what is owed comes in. -/
def Owed (w : Ledger) (e : Clock × Event) : Prop :=
  e.2.answered ⊆ w.asked ∧ e.2.delivered ⊆ w.comparing

instance {w : Ledger} {e : Clock × Event} : Decidable (Owed w e) :=
  inferInstanceAs (Decidable (_ ∧ _))

def Ledger.books (w : Ledger) : Books where
  toDues := w.toDues
  agenda := w.actor.agenda
  count := w.actor.syncSessions.entries.length
  pending := w.actor.pendingSync
  next := w.actor.nextRequest

def report (e : Event) (x : Books) : Books := { x with toDues := Dues.report e x.toDues }

lemma step_turn {K : Primitives} {w : Ledger} {e : Clock × Event} :
    Books.Turn e.2 (report e.2 w.books) (w.step K e).books := by
  have hturn := @handle_books K w.actor.cleared e.1 (Dues.report e.2 w.toDues) e.2
  have hadd : (Dues.report e.2 w.toDues).add [] = Dues.report e.2 w.toDues := by
    unfold Dues.add
    rw [show ends (sentIn []) = ∅ from rfl, show ends (jobsIn []) = ∅ from rfl,
      Finset.union_empty, Finset.union_empty, show sentIn [] = [] from rfl,
      show jobsIn [] = [] from rfl, List.append_nil, List.append_nil]
  have hstart : w.actor.cleared.books (Dues.report e.2 w.toDues) = report e.2 w.books := by
    unfold Actor.books
    rw [show w.actor.cleared.outbox = [] from rfl, hadd]
    rfl
  rw [hstart] at hturn
  exact hturn

/-- Ids are given out once, and what a pending entry waits for has been asked. -/
structure Kept (x : Books) : Prop where
  asked : ∀ id p, (id, p) ∈ x.asked → id < x.next
  alone : ∀ id p q, (id, p) ∈ x.asked → (id, q) ∈ x.asked → p = q
  comparing : ∀ id p, (id, p) ∈ x.comparing → id < x.next
  apart : ∀ id p q, (id, p) ∈ x.comparing → (id, q) ∉ x.asked
  pending : ∀ id, ∀ pending ∈ x.pending.lookup id, (id, pending.peer) ∈ x.asked
  outstanding : ∀ p, ∀ g ∈ x.agenda p, ∀ id ∈ g.outstanding, id < x.next

variable {x x' : Books} {p q : PeerId} {id : RequestId} {g : Agenda} {f : Agenda → Agenda}
  {request : SyncRequest} {e : Event}

lemma lookup_of_erase {pending : AList fun _ : RequestId => PendingSync} {id' : RequestId}
    {entry : PendingSync} (h : entry ∈ (pending.erase id).lookup id') :
    id' ≠ id ∧ entry ∈ pending.lookup id' := by
  have hne : id' ≠ id :=
    (AList.mem_erase.mp (AList.lookup_isSome.mp (Option.isSome_of_mem h))).1
  rw [AList.lookup_erase_ne hne] at h
  exact ⟨hne, h⟩

lemma Kept.less (h : Kept x) (hasked : x'.asked = x.asked) (hcomparing : x'.comparing = x.comparing)
    (hnext : x'.next = x.next)
    (hpending : ∀ id, ∀ pending ∈ x'.pending.lookup id, pending ∈ x.pending.lookup id)
    (hagenda : ∀ p, ∀ g ∈ x'.agenda p, ∃ g₀ ∈ x.agenda p, g.outstanding ⊆ g₀.outstanding) :
    Kept x' where
  asked := by
    rw [hasked, hnext]
    exact h.asked
  alone := by
    rw [hasked]
    exact h.alone
  comparing := by
    rw [hcomparing, hnext]
    exact h.comparing
  apart := by
    rw [hcomparing, hasked]
    exact h.apart
  pending id pending hp := hasked ▸ h.pending id pending (hpending id pending hp)
  outstanding p g hg id hid := by
    obtain ⟨g₀, hg₀, hsub⟩ := hagenda p g hg
    exact hnext ▸ h.outstanding p g₀ hg₀ id (hsub hid)

lemma Kept.amend (h : Kept x) (hf : ∀ g ∈ x.agenda p, (f g).outstanding ⊆ g.outstanding) :
    Kept (x.amend p f) := by
  refine h.less rfl rfl rfl (fun _ _ => id) fun q g hg => ?_
  by_cases hq : q = p
  · subst hq
    rw [Books.amend_agenda] at hg
    obtain ⟨g₀, hg₀, rfl⟩ := Option.mem_map.mp hg
    exact ⟨g₀, hg₀, hf g₀ hg₀⟩
  · rw [Books.amend_agenda_ne hq] at hg
    exact ⟨g, hg, subset_rfl⟩

lemma Kept.settle (h : Kept x) : Kept (x.settle p id) :=
  h.amend fun g _ => Finset.erase_subset id g.outstanding

lemma Kept.take (h : Kept x) : Kept (x.take id) :=
  h.less rfl rfl rfl (fun _ _ hp => (lookup_of_erase hp).2) fun _ g hg => ⟨g, hg, subset_rfl⟩

lemma shut_agenda (h : g ∈ (x.put p none).agenda q) : q ≠ p ∧ g ∈ x.agenda q := by
  by_cases hq : q = p
  · subst hq
    rw [Books.put_agenda] at h
    cases h
  · rw [Books.put_agenda_ne hq] at h
    exact ⟨hq, h⟩

lemma Kept.close (h : Kept x) : Kept (x.close p) :=
  h.less rfl rfl rfl (fun _ _ => id) fun _ g hg => ⟨g, (shut_agenda hg).2, subset_rfl⟩

lemma drop_pending {pending : PendingSync} (h : pending ∈ (x.drop p).pending.lookup id) :
    pending.peer ≠ p ∧ pending ∈ x.pending.lookup id := by
  have hmem := AList.mem_lookup_iff.mp h
  obtain ⟨hmem, hne⟩ := List.mem_filter.mp hmem
  exact ⟨of_decide_eq_true hne, AList.mem_lookup_iff.mpr hmem⟩

lemma Kept.drop (h : Kept x) : Kept (x.drop p) :=
  h.less rfl rfl rfl (fun _ _ hp => (drop_pending hp).2)
    fun _ g hg => ⟨g, (shut_agenda hg).2, subset_rfl⟩

lemma dropAll_induction {P : Books → Prop} (hdrop : ∀ x p, P x → P (x.drop p)) (h : P x)
    (ps : List PeerId) : P (ps.foldl Books.drop x) := by
  induction ps generalizing x with
  | nil => exact h
  | cons p ps ih => exact ih (hdrop x p h)

lemma peer_pendingOf : (pendingOf p request).peer = p := by
  cases request <;> rfl

lemma send_pending {pending : PendingSync}
    (h : pending ∈ (x.send p request).pending.lookup id) :
    id = x.next ∧ pending.peer = p ∨ id ≠ x.next ∧ pending ∈ x.pending.lookup id := by
  by_cases hid : id = x.next
  · subst hid
    rw [Books.send, AList.lookup_insert, Option.mem_some_iff] at h
    exact .inl ⟨rfl, h ▸ peer_pendingOf⟩
  · rw [Books.send, AList.lookup_insert_ne hid] at h
    exact .inr ⟨hid, h⟩

lemma Kept.send (h : Kept x) : Kept (x.send p request) where
  asked id q hid := by
    rcases Finset.mem_insert.mp hid with heq | hid
    · rw [(Prod.mk.inj heq).1]
      exact Nat.lt_succ_self _
    · exact (h.asked id q hid).trans (Nat.lt_succ_self _)
  alone id q r hq hr := by
    rcases Finset.mem_insert.mp hq with hq | hq
    · rcases Finset.mem_insert.mp hr with hr | hr
      · exact (Prod.mk.inj (hq.trans hr.symm)).2
      · exact absurd (h.asked id r hr) ((Prod.mk.inj hq).1 ▸ lt_irrefl _)
    · rcases Finset.mem_insert.mp hr with hr | hr
      · exact absurd (h.asked id q hq) ((Prod.mk.inj hr).1 ▸ lt_irrefl _)
      · exact h.alone id q r hq hr
  comparing id q hid := (h.comparing id q hid).trans (Nat.lt_succ_self _)
  apart id q r hid hr := by
    rcases Finset.mem_insert.mp hr with hr | hr
    · exact absurd (h.comparing id q hid) ((Prod.mk.inj hr).1 ▸ lt_irrefl _)
    · exact h.apart id q r hid hr
  pending id pending hp := by
    rcases send_pending hp with ⟨rfl, hpeer⟩ | ⟨-, hp⟩
    · exact Finset.mem_insert.mpr (.inl (by rw [hpeer]))
    · exact Finset.mem_insert_of_mem (h.pending id pending hp)
  outstanding q g hg id hid := (h.outstanding q g hg id hid).trans (Nat.lt_succ_self _)

lemma Kept.put (h : Kept x) {count : ℕ} {g : Option Agenda}
    (hg : ∀ g' ∈ g, ∀ id ∈ g'.outstanding, id < x.next) :
    Kept { x.put p g with count } where
  asked := h.asked
  alone := h.alone
  comparing := h.comparing
  apart := h.apart
  pending := h.pending
  outstanding q g' hg' := by
    by_cases hq : q = p
    · subst hq
      rw [Books.put_agenda] at hg'
      exact hg g' hg'
    · rw [Books.put_agenda_ne hq] at hg'
      exact h.outstanding q g' hg'

lemma Kept.ask (h : Kept x) : Kept (x.ask p request) := by
  refine Kept.put (@Kept.send _ p request h) fun g hg id hid => ?_
  obtain ⟨g₀, hg₀, rfl⟩ := Option.mem_map.mp hg
  rcases Finset.mem_insert.mp hid with rfl | hid
  · exact Nat.lt_succ_self _
  · exact (h.outstanding p g₀ hg₀ id hid).trans (Nat.lt_succ_self _)

lemma Kept.start (h : Kept x) : Kept (x.start p) := by
  refine Kept.put h.send fun g hg id hid => ?_
  rw [Option.mem_some_iff] at hg
  subst hg
  rw [Finset.mem_singleton.mp hid]
  exact Nat.lt_succ_self _

lemma Kept.fetch (h : Kept x) {missing : List RecordId} : Kept (x.fetch p missing) := by
  unfold Books.fetch
  split_ifs
  · exact h.ask
  · exact h

lemma Kept.goOn (h : Kept x) {bucket : Int64} {nextCursor : Option RecordId} :
    Kept (x.goOn p bucket nextCursor) := by
  unfold Books.goOn Books.continueBucket
  split
  · exact h
  · split
    · exact h
    · split_ifs
      · exact h.ask
      · exact h.amend fun _ _ => subset_rfl

lemma Kept.pumps (h : Kept x) (hpumps : Books.Pumps p x x') : Kept x' := by
  induction hpumps with
  | idle => exact h
  | wait => exact h
  | finish => exact h.close
  | next _ _ _ ih => exact ih (Kept.ask (h.amend fun _ _ => subset_rfl))

lemma Kept.reported (h : Kept x) (hnone : ∀ a ∈ e.answered, x.pending.lookup a.1 = none) :
    Kept (report e x) where
  asked id p hid := h.asked id p (Finset.mem_sdiff.mp hid).1
  alone id p q hp hq := h.alone id p q (Finset.mem_sdiff.mp hp).1 (Finset.mem_sdiff.mp hq).1
  comparing id p hid := h.comparing id p (Finset.mem_sdiff.mp hid).1
  apart id p q hid hq := h.apart id p q (Finset.mem_sdiff.mp hid).1 (Finset.mem_sdiff.mp hq).1
  pending id pending hp := by
    refine Finset.mem_sdiff.mpr ⟨h.pending id pending hp, fun hmem => ?_⟩
    have hlookup : x.pending.lookup id = none := hnone _ hmem
    rw [show x.pending.lookup id = some pending from hp] at hlookup
    cases hlookup
  outstanding := h.outstanding

lemma Kept.turn (h : Kept x) (howed : e.answered ⊆ x.asked ∧ e.delivered ⊆ x.comparing)
    (hturn : Books.Turn e (report e x) x') : Kept x' := by
  have hquiet : e.answered = ∅ → Kept (report e x) := by
    intro ha
    refine h.reported fun a hmem => ?_
    rw [ha] at hmem
    simp at hmem
  have htaken : ∀ peer id, e.answered = {(id, peer)} →
      Kept ((report e x).take id) := by
    intro peer id ha
    refine Kept.reported (x := x.take id) h.take fun a hmem => ?_
    rw [ha, Finset.mem_singleton] at hmem
    rw [hmem]
    exact AList.lookup_erase _ _
  cases hturn with
  | same ha => exact hquiet ha
  | start ha => exact (hquiet ha).start
  | closed => exact (hquiet rfl).drop
  | expired ps => exact dropAll_induction (fun _ _ => Kept.drop) (hquiet rfl) ps
  | ignored hl =>
    refine h.reported fun a hmem => ?_
    rw [Event.answered, Finset.mem_singleton] at hmem
    rw [hmem]
    exact hl
  | @compared peer id =>
    have hasked : (id, peer) ∈ x.asked := howed.1 (Finset.mem_singleton_self _)
    have htake := htaken peer id rfl
    refine ⟨htake.asked, htake.alone, fun id' q hid => ?_, fun id' q r hid hr => ?_, htake.pending,
      htake.outstanding⟩
    · rcases Finset.mem_insert.mp hid with heq | hid
      · rw [(Prod.mk.inj heq).1]
        exact h.asked _ _ hasked
      · exact htake.comparing id' q hid
    · rcases Finset.mem_insert.mp hid with heq | hid
      · rw [(Prod.mk.inj heq).1] at hr
        obtain ⟨hr, hgone⟩ := Finset.mem_sdiff.mp hr
        exact hgone (h.alone id peer r hasked hr ▸ Finset.mem_singleton_self _)
      · exact htake.apart id' q r hid hr
  | oversized => exact (htaken _ _ rfl).settle
  | settled _ _ _ _ hpumps => exact (htaken _ _ rfl).settle.pumps hpumps
  | failed hpumps => exact (htaken _ _ rfl).settle.pumps hpumps
  | inventoryCompared hpumps =>
    exact Kept.pumps ((hquiet rfl).amend fun g _ => Finset.erase_subset _ g.outstanding) hpumps
  | idsCompared hpumps => exact Kept.pumps (hquiet rfl).settle.fetch.goOn hpumps

lemma kept_step {K : Primitives} {w : Ledger} {e : Clock × Event} (h : Kept w.books)
    (howed : Owed w e) : Kept (w.step K e).books := h.turn howed step_turn

lemma kept_start {identity : PeerId} {replay : ReplayState} {mode : Bool} {reason : Option String}
    {now : ℕ} : Kept (Ledger.start identity replay mode reason now).books :=
  ⟨nofun, nofun, nofun, nofun, nofun, nofun⟩

end Protonet.SyncLedger
