import Protonet.SyncLimits

namespace Protonet.SyncAwaited
open StepRun Record Replay Sync Swarm SyncLedger RecordIdentity Blocking

/-- A session waits for something, and each id it waits for is a pending request whose outcome is
still to come, or one whose comparison or its result is under way. -/
structure Attended (w : Ledger) : Prop where
  awaited : ∀ peer, ∀ s ∈ w.actor.syncSessions.lookup peer, ∀ id ∈ s.outstanding,
    (∃ pending ∈ w.actor.pendingSync.lookup id, pending.peer = peer) ∧ (id, peer) ∈ w.asked ∨
      (id, peer) ∈ w.comparing
  busy : ∀ peer, ∀ s ∈ w.actor.syncSessions.lookup peer, s.outstanding ≠ ∅

/-- The response to a pending request is over the bounds, and the session of its sender waits for
no other request. -/
def Strands (w : Ledger) (e : Clock × Event) : Prop :=
  match e.2 with
  | .syncResponse peer id response =>
    (w.actor.pendingSync.lookup id).isSome ∧ response.validateBounds ≠ .ok () ∧
      ∃ s ∈ w.actor.syncSessions.lookup peer, s.outstanding ⊆ {id}
  | _ => False

def Awaited (x : Books) : Prop :=
  ∀ p, ∀ g ∈ x.agenda p, ∀ id ∈ g.outstanding,
    (∃ pending ∈ x.pending.lookup id, pending.peer = p) ∨ (id, p) ∈ x.comparing

variable {K : Primitives} {x x' : Books} {p q : PeerId} {id : RequestId} {g : Agenda}
  {f : Agenda → Agenda} {request : SyncRequest} {bucket : Int64} {missing : List RecordId}
  {nextCursor : Option RecordId} {e : Event} {a : Actor} {Leaves : PeerId → Prop}

lemma Awaited.amend (h : Awaited x) (hf : ∀ g ∈ x.agenda p, (f g).outstanding ⊆ g.outstanding) :
    Awaited (x.amend p f) := by
  intro q g hg id hid
  by_cases hq : q = p
  · subst hq
    rw [Books.amend_agenda] at hg
    obtain ⟨g₀, hg₀, rfl⟩ := Option.mem_map.mp hg
    exact h q g₀ hg₀ id (hf g₀ hg₀ hid)
  · rw [Books.amend_agenda_ne hq] at hg
    exact h q g hg id hid

lemma Awaited.close (h : Awaited x) : Awaited (x.close p) :=
  fun q g hg id hid => h q g (shut_agenda hg).2 id hid

lemma Awaited.drop (h : Awaited x) : Awaited (x.drop p) := by
  intro q g hg id hid
  obtain ⟨hne, hg⟩ := shut_agenda hg
  refine (h q g hg id hid).imp_left ?_
  rintro ⟨pending, hp, hpeer⟩
  refine ⟨pending, AList.mem_lookup_iff.mpr (List.mem_filter.mpr ⟨AList.mem_lookup_iff.mp hp, ?_⟩),
    hpeer⟩
  exact decide_eq_true (hpeer ▸ hne)

lemma Awaited.send (h : Awaited x) (hkept : Kept x) : Awaited (x.send p request) := by
  intro q g hg id hid
  refine (h q g hg id hid).imp_left ?_
  rintro ⟨pending, hp, hpeer⟩
  have hne : id ≠ x.next := (hkept.outstanding q g hg id hid).ne
  exact ⟨pending, (AList.lookup_insert_ne hne).trans hp, hpeer⟩

lemma Awaited.put_sent (h : Awaited x) (hkept : Kept x) {count : ℕ}
    (hg : ∀ id ∈ g.outstanding, id = x.next ∨ ∃ g₀ ∈ x.agenda p, id ∈ g₀.outstanding) :
    Awaited { (x.send p request).put p (some g) with count } := by
  intro q g' hg' id hid
  by_cases hq : q = p
  · subst hq
    obtain rfl := Option.mem_some_iff.mp (Books.put_agenda ▸ hg')
    rcases hg id hid with rfl | ⟨g₀, hg₀, hid₀⟩
    · exact .inl ⟨pendingOf q request, AList.lookup_insert _, peer_pendingOf⟩
    · exact h.send hkept q g₀ hg₀ id hid₀
  · exact h.send hkept q g' (Books.put_agenda_ne hq ▸ hg') id hid

lemma Awaited.start (h : Awaited x) (hkept : Kept x) : Awaited (x.start p) :=
  h.put_sent hkept fun _ hid => .inl (Finset.mem_singleton.mp hid)

lemma Awaited.ask (h : Awaited x) (hkept : Kept x) : Awaited (x.ask p request) := by
  intro q g hg id hid
  by_cases hq : q = p
  · subst hq
    rw [Books.ask_agenda] at hg
    obtain ⟨g₀, hg₀, rfl⟩ := Option.mem_map.mp hg
    have hput := @Awaited.put_sent x q (g₀.await x.next) request h hkept x.count
      fun id hid => (Finset.mem_insert.mp hid).imp_right fun hid => ⟨g₀, hg₀, hid⟩
    exact hput q _ Books.put_agenda id hid
  · rw [Books.ask_agenda_ne hq] at hg
    exact h.send hkept q g hg id hid

lemma Awaited.fetch (h : Awaited x) (hkept : Kept x) : Awaited (x.fetch p missing) := by
  unfold Books.fetch
  split_ifs
  · exact h.ask hkept
  · exact h

lemma Awaited.goOn (h : Awaited x) (hkept : Kept x) : Awaited (x.goOn p bucket nextCursor) := by
  unfold Books.goOn Books.continueBucket
  split
  · exact h
  · split
    · exact h
    · split_ifs
      · exact h.ask hkept
      · exact h.amend fun _ _ => subset_rfl

lemma Awaited.pumps (h : Awaited x) (hkept : Kept x) (hpumps : Books.Pumps p x x') :
    Awaited x' := by
  induction hpumps with
  | idle => exact h
  | wait => exact h
  | finish => exact h.close
  | @next x _ _ buckets _ _ _ _ ih =>
    have hpopped : Kept (x.amend p fun g => { g with buckets }) :=
      hkept.amend fun _ _ => subset_rfl
    exact ih (Awaited.ask (h.amend fun _ _ => subset_rfl) hpopped) hpopped.ask

/-- A response that is taken up leaves only its own request unattended. -/
lemma Awaited.taken (h : Awaited x) (hkept : Kept x) (hasked : (id, p) ∈ x.asked)
    (hd : e.delivered = ∅) : Awaited (((report e x).take id).settle p id) := by
  intro q g hg id' hid
  have hmem : ∃ g₀ ∈ x.agenda q, id' ∈ g₀.outstanding ∧ (q = p → id' ≠ id) := by
    by_cases hq : q = p
    · subst hq
      rw [Books.settle_agenda] at hg
      obtain ⟨g₀, hg₀, rfl⟩ := Option.mem_map.mp hg
      exact ⟨g₀, hg₀, (Finset.mem_erase.mp hid).2, fun _ => (Finset.mem_erase.mp hid).1⟩
    · rw [Books.settle_agenda_ne hq] at hg
      exact ⟨g, hg, hid, fun heq => absurd heq hq⟩
  obtain ⟨g₀, hg₀, hid₀, hne⟩ := hmem
  rcases h q g₀ hg₀ id' hid₀ with ⟨pending, hp, hpeer⟩ | hc
  · refine .inl ⟨pending, ?_, hpeer⟩
    have hother : id' ≠ id := by
      intro heq
      subst heq
      have hsame := hkept.alone id' pending.peer p (hkept.pending id' pending hp) hasked
      exact hne (hpeer.symm.trans hsame) rfl
    exact (AList.lookup_erase_ne hother).trans hp
  · refine .inr (Finset.mem_sdiff.mpr ⟨hc, ?_⟩)
    rw [hd]
    exact Finset.notMem_empty _

lemma Awaited.delivered (h : Awaited x) (hd : e.delivered = {(id, p)})
    (hf : ∀ g, (f g).outstanding = g.outstanding.erase id) : Awaited ((report e x).amend p f) := by
  have hkeep : ∀ q id', (q = p → id' ≠ id) → (id', q) ∈ x.comparing →
      (id', q) ∈ (report e x).comparing := by
    intro q id' hne hc
    refine Finset.mem_sdiff.mpr ⟨hc, fun hmem => ?_⟩
    rw [hd, Finset.mem_singleton] at hmem
    exact hne (Prod.mk.inj hmem).2 (Prod.mk.inj hmem).1
  intro q g hg id' hid
  by_cases hq : q = p
  · subst hq
    rw [Books.amend_agenda] at hg
    obtain ⟨g₀, hg₀, rfl⟩ := Option.mem_map.mp hg
    rw [hf] at hid
    obtain ⟨hne, hid⟩ := Finset.mem_erase.mp hid
    exact (h q g₀ hg₀ id' hid).imp_right (hkeep q id' fun _ => hne)
  · rw [Books.amend_agenda_ne hq] at hg
    exact (h q g hg id' hid).imp_right (hkeep q id' fun heq => absurd heq hq)

lemma Awaited.turn (h : Awaited x) (hkept : Kept x)
    (howed : e.answered ⊆ x.asked ∧ e.delivered ⊆ x.comparing)
    (hturn : Books.Turn e (report e x) x') : Awaited x' := by
  have hquiet : e.delivered = ∅ → Awaited (report e x) := by
    intro hd q g hg id hid
    refine (h q g hg id hid).imp_right fun hc => Finset.mem_sdiff.mpr ⟨hc, ?_⟩
    rw [hd]
    exact Finset.notMem_empty _
  have hkept' : e.answered = ∅ → Kept (report e x) := by
    intro ha
    refine hkept.reported fun a hmem => ?_
    rw [ha] at hmem
    simp at hmem
  have htaken : ∀ peer id, e.answered = {(id, peer)} → e.delivered = ∅ →
      Awaited (((report e x).take id).settle peer id) ∧
        Kept (((report e x).take id).settle peer id) := by
    intro peer id ha hd
    refine ⟨h.taken hkept (howed.1 ?_) hd, Kept.settle ?_⟩
    · rw [ha]
      exact Finset.mem_singleton_self _
    · refine Kept.reported (x := x.take id) hkept.take fun a hmem => ?_
      rw [ha, Finset.mem_singleton] at hmem
      rw [hmem]
      exact AList.lookup_erase _ _
  have hpeer : ∀ peer id pending, e.answered = {(id, peer)} → x.pending.lookup id = some pending →
      pending.peer = peer := by
    intro peer id pending ha hp
    refine hkept.alone id _ _ (hkept.pending id pending hp) (howed.1 ?_)
    rw [ha]
    exact Finset.mem_singleton_self _
  cases hturn with
  | same _ hd => exact hquiet hd
  | start ha hd => exact (hquiet hd).start (hkept' ha)
  | closed => exact (hquiet rfl).drop
  | expired ps => exact dropAll_induction (fun _ _ => Awaited.drop) (hquiet rfl) ps
  | ignored => exact hquiet rfl
  | @compared peer id response pending job _ hl =>
    intro q g hg id' hid
    rcases hquiet rfl q g hg id' hid with ⟨entry, hentry, rfl⟩ | hc
    · by_cases hne : id' = id
      · subst hne
        rw [Option.mem_unique hentry hl]
        exact .inr (Finset.mem_insert_self _ _)
      · exact .inl ⟨entry, (AList.lookup_erase_ne hne).trans hentry, rfl⟩
    · exact .inr (Finset.mem_insert_of_mem hc)
  | oversized => exact (htaken _ _ rfl rfl).1
  | @settled peer id _ pending p _ _ hl _ _ hp hpumps =>
    have heq : p = peer := hp.elim (fun hp => hp.trans (hpeer peer id pending rfl hl)) fun hp => hp
    subst heq
    obtain ⟨hawaited, hk⟩ := htaken p id rfl rfl
    exact hawaited.pumps hk hpumps
  | @failed peer id _ _ hpumps =>
    obtain ⟨hawaited, hk⟩ := htaken peer id rfl rfl
    exact hawaited.pumps hk hpumps
  | @inventoryCompared peer id differing _ _ hpumps =>
    have hawaited : Awaited ((report (.dbAction (.inventoryCompared peer id differing)) x).amend peer
        fun g => ⟨differing, g.outstanding.erase id⟩) := h.delivered rfl fun _ => rfl
    exact Awaited.pumps hawaited ((hkept' rfl).amend fun g _ => Finset.erase_subset _ g.outstanding)
      hpumps
  | @idsCompared peer id bucket missing nextCursor _ _ hpumps =>
    have hawaited : Awaited ((report (.dbAction (.idsCompared peer id bucket missing nextCursor))
        x).settle peer id) := h.delivered rfl fun _ => rfl
    have hsettled : Kept ((report (.dbAction (.idsCompared peer id bucket missing nextCursor))
        x).settle peer id) := (hkept' rfl).settle
    exact Awaited.pumps ((hawaited.fetch hsettled).goOn hsettled.fetch) hsettled.fetch.goOn hpumps

/-- Every session waits for something, or its peer is about to go. -/
def Busy (Leaves : PeerId → Prop) (x : Books) : Prop :=
  ∀ p, ∀ g ∈ x.agenda p, g.outstanding ≠ ∅ ∨ Leaves p

lemma busy_pumps (h : ∀ q ≠ p, ∀ g ∈ x.agenda q, g.outstanding ≠ ∅ ∨ Leaves q)
    (hpumps : Books.Pumps p x x') : Busy Leaves x' := by
  induction hpumps with
  | idle hnone =>
    intro q g hg
    by_cases hq : q = p
    · rw [hq, hnone] at hg
      cases hg
    · exact h q hq g hg
  | wait hsome hbusy _ =>
    intro q g hg
    by_cases hq : q = p
    · rw [hq, hsome, Option.mem_some_iff] at hg
      exact .inl (hg ▸ hbusy)
    · exact h q hq g hg
  | finish =>
    intro q g hg
    obtain ⟨hq, hg⟩ := shut_agenda hg
    exact h q hq g hg
  | next _ _ _ ih =>
    refine ih fun q hq g hg => h q hq g ?_
    rwa [Books.ask_agenda_ne hq, Books.amend_agenda_ne hq] at hg

lemma amend_other (h : Busy Leaves x) :
    ∀ q ≠ p, ∀ g ∈ (x.amend p f).agenda q, g.outstanding ≠ ∅ ∨ Leaves q := by
  intro q hq g hg
  rw [Books.amend_agenda_ne hq] at hg
  exact h q g hg

lemma fetch_agenda_ne (hq : q ≠ p) : (x.fetch p missing).agenda q = x.agenda q := by
  unfold Books.fetch
  split_ifs
  · exact Books.ask_agenda_ne hq
  · rfl

lemma goOn_agenda_ne (hq : q ≠ p) : (x.goOn p bucket nextCursor).agenda q = x.agenda q := by
  unfold Books.goOn Books.continueBucket
  split
  · rfl
  · split
    · rfl
    · split_ifs
      · exact Books.ask_agenda_ne hq
      · exact Books.amend_agenda_ne hq

/-- An event leaves a session waiting for nothing only when it is an oversized response to all the
session waits for. -/
lemma Busy.turn (h : Busy Leaves x) (hturn : Books.Turn e (report e x) x')
    (hover : ∀ peer id response pending, e = .syncResponse peer id response →
      x.pending.lookup id = some pending → response.validateBounds ≠ .ok () →
        (∀ g ∈ x.agenda peer, g.outstanding.erase id ≠ ∅) ∨ Leaves peer) :
    Busy Leaves x' := by
  have hreport : Busy Leaves (report e x) := h
  cases hturn with
  | same => exact hreport
  | @start _ _ p =>
    intro q g hg
    by_cases hq : q = p
    · subst hq
      obtain rfl := Option.mem_some_iff.mp (Books.put_agenda ▸ hg)
      exact .inl (Finset.singleton_ne_empty _)
    · exact h q g (Books.put_agenda_ne hq ▸ hg)
  | closed => exact fun q g hg => hreport q g (shut_agenda hg).2
  | expired ps =>
    exact dropAll_induction (P := Busy Leaves) (fun _ _ hx q g hg => hx q g (shut_agenda hg).2)
      hreport ps
  | ignored => exact hreport
  | compared => exact hreport
  | @oversized peer id response pending _ hl hbounds =>
    intro q g hg
    by_cases hq : q = peer
    · subst hq
      rw [Books.settle_agenda] at hg
      obtain ⟨g₀, hg₀, rfl⟩ := Option.mem_map.mp hg
      exact (hover q id response pending rfl hl hbounds).imp_left fun hleft => hleft g₀ hg₀
    · rw [Books.settle_agenda_ne hq] at hg
      exact h q g hg
  | @settled peer id response _ _ _ _ _ _ _ _ hpumps =>
    have htaken : Busy Leaves ((report (.syncResponse peer id response) x).take id) := h
    exact busy_pumps (amend_other htaken) hpumps
  | @failed peer id _ _ hpumps =>
    have htaken : Busy Leaves ((report (.outboundFailure peer id) x).take id) := h
    exact busy_pumps (amend_other htaken) hpumps
  | inventoryCompared hpumps => exact busy_pumps (amend_other hreport) hpumps
  | idsCompared hpumps =>
    refine busy_pumps (fun q hq g hg => ?_) hpumps
    rw [goOn_agenda_ne hq, fetch_agenda_ne hq] at hg
    exact amend_other hreport q hq g hg

lemma oversized_turn {peer : PeerId} {response : SyncResponse}
    (hturn : Books.Turn (.syncResponse peer id response) x x') (hl : (x.pending.lookup id).isSome)
    (hover : response.validateBounds ≠ .ok ()) : x' = (x.take id).settle peer id := by
  cases hturn with
  | same ha _ => exact absurd ha (Finset.singleton_ne_empty _)
  | start ha _ => exact absurd ha (Finset.singleton_ne_empty _)
  | ignored hnone =>
    rw [hnone] at hl
    cases hl
  | compared _ hbounds => exact absurd hbounds hover
  | oversized => rfl
  | settled _ hbounds => exact absurd hbounds hover

structure Attending (w : Ledger) : Prop where
  kept : Kept w.books
  awaited : Awaited w.books
  busy : Busy (fun _ => False) w.books

variable {w : Ledger} {t : Clock × Event}

lemma mem_agenda : g ∈ w.books.agenda p ↔ ∃ s ∈ w.actor.syncSessions.lookup p, s.agenda = g :=
  Option.mem_map

lemma attended_of_books (hkept : Kept w.books) (hawaited : Awaited w.books)
    (hbusy : Busy (fun _ => False) w.books) : Attended w where
  awaited peer s hs id hid := by
    refine (hawaited peer s.agenda (mem_agenda.mpr ⟨s, hs, rfl⟩) id hid).imp_left ?_
    rintro ⟨pending, hp, rfl⟩
    exact ⟨⟨pending, hp, rfl⟩, hkept.pending id pending hp⟩
  busy peer s hs := (hbusy peer s.agenda (mem_agenda.mpr ⟨s, hs, rfl⟩)).resolve_right id

lemma attending_start {identity : PeerId} {replay : ReplayState} {mode : Bool}
    {reason : Option String} {now : ℕ} :
    Attending (.start identity replay mode reason now) where
  kept := kept_start
  awaited p g hg := by cases hg
  busy p g hg := by cases hg

lemma attending_step (h : Attending w) (howed : Owed w t) (hstrands : ¬ Strands w t) :
    Attending (w.step K t) where
  kept := kept_step h.kept howed
  awaited := h.awaited.turn h.kept howed step_turn
  busy := by
    refine h.busy.turn step_turn fun peer id response pending he hl hover => .inl fun g hg => ?_
    obtain ⟨s, hs, rfl⟩ := mem_agenda.mp hg
    intro hnone
    have honly : s.outstanding ⊆ {id} :=
      Finset.subset_singleton_iff.mpr ((Finset.erase_eq_empty_iff _ _).mp hnone)
    apply hstrands
    unfold Strands
    rw [he]
    exact ⟨Option.isSome_of_mem hl, hover, s, hs, honly⟩

lemma idle_of_strands (hstrands : Strands w t) : ¬ Attended (w.step K t) := by
  obtain ⟨c, e⟩ := t
  intro hattended
  cases e with
  | syncResponse peer id response =>
    obtain ⟨hl, hover, s, hs, honly⟩ := hstrands
    have hbooks : (w.step K (c, .syncResponse peer id response)).books =
        ((report (.syncResponse peer id response) w.books).take id).settle peer id :=
      oversized_turn (@step_turn K w (c, .syncResponse peer id response)) hl hover
    have hagenda : s.agenda.settle id ∈
        (w.step K (c, .syncResponse peer id response)).books.agenda peer := by
      rw [hbooks, Books.settle_agenda]
      exact Option.mem_map.mpr ⟨s.agenda, mem_agenda.mpr ⟨s, hs, rfl⟩, rfl⟩
    obtain ⟨s', hs', heq⟩ := mem_agenda.mp hagenda
    refine hattended.busy peer s' hs' ?_
    have hleft : s'.outstanding = s.outstanding.erase id := congrArg Agenda.outstanding heq
    rw [hleft, Finset.erase_eq_empty_iff]
    exact (Finset.subset_singleton_iff.mp honly)
  | _ => exact hstrands

/-- In every run in which only what is owed comes in: after each step all sessions wait for
something, and all they wait for is still to come, exactly when no response over the bounds is to
the only request its session waits for. -/
theorem sessions_attended_iff (K : Primitives) (identity : PeerId) (replay : ReplayState)
    (mode : Bool) (reason : Option String) (now : ℕ) (es : List (Clock × Event))
    (howed : Along (Ledger.step K) Owed (.start identity replay mode reason now) es) :
    Along (Ledger.step K) (fun w t => Attended (w.step K t))
        (.start identity replay mode reason now) es ↔
      Along (Ledger.step K) (fun w t => ¬ Strands w t)
        (.start identity replay mode reason now) es := by
  refine along_iff_of_invariant attending_start howed
    (fun _ _ h howed hstrands => attending_step h howed hstrands) fun w t h howed => ?_
  constructor
  · exact fun hattended hstrands => idle_of_strands hstrands hattended
  · intro hstrands
    have hnext := attending_step (K := K) h howed hstrands
    exact attended_of_books hnext.kept hnext.awaited hnext.busy

theorem tidy_session_attended :
    Along (Ledger.step samplePrimitives) (fun w t => Attended (w.step samplePrimitives t))
        (.start ⟨[1]⟩ .default false none 0)
        (atOnce (sampleSession [(sampleRecord 1 1 1 0 1000).recordId])) ↔
      Along (Ledger.step samplePrimitives) (fun w t => ¬ Strands w t)
        (.start ⟨[1]⟩ .default false none 0)
        (atOnce (sampleSession [(sampleRecord 1 1 1 0 1000).recordId])) :=
  sessions_attended_iff samplePrimitives ⟨[1]⟩ .default false none 0 _ (by decide +kernel)

/-- The peer answers with an inventory of one bucket too many. -/
def oversizedInventory : List (Clock × Event) :=
  atOnce [.connectionEstablished samplePeer (.listener [.ip4 ⟨1, 2, 3, 4⟩, .tcp 4001]) 1 1,
    .syncResponse samplePeer 0 (.inventory { InventorySummary.default with
      bucketDigests := List.replicate 367 ⟨0, 0, 0, samplePrimitives.blake3 []⟩ })]

theorem oversizedInventory_idle :
    Along (Ledger.step samplePrimitives) Owed (.start ⟨[1]⟩ .default false none 0)
        oversizedInventory ∧
      ¬ ∀ peer, ∀ s ∈ (run (Ledger.step samplePrimitives) (.start ⟨[1]⟩ .default false none 0)
        oversizedInventory).actor.syncSessions.lookup peer, s.outstanding ≠ ∅ := by
  refine ⟨by decide +kernel, fun h => ?_⟩
  have hsession : ((run (Ledger.step samplePrimitives) (.start ⟨[1]⟩ .default false none 0)
      oversizedInventory).actor.syncSessions.lookup samplePeer).map SyncSession.outstanding =
        some ∅ := by
    decide +kernel
  obtain ⟨s, hs, hempty⟩ := Option.map_eq_some_iff.mp hsession
  exact h samplePeer s hs hempty

end Protonet.SyncAwaited
