import Protonet.Blocking
import Protonet.SyncLedger

namespace Protonet.SyncLimits
open StepRun Record Replay Sync Swarm SyncLedger RecordIdentity
  Blocking

/-- At most four sessions, at most two requests of each, and what is expected of a peer is listed
by its session. -/
structure Limits (a : Actor) : Prop where
  sessions : a.syncSessions.entries.length ≤ MAX_SIMULTANEOUS_SYNC_PEERS
  requests : ∀ peer, ∀ s ∈ a.syncSessions.lookup peer,
    s.outstanding.card ≤ MAX_PENDING_SYNC_REQUESTS_PER_PEER
  listed : ∀ id, ∀ pending ∈ a.pendingSync.lookup id,
    ∃ s ∈ a.syncSessions.lookup pending.peer, id ∈ s.outstanding

/-- A comparison that found missing records comes to a session with a request to spare, its own
not counted. -/
def HasRoom (w : Ledger) (e : Clock × Event) : Prop :=
  match e.2 with
  | .dbAction (.idsCompared peer id _ missing _) => missing ≠ [] →
    ∃ s ∈ w.actor.syncSessions.lookup peer,
      (s.outstanding.erase id).card < MAX_PENDING_SYNC_REQUESTS_PER_PEER
  | _ => True

structure Limited (x : Books) : Prop where
  sessions : x.count ≤ MAX_SIMULTANEOUS_SYNC_PEERS
  requests : ∀ p, ∀ g ∈ x.agenda p, g.outstanding.card ≤ MAX_PENDING_SYNC_REQUESTS_PER_PEER
  listed : ∀ id, ∀ pending ∈ x.pending.lookup id, ∃ g ∈ x.agenda pending.peer, id ∈ g.outstanding

/-- The session of the peer, if any, has a request to spare. -/
def Room (p : PeerId) (x : Books) : Prop :=
  ∃ g ∈ x.agenda p, g.outstanding.card < MAX_PENDING_SYNC_REQUESTS_PER_PEER

variable {K : Primitives} {x x' : Books} {p q : PeerId} {id : RequestId} {g : Agenda}
  {f : Agenda → Agenda} {request : SyncRequest} {bucket : Int64} {missing : List RecordId}
  {nextCursor : Option RecordId} {e : Event} {a : Actor}

lemma exists_agenda {P : Finset RequestId → Prop} :
    (∃ g ∈ a.agenda p, P g.outstanding) ↔ ∃ s ∈ a.syncSessions.lookup p, P s.outstanding := by
  unfold Actor.agenda
  constructor
  · rintro ⟨g, hg, h⟩
    obtain ⟨s, hs, rfl⟩ := Option.mem_map.mp hg
    exact ⟨s, hs, h⟩
  · rintro ⟨s, hs, h⟩
    exact ⟨s.agenda, Option.mem_map_of_mem _ hs, h⟩

lemma limited_books {w : Ledger} : Limited w.books ↔ Limits w.actor := by
  constructor
  · rintro ⟨hsessions, hrequests, hlisted⟩
    refine ⟨hsessions, fun p s hs => hrequests p s.agenda (Option.mem_map_of_mem _ hs),
      fun id pending hp => ?_⟩
    exact (exists_agenda (P := (id ∈ ·))).mp (hlisted id pending hp)
  · rintro ⟨hsessions, hrequests, hlisted⟩
    refine ⟨hsessions, fun p g hg => ?_, fun id pending hp =>
      (exists_agenda (P := (id ∈ ·))).mpr (hlisted id pending hp)⟩
    obtain ⟨s, hs, rfl⟩ := Option.mem_map.mp hg
    exact hrequests p s hs

lemma Limited.amend (h : Limited x) (hsub : ∀ g ∈ x.agenda p, (f g).outstanding ⊆ g.outstanding)
    (hgone : ∀ g ∈ x.agenda p, ∀ id ∈ g.outstanding, id ∉ (f g).outstanding →
      x.pending.lookup id = none) : Limited (x.amend p f) where
  sessions := h.sessions
  requests q g hg := by
    by_cases hq : q = p
    · subst hq
      rw [Books.amend_agenda] at hg
      obtain ⟨g₀, hg₀, rfl⟩ := Option.mem_map.mp hg
      exact (Finset.card_le_card (hsub g₀ hg₀)).trans (h.requests q g₀ hg₀)
    · rw [Books.amend_agenda_ne hq] at hg
      exact h.requests q g hg
  listed id pending hp := by
    obtain ⟨g, hg, hid⟩ := h.listed id pending hp
    by_cases hq : pending.peer = p
    · rw [hq] at hg ⊢
      refine ⟨f g, ?_, ?_⟩
      · rw [Books.amend_agenda]
        exact Option.mem_map_of_mem f hg
      · by_contra hlost
        have hnone := hgone g hg id hid hlost
        rw [show x.pending.lookup id = some pending from hp] at hnone
        cases hnone
    · exact ⟨g, by rwa [Books.amend_agenda_ne hq], hid⟩

lemma Limited.without (h : Limited x) (hnone : x.pending.lookup id = none)
    (hf : ∀ g, (f g).outstanding = g.outstanding.erase id) : Limited (x.amend p f) := by
  refine h.amend (fun g _ => ?_) fun g _ id' hid hlost => ?_
  · rw [hf]
    exact Finset.erase_subset id g.outstanding
  · have heq : id' = id := by
      by_contra hne
      exact hlost (hf g ▸ Finset.mem_erase.mpr ⟨hne, hid⟩)
    rwa [heq]

lemma Limited.settle (h : Limited x) (hnone : x.pending.lookup id = none) :
    Limited (x.settle p id) := h.without hnone fun _ => rfl

lemma Limited.take (h : Limited x) : Limited (x.take id) :=
  ⟨h.sessions, h.requests, fun id pending hp => h.listed id pending (lookup_of_erase hp).2⟩

lemma Limited.drop (h : Limited x) : Limited (x.drop p) where
  sessions := by
    unfold Books.drop
    dsimp only
    split_ifs
    · exact (Nat.sub_le _ _).trans h.sessions
    · exact h.sessions
  requests q g hg := h.requests q g (shut_agenda hg).2
  listed id pending hp := by
    obtain ⟨hne, hp⟩ := drop_pending hp
    obtain ⟨g, hg, hid⟩ := h.listed id pending hp
    exact ⟨g, (Books.put_agenda_ne hne).trans hg, hid⟩

lemma Limited.close (h : Limited x) (hdone : x.agenda p = some ⟨[], ∅⟩) : Limited (x.close p) where
  sessions := (Nat.sub_le _ _).trans h.sessions
  requests q g hg := h.requests q g (shut_agenda hg).2
  listed id pending hp := by
    obtain ⟨g, hg, hid⟩ := h.listed id pending hp
    have hne : pending.peer ≠ p := by
      intro heq
      rw [heq, hdone, Option.mem_some_iff] at hg
      rw [← hg] at hid
      simp at hid
    exact ⟨g, (Books.put_agenda_ne hne).trans hg, hid⟩

lemma Limited.start (h : Limited x) (hnew : x.agenda p = none)
    (hroom : x.count < MAX_SIMULTANEOUS_SYNC_PEERS) : Limited (x.start p) where
  sessions := hroom
  requests q g hg := by
    by_cases hq : q = p
    · subst hq
      obtain rfl := Option.mem_some_iff.mp (Books.put_agenda ▸ hg)
      simp [MAX_PENDING_SYNC_REQUESTS_PER_PEER]
    · exact h.requests q g (Books.put_agenda_ne hq ▸ hg)
  listed id pending hp := by
    rcases send_pending hp with ⟨rfl, hpeer⟩ | ⟨-, hp⟩
    · rw [hpeer]
      exact ⟨_, Books.put_agenda, Finset.mem_singleton_self _⟩
    · obtain ⟨g, hg, hid⟩ := h.listed id pending hp
      have hne : pending.peer ≠ p := by
        intro heq
        rw [heq, hnew] at hg
        cases hg
      exact ⟨g, (Books.put_agenda_ne hne).trans hg, hid⟩

lemma Limited.ask (h : Limited x) (hroom : Room p x) : Limited (x.ask p request) where
  sessions := h.sessions
  requests q g hg := by
    by_cases hq : q = p
    · subst hq
      rw [Books.ask_agenda] at hg
      obtain ⟨g₀, hg₀, rfl⟩ := Option.mem_map.mp hg
      obtain ⟨g₁, hg₁, hcard⟩ := hroom
      rw [Option.mem_unique hg₁ hg₀] at hcard
      exact (Finset.card_insert_le _ _).trans hcard
    · rw [Books.ask_agenda_ne hq] at hg
      exact h.requests q g hg
  listed id pending hp := by
    rcases @send_pending x p id request pending hp with ⟨rfl, hpeer⟩ | ⟨-, hp⟩
    · obtain ⟨g, hg, -⟩ := hroom
      rw [hpeer]
      refine ⟨g.await x.next, ?_, Finset.mem_insert_self _ _⟩
      rw [Books.ask_agenda]
      exact Option.mem_map_of_mem _ hg
    · obtain ⟨g, hg, hid⟩ := h.listed id pending hp
      by_cases hq : pending.peer = p
      · rw [hq] at hg ⊢
        refine ⟨g.await x.next, ?_, Finset.mem_insert_of_mem hid⟩
        rw [Books.ask_agenda]
        exact Option.mem_map_of_mem _ hg
      · exact ⟨g, by rwa [Books.ask_agenda_ne hq], hid⟩

lemma Limited.requeue (h : Limited x) {b : Agenda → List Int64} :
    Limited (x.amend p fun g => { g with buckets := b g }) :=
  h.amend (fun _ _ => subset_rfl) fun _ _ _ hid hlost => absurd hid hlost

lemma Limited.goOn (h : Limited x) : Limited (x.goOn p bucket nextCursor) := by
  unfold Books.goOn Books.continueBucket
  split
  · exact h
  · split
    · exact h
    · next g hg =>
      split_ifs with hroom
      · exact h.ask ⟨g, hg, hroom⟩
      · exact h.requeue

lemma Limited.pumps (h : Limited x) (hpumps : Books.Pumps p x x') : Limited x' := by
  induction hpumps with
  | idle => exact h
  | wait => exact h
  | finish hdone => exact h.close hdone
  | @next x x' bucket buckets outstanding hagenda hroom _ ih =>
    refine ih (Limited.ask (h.requeue (b := fun _ => buckets)) ⟨⟨buckets, outstanding⟩, ?_, hroom⟩)
    rw [Books.amend_agenda, hagenda]
    rfl

/-- A session without a request to spare asks for no page. -/
lemma pumps_full (hpumps : Books.Pumps p x x') (hfull : ¬ Room p x) : x' = x := by
  cases hpumps with
  | idle => rfl
  | wait => rfl
  | finish hdone =>
    refine absurd ⟨_, hdone, ?_⟩ hfull
    simp [MAX_PENDING_SYNC_REQUESTS_PER_PEER]
  | next hagenda hroom _ => exact absurd ⟨_, hagenda, hroom⟩ hfull

lemma goOn_full (hfull : ¬ Room p x) : (x.goOn p bucket nextCursor).pending = x.pending ∧
    ∀ g ∈ (x.goOn p bucket nextCursor).agenda p, ∃ g₀ ∈ x.agenda p,
      g.outstanding = g₀.outstanding := by
  unfold Books.goOn Books.continueBucket
  split
  · exact ⟨rfl, fun g hg => ⟨g, hg, rfl⟩⟩
  · split
    · exact ⟨rfl, fun g hg => ⟨g, hg, rfl⟩⟩
    · next g₀ hg₀ =>
      split_ifs with hroom
      · exact absurd ⟨g₀, hg₀, hroom⟩ hfull
      · refine ⟨rfl, fun g hg => ?_⟩
        rw [Books.amend_agenda, hg₀] at hg
        obtain rfl := Option.mem_some_iff.mp hg
        exact ⟨g₀, hg₀, rfl⟩

/-- Asking for missing records keeps the limits only where there is room for it. -/
lemma limited_fetch_iff (h : Limited x) (hkept : Kept x) (hmissing : missing ≠ [])
    (hpumps : Books.Pumps p ((x.fetch p missing).goOn p bucket nextCursor) x') :
    Limited x' ↔ Room p x := by
  have hfetch : x.fetch p missing = x.ask p (.getRecords missing) := if_pos hmissing
  rw [hfetch] at hpumps
  constructor
  · intro h'
    by_contra hfull
    have hbusy : ∀ g ∈ x.agenda p, MAX_PENDING_SYNC_REQUESTS_PER_PEER <
        (g.await x.next).outstanding.card := by
      intro g hg
      have hnew : x.next ∉ g.outstanding :=
        fun hid => lt_irrefl _ (hkept.outstanding p g hg _ hid)
      rw [Agenda.await, Finset.card_insert_of_notMem hnew]
      exact Nat.lt_succ_of_le (not_lt.mp fun hlt => hfull ⟨g, hg, hlt⟩)
    have hasked : ¬ Room p (x.ask p (.getRecords missing)) := by
      rintro ⟨g, hg, hlt⟩
      rw [Books.ask_agenda] at hg
      obtain ⟨g₀, hg₀, rfl⟩ := Option.mem_map.mp hg
      exact lt_asymm hlt (hbusy g₀ hg₀)
    obtain ⟨hpending, hagenda⟩ := @goOn_full _ p bucket nextCursor hasked
    have hgone : ¬ Room p ((x.ask p (.getRecords missing)).goOn p bucket nextCursor) := by
      rintro ⟨g, hg, hlt⟩
      obtain ⟨g₀, hg₀, heq⟩ := hagenda g hg
      exact hasked ⟨g₀, hg₀, heq ▸ hlt⟩
    obtain rfl := pumps_full hpumps hgone
    have hlookup : ((x.ask p (.getRecords missing)).goOn p bucket nextCursor).pending.lookup x.next =
        some (.records p) := by
      rw [hpending]
      exact AList.lookup_insert _
    obtain ⟨g, hg, -⟩ := h'.listed _ _ hlookup
    obtain ⟨g₁, hg₁, heq⟩ := hagenda g hg
    rw [Books.ask_agenda] at hg₁
    obtain ⟨g₀, hg₀, rfl⟩ := Option.mem_map.mp hg₁
    have hcard := h'.requests p g hg
    rw [heq] at hcard
    exact absurd hcard (not_le.mpr (hbusy g₀ hg₀))
  · exact fun hroom => Limited.pumps (h.ask hroom).goOn hpumps

def Roomy (e : Event) (x : Books) : Prop :=
  match e with
  | .dbAction (.idsCompared peer id _ missing _) => missing ≠ [] → Room peer (x.settle peer id)
  | _ => True

lemma roomy_of_quiet (h : e.delivered = ∅) : Roomy e x := by
  unfold Roomy
  split
  · exact absurd h (Finset.singleton_ne_empty _)
  · trivial

lemma hasRoom_iff {w : Ledger} {e : Clock × Event} : HasRoom w e ↔ Roomy e.2 w.books := by
  have hsettled : ∀ peer id, Room peer (w.books.settle peer id) ↔
      ∃ s ∈ w.actor.syncSessions.lookup peer,
        (s.outstanding.erase id).card < MAX_PENDING_SYNC_REQUESTS_PER_PEER := by
    intro peer id
    rw [← exists_agenda (P := fun o => (o.erase id).card < MAX_PENDING_SYNC_REQUESTS_PER_PEER)]
    unfold Room
    rw [Books.settle_agenda]
    constructor
    · rintro ⟨g, hg, hlt⟩
      obtain ⟨g₀, hg₀, rfl⟩ := Option.mem_map.mp hg
      exact ⟨g₀, hg₀, hlt⟩
    · rintro ⟨g, hg, hlt⟩
      exact ⟨g.settle id, Option.mem_map_of_mem _ hg, hlt⟩
  unfold HasRoom Roomy
  split
  · rw [hsettled]
  · exact Iff.rfl

/-- An event keeps the limits exactly when missing records are asked for with room. -/
lemma limited_turn_iff (h : Limited x) (hkept : Kept x)
    (howed : e.answered ⊆ x.asked ∧ e.delivered ⊆ x.comparing)
    (hturn : Books.Turn e (report e x) x') : Limited x' ↔ Roomy e x := by
  have hreport : Limited (report e x) := ⟨h.sessions, h.requests, h.listed⟩
  have hdelivered : ∀ peer id, (id, peer) ∈ e.delivered →
      (report e x).pending.lookup id = none := by
    intro peer id hmem
    rcases hl : x.pending.lookup id with _ | pending
    · exact hl
    · exact absurd (hkept.pending id pending hl) (hkept.apart id peer _ (howed.2 hmem))
  have htaken : ∀ p id, Limited (((report e x).take id).settle p id) :=
    fun p id => hreport.take.settle (AList.lookup_erase _ _)
  cases hturn with
  | same _ hd => exact iff_of_true hreport (roomy_of_quiet hd)
  | start _ hd hnew hroom => exact iff_of_true (hreport.start hnew hroom) (roomy_of_quiet hd)
  | closed => exact iff_of_true hreport.drop trivial
  | expired ps =>
    exact iff_of_true (dropAll_induction (fun _ _ => Limited.drop) hreport ps) trivial
  | ignored => exact iff_of_true hreport trivial
  | @compared peer id =>
    have htake : Limited ((report _ x).take id) := hreport.take
    exact iff_of_true ⟨htake.sessions, htake.requests, htake.listed⟩ trivial
  | oversized => exact iff_of_true (htaken _ _) trivial
  | settled _ _ _ _ hpumps => exact iff_of_true ((htaken _ _).pumps hpumps) trivial
  | failed hpumps => exact iff_of_true ((htaken _ _).pumps hpumps) trivial
  | @inventoryCompared peer id differing _ _ hpumps =>
    have hnone := hdelivered peer id (Finset.mem_singleton_self _)
    exact iff_of_true (Limited.pumps (hreport.without hnone fun _ => rfl) hpumps) trivial
  | @idsCompared peer id bucket missing nextCursor _ _ hpumps =>
    have hnone := hdelivered peer id (Finset.mem_singleton_self _)
    have hsettled := hreport.settle (p := peer) hnone
    by_cases hmissing : missing = []
    · subst hmissing
      exact iff_of_true (Limited.pumps hsettled.goOn hpumps) fun hne => absurd rfl hne
    · have hquiet : Kept (report (.dbAction (.idsCompared peer id bucket missing nextCursor)) x) :=
        hkept.reported fun a hmem => absurd hmem (Finset.notMem_empty a)
      rw [limited_fetch_iff hsettled hquiet.settle hmissing hpumps]
      exact ⟨fun hroom _ => hroom, fun hroom => hroom hmissing⟩

/-- In every run in which only what is owed comes in, the limits hold in every state reached
exactly when missing records are always asked for by a session with a request to spare. -/
theorem limits_hold_iff (K : Primitives) (identity : PeerId) (replay : ReplayState) (mode : Bool)
    (reason : Option String) (now : ℕ) (es : List (Clock × Event))
    (howed : Along (Ledger.step K) Owed (.start identity replay mode reason now) es) :
    Along (Ledger.step K) (fun w e => Limits (w.step K e).actor)
        (.start identity replay mode reason now) es ↔
      Along (Ledger.step K) HasRoom (.start identity replay mode reason now) es := by
  have hstep : ∀ w e, Limited w.books ∧ Kept w.books → Owed w e →
      (Limits (w.step K e).actor ↔ HasRoom w e) := by
    rintro w e ⟨h, hkept⟩ howed
    rw [← limited_books, hasRoom_iff]
    exact limited_turn_iff h hkept howed step_turn
  refine along_iff_of_invariant (I := fun w => Limited w.books ∧ Kept w.books)
    ⟨⟨Nat.zero_le _, nofun, nofun⟩, kept_start⟩ howed ?_ hstep
  intro w e h howed hroom
  exact ⟨limited_books.mpr ((hstep w e h howed).mpr hroom), kept_step h.2 howed⟩

/-- The peer leaves while a comparison of its ids runs. -/
def staleResult : List (Clock × Event) :=
  atOnce ((sampleSession []).take 4 ++ [.connectionClosed samplePeer 1,
    .dbAction (.idsCompared samplePeer 1 0 [(sampleRecord 1 1 1 0 1000).recordId] none)])

theorem tidy_session_limited :
    Along (Ledger.step samplePrimitives) (fun w e => Limits (w.step samplePrimitives e).actor)
        (.start ⟨[1]⟩ .default false none 0)
        (atOnce (sampleSession [(sampleRecord 1 1 1 0 1000).recordId])) ↔
      Along (Ledger.step samplePrimitives) HasRoom (.start ⟨[1]⟩ .default false none 0)
        (atOnce (sampleSession [(sampleRecord 1 1 1 0 1000).recordId])) :=
  limits_hold_iff samplePrimitives ⟨[1]⟩ .default false none 0 _ (by decide +kernel)

theorem staleResult_unlisted :
    Along (Ledger.step samplePrimitives) Owed (.start ⟨[1]⟩ .default false none 0) staleResult ∧
      ¬ Along (Ledger.step samplePrimitives)
        (fun w e => Limits (w.step samplePrimitives e).actor)
        (.start ⟨[1]⟩ .default false none 0) staleResult := by
  refine ⟨by decide +kernel, fun h => ?_⟩
  have hlast := (along_iff.mp h (staleResult.take 5) (.still 0 0, .dbAction (.idsCompared samplePeer 1
    0 [(sampleRecord 1 1 1 0 1000).recordId] none)) [] rfl).listed 2
  have hpending : (run (Ledger.step samplePrimitives) (.start ⟨[1]⟩ .default false none 0)
      staleResult).actor.pendingSync.lookup 2 = some (.records samplePeer) := by
    decide +kernel
  have hgone : (run (Ledger.step samplePrimitives) (.start ⟨[1]⟩ .default false none 0)
      staleResult).actor.syncSessions.lookup samplePeer = none := by
    decide +kernel
  obtain ⟨s, hs, -⟩ := hlast _ hpending
  rw [Option.mem_def] at hs
  exact Option.some_ne_none s (hs.symm.trans hgone)

end Protonet.SyncLimits
