import Protonet.Stock
import Protonet.SyncSession

namespace Protonet.SyncPlaces
open MachineInt StepRun Postcard Record Replay Database Sync Queries Swarm Paging Listing
  InventoryDigests SyncWorld SyncProgress SyncLedger SyncAwaited SyncTrace PageWalk SyncSession Stock
  Blocking

structure Journey where
  ledger : Ledger
  /-- The first request id of the session, or of the last one. -/
  opened : RequestId
  /-- The buckets that its inventory comparison found. -/
  differing : List Int64

def Journey.start (identity : PeerId) (replay : ReplayState) (storageSafetyMode : Bool)
    (storageSafetyReason : Option String) (now : ℕ) : Journey :=
  ⟨.start identity replay storageSafetyMode storageSafetyReason now, 0, []⟩

def Journey.live (peer : PeerId) (j : Journey) : Bool :=
  (j.ledger.actor.syncSessions.lookup peer).isSome

def found (peer : PeerId) (differing : List Int64) : Event → List Int64
  | .dbAction (.inventoryCompared p _ differing') => if p = peer then differing' else differing
  | _ => differing

def Journey.step (K : Primitives) (peer : PeerId) (j : Journey) (e : Clock × Event) : Journey where
  ledger := j.ledger.step K e
  opened := if j.live peer then j.opened else j.ledger.actor.nextRequest
  differing := if j.live peer then found peer j.differing e.2 else []

def Journey.requests (peer : PeerId) (j : Journey) : List (RequestId × SyncRequest) :=
  requestsTo peer j.opened j.ledger.sent

/-- The results that a session acts on are of its own requests, and a page with a successor finds a
free request for it, after the one for its records. -/
def KeepsPlace (peer : PeerId) (j : Journey) (e : Clock × Event) : Prop :=
  match e.2 with
  | .dbAction (.inventoryCompared p id _) => p = peer →
    ∀ s ∈ j.ledger.actor.syncSessions.lookup peer, id ∈ s.outstanding
  | .dbAction (.idsCompared p id _ missing nextCursor) => p = peer → nextCursor ≠ none →
    ∀ s ∈ j.ledger.actor.syncSessions.lookup peer, id ∈ s.outstanding ∧
      (s.outstanding.erase id).card + (if missing = [] then 0 else 1) <
        MAX_PENDING_SYNC_REQUESTS_PER_PEER
  | _ => True

/-- Each bucket was begun, and each page was answered and its successor asked for. -/
structure Reached (peer : PeerId) (j : Journey) : Prop where
  begun : ∀ bucket ∈ j.differing,
    ∃ id limit, (id, .getRecordIds bucket none limit) ∈ j.requests peer
  followed : ∀ id bucket cursor limit,
    (id, .getRecordIds bucket cursor limit) ∈ j.requests peer →
      ∃ ids nextCursor, (id, peer, .ids bucket ids nextCursor) ∈ j.ledger.jobs ∧
        ∀ c ∈ nextCursor, ∃ id' limit',
          (id', .getRecordIds bucket (some c) limit') ∈ j.requests peer

/-- No page is asked for twice, requests are finitely many, a session waits for an answer or a
result that is still to come, and it does not end by itself before every page was reached. -/
structure InPlace (K : Primitives) (peer : PeerId) (remote : SignatureDatabase) (j : Journey)
    (e : Clock × Event) : Prop where
  distinct : (((j.step K peer e).requests peer).filterMap fun r => page? r.2).Nodup
  finite : ((j.step K peer e).requests peer).length ≤
    2 * (MAX_BUCKETS * (remote.records.rows.length + 1)) + ((j.step K peer e).opened + 1)
  awaited : ∀ s ∈ (j.step K peer e).ledger.actor.syncSessions.lookup peer, ∃ id ∈ s.outstanding,
    (id, peer) ∈ (j.step K peer e).ledger.asked ∨ (id, peer) ∈ (j.step K peer e).ledger.comparing
  reached : j.live peer = true → (j.step K peer e).live peer = false → e.2 ≠ .snapshotTick →
    (∀ connection, e.2 ≠ .connectionClosed peer connection) → Reached peer (j.step K peer e)

variable {K : Primitives} {peer p q : PeerId} {remote : SignatureDatabase} {now : Int64}
  {x x' : Books} {id n opened : RequestId} {g : Agenda} {f : Agenda → Agenda} {request : SyncRequest}
  {b bucket : Int64} {missing : List RecordId} {nextCursor cursor : Option RecordId} {c : RecordId}
  {e : Event} {job : Job} {requests : List (RequestId × SyncRequest)} {differing queue : List Int64}
  {jobs jobs' : List (RequestId × PeerId × Job)} {waiting : Finset RequestId}

lemma found_self {differing' : List Int64} :
    found p differing (.dbAction (.inventoryCompared p id differing')) = differing' := if_pos rfl

lemma found_other {differing' : List Int64} (h : p ≠ peer) :
    found peer differing (.dbAction (.inventoryCompared p id differing')) = differing := if_neg h

lemma found_quiet (h : e.delivered = ∅) : found peer differing e = differing := by
  unfold found
  split
  · exact absurd h (Finset.singleton_ne_empty _)
  · rfl

structure Midway (K : Primitives) (peer : PeerId) (remote : SignatureDatabase) (opened : RequestId)
    (differing : List Int64) (w : Ledger) (e : Clock × Event) (g : Agenda) : Prop where
  kept : Kept w.books
  traced : Traced K peer remote w.books
  earlier : opened < w.books.next
  live : Live peer remote opened differing w.books g.outstanding g.buckets
  agenda : w.books.agenda peer = some g
  honest : Honest K peer remote w e

variable {w : Ledger} {t : Clock} {response : SyncResponse}

lemma Midway.reported (h : Midway K peer remote opened differing w (t, e) g) :
    Live peer remote opened differing (report e w.books) g.outstanding g.buckets :=
  h.live.aside aside_report

lemma Midway.gone (h : Midway K peer remote opened differing w (t, e) g) :
    ∀ id, (id, peer) ∈ e.answered ∨ (id, peer) ∈ e.delivered →
      id ∉ expected peer (report e w.books).toDues := fun _ => expected_gone h.kept h.honest.owed

lemma Midway.session (h : Midway K peer remote opened differing w (t, e) g) :
    ∃ s ∈ w.actor.syncSessions.lookup peer, s.agenda = g := Option.mem_map.mp h.agenda

/-- What was expected of the peer is now expected of the comparison. -/
lemma Midway.compared
    (h : Midway K peer remote opened differing w (t, .syncResponse p id response) g)
    {pending : PendingSync} (hl : w.books.pending.lookup id = some pending) :
    Outcome peer remote opened differing (.syncResponse p id response)
      (((report (.syncResponse p id response) w.books).take id).compare id pending.peer job) := by
  obtain ⟨hpeer, -⟩ := h.traced.answered h.kept h.honest.owed.1 rfl hl
  refine Outcome.aside h.live h.agenda ⟨rfl, rfl, List.subset_append_left _ _, fun id' hid => ?_⟩
  rcases mem_expected.mp hid with hasked | hcomparing
  · exact mem_expected.mpr (.inl (Finset.mem_sdiff.mp hasked).1)
  · rcases Finset.mem_insert.mp hcomparing with heq | hcomparing
    · obtain ⟨rfl, hsame⟩ := Prod.mk.inj heq
      have howed : (id', peer) ∈ (Event.syncResponse p id' response).answered := by
        rw [hsame, hpeer]
        exact Finset.mem_singleton_self _
      exact mem_expected.mpr (.inl (h.honest.owed.1 howed))
    · exact mem_expected.mpr (.inr (Finset.mem_sdiff.mp hcomparing).1)

/-- An answer without a comparison is one to the request for records. -/
lemma Midway.settled
    (h : Midway K peer remote opened differing w (t, .syncResponse p id response) g)
    {pending : PendingSync} (hl : w.books.pending.lookup id = some pending)
    (hjob : pending.job? response = none) (hq : q = pending.peer ∨ q = p)
    (hpumps : Books.Pumps q
      (((report (.syncResponse p id response) w.books).take id).settle q id) x') :
    Outcome peer remote opened differing (.syncResponse p id response) x' := by
  obtain ⟨hpeer, request, hsent, hpending⟩ := h.traced.answered h.kept h.honest.owed.1 rfl hl
  have heq : q = p := hq.elim (fun hq => hq.trans hpeer) fun hq => hq
  subst heq
  by_cases hp : q = peer
  · subst hp
    obtain ⟨request', now, hsent', rfl⟩ := h.honest.answers id response rfl
    obtain ⟨-, rfl⟩ := h.traced.unique hsent hsent'
    rw [hpending] at hjob
    exact .inl (Live.settled h.traced.report h.earlier h.reported h.agenda
      (h.gone id (.inl (Finset.mem_singleton_self _))) hsent
      (records_of_no_job (h.traced.plain _ hsent) hjob).1 hpumps)
  · exact Outcome.aside h.reported h.agenda ((aside_settle hp).trans (aside_pumps hp hpumps))

/-- The session turns to the buckets that its inventory comparison found. -/
lemma Midway.inventoryCompared
    (h : Midway K peer remote opened differing w (t, .dbAction (.inventoryCompared peer id queue)) g)
    (hid : id ∈ g.outstanding)
    (hpumps : Books.Pumps peer ((report (.dbAction (.inventoryCompared peer id queue))
      w.books).amend peer fun g => ⟨queue, g.outstanding.erase id⟩) x') :
    Outcome peer remote opened queue (.dbAction (.inventoryCompared peer id queue)) x' := by
  obtain ⟨job, db, now, hjob, haction⟩ := h.honest.compares _ rfl id (Finset.mem_singleton_self _)
  cases job with
  | ids => cases haction
  | inventory summary =>
    obtain ⟨-, -, rfl⟩ := DbAction.inventoryCompared.inj haction
    exact .inl (Live.inventoryCompared h.traced.report h.earlier h.reported h.agenda
      (h.gone id (.inr (Finset.mem_singleton_self _))) hid hjob hpumps)

/-- The session asks for what a page lacks and for the next one; a page it has not asked for has no
next one. -/
lemma Midway.idsCompared
    (h : Midway K peer remote opened differing w
      (t, .dbAction (.idsCompared peer id bucket missing nextCursor)) g)
    (hkeeps : nextCursor ≠ none → id ∈ g.outstanding ∧
      (g.outstanding.erase id).card + (if missing = [] then 0 else 1) <
        MAX_PENDING_SYNC_REQUESTS_PER_PEER)
    (hpumps : Books.Pumps peer ((((report (.dbAction (.idsCompared peer id bucket missing
      nextCursor)) w.books).settle peer id).fetch peer missing).goOn peer bucket nextCursor) x') :
    Outcome peer remote opened differing
      (.dbAction (.idsCompared peer id bucket missing nextCursor)) x' := by
  obtain ⟨job, db, now, hjob, haction⟩ := h.honest.compares _ rfl id (Finset.mem_singleton_self _)
  have hnot := h.gone id (.inr (Finset.mem_singleton_self _))
  cases job with
  | inventory => cases haction
  | ids bucket' ids nextCursor' =>
    obtain ⟨-, -, rfl, -, rfl⟩ := DbAction.idsCompared.inj haction
    by_cases hw : id ∈ g.outstanding
    · exact .inl (Live.pageCompared h.traced.report h.earlier h.reported h.agenda hnot hw hjob
        (fun hnext => (hkeeps hnext).2) hpumps)
    · obtain rfl : nextCursor = none := by
        by_contra hnext
        exact hw (hkeeps hnext).1
      have hid : id ∈ expected peer w.books.toDues :=
        mem_expected.mpr (.inr (h.honest.owed.2 (Finset.mem_singleton_self _)))
      exact .inl (Live.strayCompared h.traced.report h.earlier h.reported h.agenda hw
        (Thrifty.of_le h.live.frugal (expected_spare hid hw hnot)) hpumps)

lemma Midway.turn (h : Midway K peer remote opened differing w (t, e) g)
    (hkeeps : KeepsPlace peer ⟨w, opened, differing⟩ (t, e)) :
    Outcome peer remote opened (found peer differing e) e (w.step K (t, e)).books := by
  have hturn : Books.Turn e (report e w.books) (w.step K (t, e)).books :=
    @step_turn K w (t, e)
  have hg : (report e w.books).agenda peer = some g := h.agenda
  obtain ⟨s, hs, rfl⟩ := h.session
  generalize (w.step K (t, e)).books = x' at hturn ⊢
  cases hturn with
  | same _ hd =>
    rw [found_quiet hd]
    exact Outcome.aside h.reported hg aside_refl
  | @start _ _ p _ hd hnew =>
    rw [found_quiet hd]
    have hp : p ≠ peer := by
      rintro rfl
      exact absurd (hg.symm.trans hnew) nofun
    exact Outcome.aside h.reported hg (aside_start hp)
  | @closed p connection =>
    by_cases hp : p = peer
    · subst hp
      exact .inr ⟨.inr ⟨connection, rfl⟩, Books.put_agenda,
        h.reported.within.distinct, h.reported.within.finite⟩
    · exact Outcome.aside h.reported hg (aside_drop hp)
  | expired ps =>
    obtain ⟨hdues, hsame | hnone, -⟩ := @dropAll_aside peer (report .snapshotTick w.books) ps
    · exact .inl (resting_some (hsame.trans hg) (h.reported.of_dues hdues))
    · exact .inr ⟨.inl rfl, hnone, (h.reported.of_dues hdues).within⟩
  | ignored => exact Outcome.aside h.reported hg aside_refl
  | compared hl => exact h.compared hl
  | @oversized p id response pending _ hl hover =>
    by_cases hp : p = peer
    · subst hp
      obtain ⟨request, now, hsent, rfl⟩ := h.honest.answers id response rfl
      exact absurd (answer_bounds (h.traced.plain _ hsent)) hover
    · exact Outcome.aside h.reported hg (aside_settle hp)
  | settled hl _ hjob hq hpumps => exact h.settled hl hjob hq hpumps
  | @failed p id _ _ hpumps =>
    have hp : p ≠ peer := fun heq => h.honest.reachable id (heq ▸ rfl)
    exact Outcome.aside h.reported hg ((aside_settle hp).trans (aside_pumps hp hpumps))
  | @inventoryCompared p id differing' _ _ hpumps =>
    by_cases hp : p = peer
    · subst hp
      rw [found_self]
      exact h.inventoryCompared (hkeeps rfl s hs) hpumps
    · rw [found_other hp]
      exact Outcome.aside h.reported hg ((aside_put hp).trans (aside_pumps hp hpumps))
  | @idsCompared p id bucket missing nextCursor _ _ hpumps =>
    by_cases hp : p = peer
    · subst hp
      exact h.idsCompared (fun hnext => hkeeps rfl hnext s hs) hpumps
    · exact Outcome.aside h.reported hg (((aside_put hp).trans (aside_fetch hp)).trans
        ((aside_goOn hp).trans (aside_pumps hp hpumps)))

/-- The peer still has no session, and was at most asked for records. -/
def Absent (peer : PeerId) (opened : RequestId) (x : Books) : Prop :=
  x.agenda peer = none ∧ (requestsTo peer opened x.sent = [] ∨
    ∃ ids, requestsTo peer opened x.sent = [(opened, .getRecords ids)])

lemma Absent.within (h : Absent peer opened x) : Within peer remote opened x := by
  rcases h.2 with hrequests | ⟨ids, hrequests⟩
  · constructor <;> rw [hrequests]
    · exact .nil
    · exact Nat.zero_le _
  · constructor <;> rw [hrequests]
    · exact .nil
    · exact (Nat.succ_le_succ (Nat.zero_le opened)).trans (Nat.le_add_left _ _)

lemma Absent.aside (h : Absent peer opened x) (haside : Aside peer opened x x') :
    Absent peer opened x' := by
  unfold Absent
  rw [haside.agenda, haside.requests]
  exact h

lemma requests_fresh (htraced : Traced K peer remote x) : requestsTo peer x.next x.sent = [] := by
  refine List.eq_nil_iff_forall_not_mem.mpr ?_
  rintro ⟨id, r⟩ hmem
  obtain ⟨hsent, hle⟩ := mem_requestsTo.mp hmem
  exact absurd (htraced.fresh _ hsent) (not_lt.mpr hle)

lemma pumps_absent (h : x.agenda p = none) (hpumps : Books.Pumps p x x') : x' = x := by
  cases hpumps with
  | idle => rfl
  | wait hsome => exact absurd (h.symm.trans hsome) nofun
  | finish hsome => exact absurd (h.symm.trans hsome) nofun
  | next hsome => exact absurd (h.symm.trans hsome) nofun

lemma Absent.amend (h : Absent peer opened x) : Absent peer opened (x.amend peer f) :=
  ⟨by rw [Books.amend_agenda, h.1]; rfl, h.2⟩

lemma Absent.settle (h : Absent peer opened x) :
    Absent peer opened ((x.take id).settle peer id) := Absent.amend (x := x.take id) h

lemma Absent.pumps (h : Absent peer opened x) (hpumps : Books.Pumps peer x x') :
    Absent peer opened x' := by
  rw [pumps_absent h.1 hpumps]
  exact h

lemma Absent.goOn (h : Absent peer opened x) :
    Absent peer opened (x.goOn peer bucket nextCursor) := by
  unfold Books.goOn Books.continueBucket
  rw [h.1]
  split
  · exact h
  · exact h

lemma absent_fetch (hnone : x.agenda peer = none) (htraced : Traced K peer remote x) :
    Absent peer x.next (x.fetch peer missing) := by
  unfold Books.fetch
  split_ifs
  · refine ⟨?_, .inr ⟨missing, ?_⟩⟩
    · rw [Books.ask_agenda, hnone]
      rfl
    · rw [show requestsTo peer x.next (x.ask peer (.getRecords missing)).sent = _ from
        requestsTo_send le_rfl, requests_fresh htraced]
      rfl
  · exact ⟨hnone, .inl (requests_fresh htraced)⟩

lemma absent_turn (htraced : Traced K peer remote x) (hagenda : x.agenda peer = none)
    (hturn : Books.Turn e (report e x) x') :
    Absent peer x.next x' ∨ x' = (report e x).start peer := by
  have hreport : Traced K peer remote (report e x) := htraced.report
  have h : Absent peer x.next (report e x) := ⟨hagenda, .inl (requests_fresh htraced)⟩
  cases hturn with
  | same => exact .inl h
  | @start _ _ p =>
    by_cases hp : p = peer
    · exact .inr (hp ▸ rfl)
    · exact .inl (h.aside (aside_start hp))
  | @closed p =>
    by_cases hp : p = peer
    · subst hp
      exact .inl ⟨Books.put_agenda, h.2⟩
    · exact .inl (h.aside (aside_drop hp))
  | expired ps =>
    obtain ⟨hdues, hnone, -⟩ := @dropAll_aside peer (report .snapshotTick x) ps
    refine .inl ⟨hnone.elim (fun hsame => hsame.trans h.1) fun hnone => hnone, ?_⟩
    rw [hdues]
    exact h.2
  | ignored => exact .inl h
  | compared => exact .inl h
  | @oversized p =>
    by_cases hp : p = peer
    · subst hp
      exact .inl h.amend
    · exact .inl (h.aside (aside_settle hp))
  | @settled _ _ _ _ p _ _ _ _ _ _ hpumps =>
    by_cases hp : p = peer
    · subst hp
      exact .inl (Absent.pumps h.settle hpumps)
    · exact .inl (h.aside ((aside_settle hp).trans (aside_pumps hp hpumps)))
  | @failed p _ _ _ hpumps =>
    by_cases hp : p = peer
    · subst hp
      exact .inl (Absent.pumps h.settle hpumps)
    · exact .inl (h.aside ((aside_settle hp).trans (aside_pumps hp hpumps)))
  | @inventoryCompared p _ _ _ _ hpumps =>
    by_cases hp : p = peer
    · subst hp
      exact .inl (Absent.pumps h.amend hpumps)
    · exact .inl (h.aside ((aside_put hp).trans (aside_pumps hp hpumps)))
  | @idsCompared p id _ _ _ _ _ hpumps =>
    by_cases hp : p = peer
    · subst hp
      have hsettled : Absent p x.next ((report _ x).settle p id) := h.amend
      exact .inl (Absent.pumps (absent_fetch hsettled.1 hreport.amend).goOn hpumps)
    · exact .inl (h.aside (((aside_put hp).trans (aside_fetch hp)).trans
        ((aside_goOn hp).trans (aside_pumps hp hpumps))))

lemma start_resting (htraced : Traced K peer remote x)
    (hgiven : expected peer x.toDues ⊆ Finset.range x.next) :
    Resting peer remote x.next [] (x.start peer) := by
  refine resting_some (g := ⟨[], {x.next}⟩) Books.put_agenda ?_
  have hsent : requestsTo peer x.next (x.start peer).sent = [(x.next, .getInventory)] := by
    rw [show requestsTo peer x.next (x.start peer).sent = _ from requestsTo_send le_rfl,
      requests_fresh htraced]
    rfl
  constructor
  · rw [hsent]
    exact stands_opened
  · have hcard : (expected peer (x.start peer).toDues \ {x.next}).card ≤ x.next := by
      refine (Finset.card_le_card fun id hid => hgiven ?_).trans_eq (Finset.card_range _)
      obtain ⟨hmem, hne⟩ := Finset.mem_sdiff.mp hid
      rw [show expected peer (x.start peer).toDues = _ from expected_send] at hmem
      exact (Finset.mem_insert.mp hmem).resolve_left (Finset.notMem_singleton.mp hne)
    unfold Frugal
    rw [hsent]
    change 1 + 0 + (expected peer (x.start peer).toDues \ {x.next}).card ≤ 0 + (x.next + 1)
    omega

variable {j : Journey} {t : Clock × Event}

structure Placed (K : Primitives) (peer : PeerId) (remote : SignatureDatabase) (j : Journey) :
    Prop where
  kept : Kept j.ledger.books
  awaited : Awaited j.ledger.books
  busy : Busy (· ≠ peer) j.ledger.books
  traced : Traced K peer remote j.ledger.books
  live : ∀ g ∈ j.ledger.books.agenda peer,
    Live peer remote j.opened j.differing j.ledger.books g.outstanding g.buckets

lemma Placed.outstanding (h : Placed K peer remote j) (hg : j.ledger.books.agenda peer = some g) :
    g.outstanding ≠ ∅ := (h.busy peer g hg).resolve_right (not_not.mpr rfl)

lemma live_eq : j.live peer = (j.ledger.books.agenda peer).isSome := Option.isSome_map.symm

lemma Placed.outcome (h : Placed K peer remote j) (hhonest : Honest K peer remote j.ledger t)
    (hkeeps : KeepsPlace peer j t) :
    Resting peer remote (j.step K peer t).opened (j.step K peer t).differing
        (j.step K peer t).ledger.books ∨
      (j.live peer = true → Departs peer t.2) ∧
        (j.step K peer t).ledger.books.agenda peer = none ∧
        Within peer remote (j.step K peer t).opened (j.step K peer t).ledger.books := by
  unfold Journey.step
  dsimp only
  rcases hg : j.ledger.books.agenda peer with _ | g
  · rw [live_eq, hg]
    rcases absent_turn h.traced hg step_turn with habsent | hstart
    · exact .inr ⟨nofun, habsent.1, habsent.within⟩
    · refine .inl ?_
      rw [hstart]
      exact start_resting h.traced.report (expected_report.trans (expected_lt h.kept))
  · rw [live_eq, hg]
    have hsession := h.live g hg
    have hmidway : Midway K peer remote j.opened j.differing j.ledger t g :=
      ⟨h.kept, h.traced, hsession.given h.traced (h.outstanding hg), hsession, hg, hhonest⟩
    rcases hmidway.turn hkeeps with hresting | ⟨hdeparts, hnone, hwithin⟩
    · exact .inl hresting
    · exact .inr ⟨fun _ => hdeparts, hnone, hwithin⟩

lemma placed_step (h : Placed K peer remote j) (hhonest : Honest K peer remote j.ledger t)
    (hkeeps : KeepsPlace peer j t) : Placed K peer remote (j.step K peer t) where
  kept := kept_step h.kept hhonest.owed
  awaited := h.awaited.turn h.kept hhonest.owed step_turn
  busy := by
    refine h.busy.turn step_turn fun p id response pending he _ hover => .inr ?_
    rintro rfl
    obtain ⟨request, now, hsent, rfl⟩ := hhonest.answers id response he
    exact hover (answer_bounds (h.traced.plain _ hsent))
  traced := h.traced.turn h.kept hhonest.owed hhonest.answers step_turn
  live g hg := by
    rcases h.outcome hhonest hkeeps with hresting | ⟨-, hnone, -⟩
    · unfold Resting at hresting
      rwa [show (j.step K peer t).ledger.books.agenda peer = some g from hg] at hresting
    · exact absurd (hnone.symm.trans hg) nofun

lemma placed_start {identity : PeerId} {replay : ReplayState} {mode : Bool} {reason : Option String}
    {now : ℕ} : Placed K peer remote (.start identity replay mode reason now) where
  kept := kept_start
  awaited p g hg := by cases hg
  busy p g hg := by cases hg
  traced := ⟨.nil, nofun, nofun, nofun, nofun⟩
  live g hg := by cases hg

/-- A session that has nothing left to do has reached every page. -/
lemma reached_of_live (h : Live peer remote j.opened j.differing j.ledger.books ∅ []) :
    Reached peer j where
  begun bucket hb := by
    obtain ⟨id, hid⟩ := mem_pages.mp (h.stands.walk.all_begun bucket hb)
    obtain ⟨request, hmem, hpage⟩ := mem_pageLog.mp hid
    cases request with
    | getInventory => cases hpage
    | getRecords => cases hpage
    | getRecordIds b c limit =>
      obtain ⟨rfl, rfl⟩ := Prod.mk.inj (Option.some.inj hpage)
      exact ⟨id, limit, hmem⟩
  followed id bucket cursor limit hmem := by
    obtain ⟨nextCursor, ⟨ids, hids⟩, hnext⟩ := h.stands.walk.followed bucket cursor id
      (mem_pageLog.mpr ⟨_, hmem, rfl⟩) (Finset.notMem_empty id)
    refine ⟨ids, nextCursor, hids, fun c hc => ?_⟩
    obtain ⟨id', hid'⟩ := mem_pages.mp (hnext c hc)
    obtain ⟨request, hmem', hpage⟩ := mem_pageLog.mp hid'
    cases request with
    | getInventory => cases hpage
    | getRecords => cases hpage
    | getRecordIds b c' limit' =>
      obtain ⟨rfl, rfl⟩ := Prod.mk.inj (Option.some.inj hpage)
      exact ⟨id', limit', hmem'⟩

lemma Placed.inPlace (h : Placed K peer remote j) (hhonest : Honest K peer remote j.ledger t)
    (hkeeps : KeepsPlace peer j t) : InPlace K peer remote j t := by
  have houtcome := h.outcome hhonest hkeeps
  have hnext := placed_step h hhonest hkeeps
  have hwithin : Within peer remote (j.step K peer t).opened (j.step K peer t).ledger.books :=
    houtcome.elim (fun hresting => hresting.within) fun hgone => hgone.2.2
  refine ⟨hwithin.distinct, hwithin.finite, fun s hs => ?_, fun hlive hgone htick hclosed => ?_⟩
  · have hg : (j.step K peer t).ledger.books.agenda peer = some s.agenda := congrArg (Option.map _) hs
    obtain ⟨id, hid⟩ := Finset.nonempty_iff_ne_empty.mpr (hnext.outstanding hg)
    refine ⟨id, hid, (hnext.awaited peer _ hg id hid).imp_left ?_⟩
    rintro ⟨pending, hp, rfl⟩
    exact hnext.kept.pending id pending hp
  · have hnone : (j.step K peer t).ledger.books.agenda peer = none := by
      rw [live_eq, Option.isSome_eq_false_iff, Option.isNone_iff_eq_none] at hgone
      exact hgone
    rcases houtcome with hresting | ⟨hdeparts, -, -⟩
    · unfold Resting at hresting
      rw [hnone] at hresting
      exact reached_of_live hresting
    · rcases hdeparts hlive with hdeparts | ⟨connection, hdeparts⟩
      · exact absurd hdeparts htick
      · exact absurd hdeparts (hclosed connection)

/-- In a run with an honest peer in which results are of the session's own requests and every page
with a successor finds a free request for it, no session loses its place. -/
theorem sessions_keep_place (K : Primitives) (peer : PeerId) (remote : SignatureDatabase)
    (identity : PeerId) (replay : ReplayState) (mode : Bool) (reason : Option String) (now : ℕ)
    (es : List (Clock × Event))
    (hhonest : Along (Journey.step K peer) (fun j => Honest K peer remote j.ledger)
      (.start identity replay mode reason now) es)
    (hkeeps : Along (Journey.step K peer) (KeepsPlace peer)
      (.start identity replay mode reason now) es) :
    Along (Journey.step K peer) (InPlace K peer remote)
      (.start identity replay mode reason now) es :=
  along_of_invariant placed_start (hhonest.and hkeeps)
    (fun _ _ h hstep => placed_step h hstep.1 hstep.2)
    fun _ _ h hstep => h.inPlace hstep.1 hstep.2

/-- The peer has 4001 records of one day, of which the node has none. -/
def bigStock : SignatureDatabase :=
  stock (List.range 4001) List.nodup_range fun _ hi => (List.mem_range.mp hi).trans (by decide)

/-- The pages of the bucket, as they are answered. -/
def pageBehind (cursor : Option RecordId) : List RecordId × Option RecordId :=
  page MAX_IDS_PER_RESPONSE (listedIds bigStock 0 cursor 0)

def missingOf (ids : List RecordId) : List RecordId :=
  missingIds (SignatureDatabase.open false) ids 0

def answered (id : RequestId) (request : SyncRequest) : Event :=
  .syncResponse samplePeer id (answer stockPrimitives bigStock request 0)

def compared (id : RequestId) (job : Job) : Event :=
  .dbAction (resultOf stockPrimitives (SignatureDatabase.open false) samplePeer id 0 job)

def firstPage : List RecordId × Option RecordId := pageBehind none

def secondPage : List RecordId × Option RecordId := pageBehind firstPage.2

/-- The session up to the answer with the second page. -/
def outset : List (Clock × Event) :=
  atOnce [.connectionEstablished samplePeer (.listener [.ip4 ⟨1, 2, 3, 4⟩, .tcp 4001]) 1 1,
    answered 0 .getInventory,
    compared 0 (.inventory (inventory stockPrimitives bigStock 0)),
    answered 1 (pageRequest 0 none),
    compared 1 (.ids 0 firstPage.1 firstPage.2),
    answered 3 (pageRequest 0 firstPage.2)]

/-- The first records come when the second page has been compared. -/
def restart : List (Clock × Event) :=
  outset ++ atOnce [compared 3 (.ids 0 secondPage.1 secondPage.2),
    answered 2 (.getRecords (missingOf firstPage.1))]

lemma page_behind {cursor : Option RecordId}
    (h : MAX_IDS_PER_RESPONSE < (listedIds bigStock 0 cursor 0).length) :
    (pageBehind cursor).1.length = MAX_IDS_PER_RESPONSE ∧ ∃ c, (pageBehind cursor).2 = some c := by
  unfold pageBehind
  exact page_full h (by decide)

lemma firstPage_full :
    firstPage.1.length = MAX_IDS_PER_RESPONSE ∧ ∃ c, firstPage.2 = some c := by
  unfold firstPage
  refine page_behind ?_
  rw [bigStock, length_listedIds_stock, List.length_range]
  decide

lemma secondPage_full :
    secondPage.1.length = MAX_IDS_PER_RESPONSE ∧ ∃ c, secondPage.2 = some c := by
  unfold secondPage
  refine page_behind ?_
  obtain ⟨-, c, hc⟩ := firstPage_full
  have hat : AtPage idNumber (listedIds bigStock 0 none 0) MAX_IDS_PER_RESPONSE 1 (some c) :=
    atPage_start.next listedIds_sorted (by decide) hc
  rw [listedIds_following, hc, hat, List.length_drop, bigStock, length_listedIds_stock,
    List.length_range]
  decide

/-- A lookup of a full page fails, so its first ids count as missing. -/
lemma missing_ne {ids : List RecordId} (h : ids.length = MAX_IDS_PER_RESPONSE) :
    missingOf ids ≠ [] := by
  have hlong : MAX_REQUESTED_RECORDS < ids.length := h ▸ (by decide)
  have hpos : 0 < MAX_REQUESTED_RECORDS := by decide
  unfold missingOf
  rw [missingIds_long hlong]
  refine List.ne_nil_of_length_pos ?_
  rw [List.length_take_of_le hlong.le]
  exact hpos

structure At (x : Books) (g : Agenda) (n : RequestId) (requests : List (RequestId × SyncRequest))
    (asks compares : List RequestId) (results : List (RequestId × Job)) : Prop where
  agenda : x.agenda samplePeer = some g
  next : x.next = n
  sent : x.sent = requests.map fun s => (s.1, samplePeer, s.2)
  asked : ∀ id ∈ asks, (id, samplePeer) ∈ x.asked
  comparing : ∀ id ∈ compares, (id, samplePeer) ∈ x.comparing
  jobs : ∀ r ∈ results, (r.1, samplePeer, r.2) ∈ x.jobs

variable {asks compares : List RequestId} {results : List (RequestId × Job)}
  {outstanding : Finset RequestId}

lemma At.mem_sent (h : At x g n requests asks compares results) (hid : (id, request) ∈ requests) :
    (id, samplePeer, request) ∈ x.sent := by
  rw [h.sent]
  exact List.mem_map.mpr ⟨_, hid, rfl⟩

lemma At.amend (h : At x g n requests asks compares results) :
    At (x.amend samplePeer f) (f g) n requests asks compares results where
  agenda := by
    rw [Books.amend_agenda, h.agenda]
    rfl
  next := h.next
  sent := h.sent
  asked := h.asked
  comparing := h.comparing
  jobs := h.jobs

lemma At.ask (h : At x g n requests asks compares results) :
    At (x.ask samplePeer request) (g.await n) (n + 1) (requests ++ [(n, request)]) (n :: asks)
      compares results where
  agenda := by
    rw [Books.ask_agenda, h.agenda, h.next]
    rfl
  next := congrArg (· + 1) h.next
  sent := by
    rw [show (x.ask samplePeer request).sent = x.sent ++ [(x.next, samplePeer, request)] from rfl,
      h.sent, h.next, List.map_append]
    rfl
  asked id hid := by
    rcases List.mem_cons.mp hid with rfl | hid
    · exact h.next ▸ Finset.mem_insert_self _ _
    · exact Finset.mem_insert_of_mem (h.asked id hid)
  comparing := h.comparing
  jobs := h.jobs

lemma At.compare (h : At x g n requests asks compares results) :
    At ((x.take id).compare id samplePeer job) g n requests asks (id :: compares)
      ((id, job) :: results) where
  agenda := h.agenda
  next := h.next
  sent := h.sent
  asked := h.asked
  comparing i hi := by
    rcases List.mem_cons.mp hi with rfl | hi
    · exact Finset.mem_insert_self _ _
    · exact Finset.mem_insert_of_mem (h.comparing i hi)
  jobs r hr := by
    rcases List.mem_cons.mp hr with rfl | hr
    · exact List.mem_append_right _ (List.mem_singleton_self _)
    · exact List.mem_append_left _ (h.jobs r hr)

lemma At.heard (h : At x g n requests asks compares results) :
    At (report (answered id request) x) g n requests (asks.filter (· ≠ id)) compares results where
  agenda := h.agenda
  next := h.next
  sent := h.sent
  asked i hi := by
    obtain ⟨hi, hne⟩ := List.mem_filter.mp hi
    refine Finset.mem_sdiff.mpr ⟨h.asked i hi, fun hmem => ?_⟩
    exact of_decide_eq_true hne (Prod.mk.inj (Finset.mem_singleton.mp hmem)).1
  comparing i hi := Finset.mem_sdiff.mpr ⟨h.comparing i hi, Finset.notMem_empty _⟩
  jobs := h.jobs

lemma delivered_compared : (compared id job).delivered = {(id, samplePeer)} := by
  cases job <;> rfl

lemma answered_compared : (compared id job).answered = ∅ := by
  cases job <;> rfl

lemma At.delivered (h : At x g n requests asks compares results) :
    At (report (compared id job) x) g n requests asks (compares.filter (· ≠ id)) results where
  agenda := h.agenda
  next := h.next
  sent := h.sent
  asked i hi := by
    refine Finset.mem_sdiff.mpr ⟨h.asked i hi, ?_⟩
    rw [answered_compared]
    exact Finset.notMem_empty _
  comparing i hi := by
    obtain ⟨hi, hne⟩ := List.mem_filter.mp hi
    refine Finset.mem_sdiff.mpr ⟨h.comparing i hi, fun hmem => ?_⟩
    rw [delivered_compared, Finset.mem_singleton] at hmem
    exact of_decide_eq_true hne (Prod.mk.inj hmem).1
  jobs := h.jobs

lemma pumps_busy (hg : x.agenda samplePeer = some g) (hbusy : g.outstanding ≠ ∅)
    (hstop : g.buckets = [] ∨ MAX_PENDING_SYNC_REQUESTS_PER_PEER ≤ g.outstanding.card)
    (hpumps : Books.Pumps samplePeer x x') : x' = x := by
  cases hpumps with
  | idle => rfl
  | wait => rfl
  | finish hdone =>
    obtain rfl := Option.some.inj (hdone.symm.trans hg)
    exact absurd rfl hbusy
  | next hagenda hroom =>
    obtain rfl := Option.some.inj (hagenda.symm.trans hg)
    exact absurd hroom (not_lt.mpr (hstop.resolve_left nofun))

lemma At.pumps (h : At x ⟨[bucket], outstanding⟩ n requests asks compares results)
    (hroom : outstanding.card < MAX_PENDING_SYNC_REQUESTS_PER_PEER)
    (hpumps : Books.Pumps samplePeer x x') :
    At x' ⟨[], insert n outstanding⟩ (n + 1) (requests ++ [(n, pageRequest bucket none)])
      (n :: asks) compares results := by
  have hasked : At ((x.amend samplePeer fun g => { g with buckets := [] }).ask samplePeer
      (pageRequest bucket none)) ⟨[], insert n outstanding⟩ (n + 1)
        (requests ++ [(n, pageRequest bucket none)]) (n :: asks) compares results :=
    h.amend.ask
  cases hpumps with
  | idle hnone => exact absurd (hnone.symm.trans h.agenda) nofun
  | wait hsome _ hstop =>
    obtain rfl := Option.some.inj (hsome.symm.trans h.agenda)
    exact absurd hroom (not_lt.mpr (hstop.resolve_left nofun))
  | finish hdone => exact absurd (hdone.symm.trans h.agenda) nofun
  | next hagenda _ hrest =>
    obtain ⟨hbuckets, -⟩ := Agenda.mk.inj (Option.some.inj (hagenda.symm.trans h.agenda))
    obtain ⟨rfl, rfl⟩ := List.cons.inj hbuckets
    rw [pumps_busy hasked.agenda (Finset.insert_ne_empty _ _) (.inl rfl) hrest]
    exact hasked

lemma At.handed (h : At (report (answered id request) x) g n requests asks compares results)
    (hl : x.pending.lookup id = some (pendingOf samplePeer request))
    (hbounds : (answer stockPrimitives bigStock request 0).validateBounds = .ok ())
    (hjob : (pendingOf samplePeer request).job? (answer stockPrimitives bigStock request 0) =
      some job)
    (hturn : Books.Turn (answered id request)
      (report (answered id request) x) x') :
    At x' g n requests asks (id :: compares) ((id, job) :: results) := by
  generalize hx : report (answered id request) x = y at h hturn
  have hly : y.pending.lookup id = some (pendingOf samplePeer request) := hx ▸ hl
  cases hturn with
  | same ha => exact absurd ha (Finset.singleton_ne_empty _)
  | start ha => exact absurd ha (Finset.singleton_ne_empty _)
  | ignored hnone => exact absurd (hnone.symm.trans hly) nofun
  | compared hl' _ hjob' =>
    obtain rfl := Option.some.inj (hl'.symm.trans hly)
    obtain rfl := Option.some.inj (hjob'.symm.trans hjob)
    rw [peer_pendingOf]
    exact h.compare
  | oversized _ hover => exact absurd hbounds hover
  | settled hl' _ hnone =>
    obtain rfl := Option.some.inj (hl'.symm.trans hly)
    exact absurd (hnone.symm.trans hjob) nofun

lemma At.settled (h : At (report (answered id request) x) g n requests asks compares results)
    (hl : x.pending.lookup id = some (pendingOf samplePeer request))
    (hbounds : (answer stockPrimitives bigStock request 0).validateBounds = .ok ())
    (hjob : (pendingOf samplePeer request).job? (answer stockPrimitives bigStock request 0) = none)
    (hturn : Books.Turn (answered id request) (report (answered id request) x) x') :
    ∃ y, At y (g.settle id) n requests asks compares results ∧ Books.Pumps samplePeer y x' := by
  generalize hx : report (answered id request) x = y at h hturn
  have hly : y.pending.lookup id = some (pendingOf samplePeer request) := hx ▸ hl
  have hsettled : At ((y.take id).settle samplePeer id) (g.settle id) n requests asks compares
      results := At.amend (x := y.take id) ⟨h.agenda, h.next, h.sent, h.asked, h.comparing, h.jobs⟩
  cases hturn with
  | same ha => exact absurd ha (Finset.singleton_ne_empty _)
  | start ha => exact absurd ha (Finset.singleton_ne_empty _)
  | ignored hnone => exact absurd (hnone.symm.trans hly) nofun
  | compared hl' _ hjob' =>
    obtain rfl := Option.some.inj (hl'.symm.trans hly)
    exact absurd (hjob.symm.trans hjob') nofun
  | oversized _ hover => exact absurd hbounds hover
  | settled hl' _ _ hq hpumps =>
    obtain rfl := Option.some.inj (hl'.symm.trans hly)
    rw [hq.elim (fun hq => hq.trans peer_pendingOf) fun hq => hq] at hpumps
    exact ⟨_, hsettled, hpumps⟩

lemma turn_inventoryCompared {differing : List Int64}
    (hturn : Books.Turn (.dbAction (.inventoryCompared samplePeer id differing)) x x') :
    Books.Pumps samplePeer (x.amend samplePeer fun g => ⟨differing, g.outstanding.erase id⟩) x' := by
  cases hturn with
  | same _ hd => exact absurd hd (Finset.singleton_ne_empty _)
  | start _ hd => exact absurd hd (Finset.singleton_ne_empty _)
  | inventoryCompared hpumps => exact hpumps

lemma turn_idsCompared
    (hturn : Books.Turn (.dbAction (.idsCompared samplePeer id bucket missing nextCursor)) x x') :
    Books.Pumps samplePeer
      (((x.settle samplePeer id).fetch samplePeer missing).goOn samplePeer bucket nextCursor) x' := by
  cases hturn with
  | same _ hd => exact absurd hd (Finset.singleton_ne_empty _)
  | start _ hd => exact absurd hd (Finset.singleton_ne_empty _)
  | idsCompared hpumps => exact hpumps

lemma At.fetched (h : At x g n requests asks compares results) (hmissing : missing ≠ []) :
    At ((x.settle samplePeer id).fetch samplePeer missing) ((g.settle id).await n) (n + 1)
      (requests ++ [(n, .getRecords missing)]) (n :: asks) compares results := by
  have hsettled : At (x.settle samplePeer id) (g.settle id) n requests asks compares results :=
    h.amend
  unfold Books.fetch
  rw [if_pos hmissing]
  exact hsettled.ask

/-- The next page is asked for when a request is free for it. -/
lemma At.continued {c : RecordId} (h : At x g n requests asks compares results)
    (hroom : g.outstanding.card < MAX_PENDING_SYNC_REQUESTS_PER_PEER) :
    At (x.goOn samplePeer bucket (some c)) (g.await n) (n + 1)
      (requests ++ [(n, pageRequest bucket (some c))]) (n :: asks) compares results := by
  have hgo : x.goOn samplePeer bucket (some c) = x.ask samplePeer (pageRequest bucket (some c)) := by
    unfold Books.goOn Books.continueBucket
    dsimp only
    rw [h.agenda]
    exact if_pos hroom
  rw [hgo]
  exact h.ask

/-- Otherwise the bucket is queued again, without the cursor. -/
lemma At.requeued {c : RecordId} (h : At x g n requests asks compares results)
    (hfull : MAX_PENDING_SYNC_REQUESTS_PER_PEER ≤ g.outstanding.card) :
    At (x.goOn samplePeer bucket (some c)) { g with buckets := bucket :: g.buckets } n requests asks
      compares results := by
  have hgo : x.goOn samplePeer bucket (some c) =
      x.amend samplePeer fun g => { g with buckets := bucket :: g.buckets } := by
    unfold Books.goOn Books.continueBucket
    dsimp only
    rw [h.agenda]
    exact if_neg (not_lt.mpr hfull)
  rw [hgo]
  exact h.amend

structure Seen (j : Journey) (g : Agenda) (n : RequestId)
    (requests : List (RequestId × SyncRequest)) (asks compares : List RequestId)
    (results : List (RequestId × Job)) : Prop where
  kept : Kept j.ledger.books
  awaited : Awaited j.ledger.books
  traced : Traced stockPrimitives samplePeer bigStock j.ledger.books
  opened : j.opened = 0
  here : At j.ledger.books g n requests asks compares results

lemma Seen.honest_answered (h : Seen j g n requests asks compares results)
    (hid : (id, request) ∈ requests) (hopen : id ∈ asks) :
    Honest stockPrimitives samplePeer bigStock j.ledger (.still 0 0, answered id request) where
  owed := ⟨Finset.singleton_subset_iff.mpr (h.here.asked id hopen), Finset.empty_subset _⟩
  answers id' response heq := by
    obtain ⟨-, rfl, rfl⟩ := Event.syncResponse.inj heq
    exact ⟨request, 0, h.here.mem_sent hid, rfl⟩
  reachable _ := nofun
  compares _ := nofun

lemma Seen.honest_compared (h : Seen j g n requests asks compares results)
    (hid : (id, job) ∈ results) (hopen : id ∈ compares) :
    Honest stockPrimitives samplePeer bigStock j.ledger (.still 0 0, compared id job) where
  owed := by
    refine ⟨?_, ?_⟩
    · rw [answered_compared]
      exact Finset.empty_subset _
    · rw [delivered_compared]
      exact Finset.singleton_subset_iff.mpr (h.here.comparing id hopen)
  answers _ _ := nofun
  reachable _ := nofun
  compares action heq id' hid' := by
    rw [delivered_compared, Finset.mem_singleton] at hid'
    obtain ⟨rfl, -⟩ := Prod.mk.inj hid'
    exact ⟨job, SignatureDatabase.open false, 0, h.here.jobs _ hid, (Event.dbAction.inj heq).symm⟩

lemma Seen.pending (h : Seen j g n requests asks compares results)
    (hid : (id, request) ∈ requests) (hopen : id ∈ asks) (hw : id ∈ g.outstanding) :
    j.ledger.books.pending.lookup id = some (pendingOf samplePeer request) := by
  rcases h.awaited samplePeer g h.here.agenda id hw with ⟨pending, hp, hpeer⟩ | hc
  · obtain ⟨request', hsent, heq⟩ := h.traced.pending id pending hp
    obtain ⟨-, hsame⟩ := h.traced.unique hsent (h.here.mem_sent hid)
    rw [hpeer, hsame] at heq
    exact heq ▸ hp
  · exact absurd (h.here.asked id hopen) (h.kept.apart id samplePeer samplePeer hc)

lemma Seen.bounds (h : Seen j g n requests asks compares results) (hid : (id, request) ∈ requests) :
    (answer stockPrimitives bigStock request 0).validateBounds = .ok () :=
  answer_bounds (h.traced.plain _ (h.here.mem_sent hid))

lemma seen_step {g' : Agenda} {n' : RequestId} {requests' : List (RequestId × SyncRequest)}
    {asks' compares' : List RequestId} {results' : List (RequestId × Job)}
    (h : Seen j g n requests asks compares results)
    (hhonest : Honest stockPrimitives samplePeer bigStock j.ledger (.still 0 0, e))
    (hat : At (j.ledger.step stockPrimitives (.still 0 0, e)).books g' n' requests' asks' compares'
      results') :
    Seen (j.step stockPrimitives samplePeer (.still 0 0, e)) g' n' requests' asks' compares'
      results' := by
  refine ⟨kept_step h.kept hhonest.owed, h.awaited.turn h.kept hhonest.owed step_turn,
    h.traced.turn h.kept hhonest.owed hhonest.answers step_turn, ?_, hat⟩
  unfold Journey.step
  dsimp only
  rw [live_eq, h.here.agenda]
  exact h.opened

lemma Seen.sent (h : Seen j g n requests asks compares results) :
    j.requests samplePeer = requests := by
  unfold Journey.requests requestsTo
  rw [h.opened, show j.ledger.sent = _ from h.here.sent, List.filter_eq_self.mpr]
  · rw [List.map_map]
    exact List.map_id requests
  · rintro s hs
    obtain ⟨r, -, rfl⟩ := List.mem_map.mp hs
    simp

lemma seen_handed (h : Seen j g n requests asks compares results) (hid : (id, request) ∈ requests)
    (hopen : id ∈ asks) (hw : id ∈ g.outstanding)
    (hjob : (pendingOf samplePeer request).job? (answer stockPrimitives bigStock request 0) =
      some job) :
    Honest stockPrimitives samplePeer bigStock j.ledger (.still 0 0, answered id request) ∧
      Seen (j.step stockPrimitives samplePeer (.still 0 0, answered id request)) g n requests
        (asks.filter (· ≠ id)) (id :: compares) ((id, job) :: results) := by
  have hhonest := h.honest_answered hid hopen
  have hat := h.here.heard.handed (h.pending hid hopen hw) (h.bounds hid) hjob
    (@step_turn stockPrimitives j.ledger (.still 0 0, answered id request))
  exact ⟨hhonest, seen_step h hhonest hat⟩

/-- The bucket differs, and its first page is asked for. -/
lemma seen_inventory (h : Seen j ⟨[], {0}⟩ 1 requests asks compares results)
    (hid : (0, .inventory (inventory stockPrimitives bigStock 0)) ∈ results)
    (hopen : 0 ∈ compares) :
    Honest stockPrimitives samplePeer bigStock j.ledger
        (.still 0 0, compared 0 (.inventory (inventory stockPrimitives bigStock 0))) ∧
      Seen (j.step stockPrimitives samplePeer
          (.still 0 0, compared 0 (.inventory (inventory stockPrimitives bigStock 0))))
        ⟨[], {1}⟩ 2 (requests ++ [(1, pageRequest 0 none)]) (1 :: asks) (compares.filter (· ≠ 0))
        results := by
  have hdiffering : differingBuckets (inventory stockPrimitives (SignatureDatabase.open false) 0)
      (inventory stockPrimitives bigStock 0) = [0] :=
    differing_stock_empty (List.mem_range.mpr (by decide : 0 < 4001))
  have hevent : compared 0 (.inventory (inventory stockPrimitives bigStock 0)) =
      .dbAction (.inventoryCompared samplePeer 0 [0]) :=
    congrArg (fun d => Event.dbAction (.inventoryCompared samplePeer 0 d)) hdiffering
  have hhonest := h.honest_compared hid hopen
  have hat := @At.delivered _ 0 _ _ (.inventory (inventory stockPrimitives bigStock 0)) _ _ _ _
    h.here
  rw [hevent] at hhonest hat ⊢
  have hpumps := turn_inventoryCompared (@step_turn stockPrimitives j.ledger
    (.still 0 0, .dbAction (.inventoryCompared samplePeer 0 [0])))
  have hqueued : At ((report (.dbAction (.inventoryCompared samplePeer 0 [0])) j.ledger.books).amend
      samplePeer fun g => ⟨[0], g.outstanding.erase 0⟩) ⟨[0], ∅⟩ 1 requests asks
        (compares.filter (· ≠ 0)) results := hat.amend
  exact ⟨hhonest, seen_step h hhonest (hqueued.pumps (by decide) hpumps)⟩

/-- The missing records of a page are asked for, then the session goes on. -/
lemma seen_page {ids : List RecordId} (h : Seen j g n requests asks compares results)
    (hid : (id, .ids bucket ids nextCursor) ∈ results) (hopen : id ∈ compares)
    (hmissing : missingOf ids ≠ []) :
    Honest stockPrimitives samplePeer bigStock j.ledger
        (.still 0 0, compared id (.ids bucket ids nextCursor)) ∧
      ∃ y, At y ((g.settle id).await n) (n + 1) (requests ++ [(n, .getRecords (missingOf ids))])
          (n :: asks) (compares.filter (· ≠ id)) results ∧
        Books.Pumps samplePeer (y.goOn samplePeer bucket nextCursor) (j.ledger.step stockPrimitives
          (.still 0 0, compared id (.ids bucket ids nextCursor))).books := by
  have hat : At (report (compared id (.ids bucket ids nextCursor)) j.ledger.books) g n requests asks
      (compares.filter (· ≠ id)) results := h.here.delivered
  exact ⟨h.honest_compared hid hopen, _, hat.fetched hmissing, turn_idsCompared
    (@step_turn stockPrimitives j.ledger (.still 0 0, compared id (.ids bucket ids nextCursor)))⟩

/-- Two requests are open after the first page. -/
lemma seen_first (h : Seen j ⟨[], {1}⟩ 2 requests asks compares results)
    (hid : (1, .ids 0 firstPage.1 firstPage.2) ∈ results) (hopen : 1 ∈ compares) :
    Honest stockPrimitives samplePeer bigStock j.ledger
        (.still 0 0, compared 1 (.ids 0 firstPage.1 firstPage.2)) ∧
      Seen (j.step stockPrimitives samplePeer
          (.still 0 0, compared 1 (.ids 0 firstPage.1 firstPage.2)))
        ⟨[], {3, 2}⟩ 4 (requests ++ [(2, .getRecords (missingOf firstPage.1))] ++
          [(3, pageRequest 0 firstPage.2)]) (3 :: 2 :: asks) (compares.filter (· ≠ 1)) results := by
  obtain ⟨hfull, c, hc⟩ := firstPage_full
  obtain ⟨hhonest, y, hat, hpumps⟩ := seen_page h hid hopen (missing_ne hfull)
  refine ⟨hhonest, seen_step h hhonest ?_⟩
  rw [hc] at hpumps ⊢
  have hcontinued := @At.continued _ _ _ 0 _ _ _ _ c hat (by decide)
  rw [pumps_busy hcontinued.agenda (Finset.insert_ne_empty _ _) (.inl rfl) hpumps]
  exact hcontinued

/-- The cursor behind the second page finds no free request. -/
lemma seen_second (h : Seen j ⟨[], {3, 2}⟩ 4 requests asks compares results)
    (hid : (3, .ids 0 secondPage.1 secondPage.2) ∈ results) (hopen : 3 ∈ compares) :
    Honest stockPrimitives samplePeer bigStock j.ledger
        (.still 0 0, compared 3 (.ids 0 secondPage.1 secondPage.2)) ∧
      Seen (j.step stockPrimitives samplePeer
          (.still 0 0, compared 3 (.ids 0 secondPage.1 secondPage.2)))
        ⟨[0], {4, 2}⟩ 5 (requests ++ [(4, .getRecords (missingOf secondPage.1))]) (4 :: asks)
          (compares.filter (· ≠ 3)) results := by
  obtain ⟨hfull, c, hc⟩ := secondPage_full
  obtain ⟨hhonest, y, hat, hpumps⟩ := seen_page h hid hopen (missing_ne hfull)
  refine ⟨hhonest, seen_step h hhonest ?_⟩
  rw [hc] at hpumps ⊢
  have hrequeued := @At.requeued _ _ _ 0 _ _ _ _ c hat (by decide)
  rw [pumps_busy hrequeued.agenda (Finset.insert_ne_empty _ _) (.inr (by decide)) hpumps]
  exact hrequeued

/-- With the first records the bucket begins again. -/
lemma seen_records (ids : List RecordId)
    (h : Seen j ⟨[0], {4, 2}⟩ 5 requests asks compares results)
    (hid : (2, .getRecords ids) ∈ requests) (hopen : 2 ∈ asks) :
    Honest stockPrimitives samplePeer bigStock j.ledger (.still 0 0, answered 2 (.getRecords ids)) ∧
      At (j.ledger.step stockPrimitives (.still 0 0, answered 2 (.getRecords ids))).books
        ⟨[], {5, 4}⟩ 6 (requests ++ [(5, pageRequest 0 none)]) (5 :: asks.filter (· ≠ 2)) compares
        results := by
  obtain ⟨y, hat, hpumps⟩ := h.here.heard.settled (h.pending hid hopen (by decide)) (h.bounds hid)
    rfl (@step_turn stockPrimitives j.ledger (.still 0 0, answered 2 (.getRecords ids)))
  exact ⟨h.honest_answered hid hopen, hat.pumps (by decide) hpumps⟩

lemma Seen.keeps_inventory {summary : InventorySummary}
    (h : Seen j g n requests asks compares results) (hw : id ∈ g.outstanding) :
    KeepsPlace samplePeer j (.still 0 0, compared id (.inventory summary)) := by
  intro _ s hs
  have hg : some s.agenda = some g := (congrArg (Option.map _) hs).symm.trans h.here.agenda
  obtain rfl := Option.some.inj hg
  exact hw

lemma Seen.keeps_ids {ids : List RecordId} (h : Seen j g n requests asks compares results)
    (hw : id ∈ g.outstanding)
    (hroom : (g.outstanding.erase id).card + 1 < MAX_PENDING_SYNC_REQUESTS_PER_PEER) :
    KeepsPlace samplePeer j (.still 0 0, compared id (.ids bucket ids nextCursor)) := by
  intro _ _ s hs
  have hg : some s.agenda = some g := (congrArg (Option.map _) hs).symm.trans h.here.agenda
  obtain rfl := Option.some.inj hg
  refine ⟨hw, lt_of_le_of_lt (Nat.add_le_add_left ?_ _) hroom⟩
  split_ifs
  · exact Nat.zero_le 1
  · exact le_rfl

def begin : Journey := .start ⟨[1]⟩ .default false none 0

def connected : Journey :=
  begin.step stockPrimitives samplePeer (.still 0 0,
    .connectionEstablished samplePeer (.listener [.ip4 ⟨1, 2, 3, 4⟩, .tcp 4001]) 1 1)

lemma honest_connected : Honest stockPrimitives samplePeer bigStock begin.ledger (.still 0 0,
    .connectionEstablished samplePeer (.listener [.ip4 ⟨1, 2, 3, 4⟩, .tcp 4001]) 1 1) :=
  ⟨by decide, nofun, nofun, nofun⟩

lemma seen_connected : Seen connected ⟨[], {0}⟩ 1 [(0, .getInventory)] [0] [] [] := by
  have hplaced : Placed stockPrimitives samplePeer bigStock connected :=
    placed_step placed_start honest_connected trivial
  refine ⟨hplaced.kept, hplaced.awaited, hplaced.traced, by decide +kernel, ?_⟩
  refine ⟨?_, by decide +kernel, by decide +kernel, by decide +kernel, nofun, nofun⟩
  rfl

lemma job_page {cursor : Option RecordId} : (pendingOf samplePeer (pageRequest 0 cursor)).job?
    (answer stockPrimitives bigStock (pageRequest 0 cursor) 0) =
      some (.ids 0 (pageBehind cursor).1 (pageBehind cursor).2) := by
  rw [answer_page]
  rfl

lemma seen_outset :
    Along (Journey.step stockPrimitives samplePeer) (fun j e =>
        Honest stockPrimitives samplePeer bigStock j.ledger e ∧ KeepsPlace samplePeer j e) begin
      outset ∧
      Seen (run (Journey.step stockPrimitives samplePeer) begin outset) ⟨[], {3, 2}⟩ 4
        [(0, .getInventory), (1, pageRequest 0 none), (2, .getRecords (missingOf firstPage.1)),
          (3, pageRequest 0 firstPage.2)] [2] [3]
        [(3, .ids 0 secondPage.1 secondPage.2), (1, .ids 0 firstPage.1 firstPage.2),
          (0, .inventory (inventory stockPrimitives bigStock 0))] := by
  have hfirst : (pendingOf samplePeer (pageRequest 0 none)).job?
      (answer stockPrimitives bigStock (pageRequest 0 none) 0) =
        some (.ids 0 firstPage.1 firstPage.2) := job_page
  have hsecond : (pendingOf samplePeer (pageRequest 0 firstPage.2)).job?
      (answer stockPrimitives bigStock (pageRequest 0 firstPage.2) 0) =
        some (.ids 0 secondPage.1 secondPage.2) := job_page
  obtain ⟨h₁, s₁⟩ := seen_handed seen_connected List.mem_cons_self List.mem_cons_self
    (by decide : 0 ∈ ({0} : Finset ℕ)) rfl
  obtain ⟨h₂, s₂⟩ := seen_inventory s₁ List.mem_cons_self List.mem_cons_self
  obtain ⟨h₃, s₃⟩ := seen_handed s₂ (by simp) (by simp) (by decide : 1 ∈ ({1} : Finset ℕ)) hfirst
  obtain ⟨h₄, s₄⟩ := seen_first s₃ List.mem_cons_self List.mem_cons_self
  obtain ⟨h₅, s₅⟩ := seen_handed s₄ (by simp) (by simp) (by decide : 3 ∈ ({3, 2} : Finset ℕ)) hsecond
  refine ⟨⟨⟨honest_connected, trivial⟩, ⟨h₁, trivial⟩, ⟨h₂, s₁.keeps_inventory (by decide)⟩,
    ⟨h₃, trivial⟩, ⟨h₄, s₃.keeps_ids (by decide) (by decide)⟩, ⟨h₅, trivial⟩, trivial⟩, s₅⟩

/-- The bucket's first page is asked for twice in a run in which the peer answers from one store and
the comparisons read one store. -/
theorem restart_repeats :
    Along (Journey.step stockPrimitives samplePeer)
        (fun j => Honest stockPrimitives samplePeer bigStock j.ledger) begin restart ∧
      ¬ (((run (Journey.step stockPrimitives samplePeer) begin restart).requests
        samplePeer).filterMap fun r => page? r.2).Nodup := by
  obtain ⟨houtset, s₅⟩ := seen_outset
  obtain ⟨h₆, s₆⟩ := seen_second s₅ List.mem_cons_self List.mem_cons_self
  obtain ⟨h₇, hat⟩ := seen_records (missingOf firstPage.1) s₆ (by simp) (by simp)
  have hsent := (seen_step s₆ h₇ hat).sent
  unfold restart atOnce
  rw [along_append, run_append, List.map_cons, List.map_cons, List.map_nil, run_cons, run_cons,
    run_nil, hsent]
  refine ⟨⟨houtset.mono fun _ _ h => h.1, h₆, h₇, trivial⟩, fun hnodup => ?_⟩
  have hpages : [((0 : Int64), (none : Option RecordId)), (0, firstPage.2), (0, none)].Nodup := hnodup
  exact (List.nodup_cons.mp hpages).1 (List.mem_cons_of_mem _ List.mem_cons_self)

theorem outset_in_place : Along (Journey.step stockPrimitives samplePeer)
    (InPlace stockPrimitives samplePeer bigStock) (.start ⟨[1]⟩ .default false none 0) outset :=
  sessions_keep_place stockPrimitives samplePeer bigStock ⟨[1]⟩ .default false none 0 outset
    (seen_outset.1.mono fun _ _ h => h.1) (seen_outset.1.mono fun _ _ h => h.2)

end Protonet.SyncPlaces
