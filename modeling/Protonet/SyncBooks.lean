import Protonet.SwarmDeeds
import Protonet.SyncTurns

/-!
# The books on all sessions

What the actor keeps of its sessions with all peers, next to the requests that have not been
answered and the comparisons whose results have not been handled. Every event is described by what
it does to them.
-/
namespace Protonet.Swarm
open Lru MachineInt StepRun Postcard Record Replay RateLimit Address Connections Sync Worker

/-- What the response to a request will be taken for. -/
def pendingOf (peer : PeerId) : SyncRequest → PendingSync
  | .getInventory => .inventory peer
  | .getRecordIds bucket _ _ => .ids peer bucket
  | .getRecords _ => .records peer

def pageRequest (bucket : Int64) (cursor : Option RecordId) : SyncRequest :=
  .getRecordIds bucket cursor (UInt16.ofNat MAX_IDS_PER_RESPONSE)

/-- What a session still has to do. -/
structure Agenda where
  buckets : List Int64
  outstanding : Finset RequestId

def Agenda.await (id : RequestId) (g : Agenda) : Agenda :=
  { g with outstanding := insert id g.outstanding }

def Agenda.settle (id : RequestId) (g : Agenda) : Agenda :=
  { g with outstanding := g.outstanding.erase id }

def SyncSession.agenda (s : SyncSession) : Agenda := ⟨s.differingBuckets, s.outstanding⟩

def Actor.agenda (a : Actor) (peer : PeerId) : Option Agenda :=
  (a.syncSessions.lookup peer).map SyncSession.agenda

/-- What a comparison is about. -/
inductive Job
  | inventory (remote : InventorySummary)
  | ids (bucket : Int64) (ids : List RecordId) (nextCursor : Option RecordId)
  deriving DecidableEq

/-- What was sent and compared so far, and what of it is still to come. -/
structure Dues where
  /-- The requests whose outcome has not been reported. -/
  asked : Finset (RequestId × PeerId)
  /-- The comparisons whose result has not been handled. -/
  comparing : Finset (RequestId × PeerId)
  sent : List (RequestId × PeerId × SyncRequest)
  jobs : List (RequestId × PeerId × Job)

structure Books extends Dues where
  agenda : PeerId → Option Agenda
  count : ℕ
  pending : AList fun _ : RequestId => PendingSync
  next : RequestId

def Effect.sent? : Effect → Option (RequestId × PeerId × SyncRequest)
  | .sendRequest id peer request => some (id, peer, request)
  | _ => none

def Effect.job? : Effect → Option (RequestId × PeerId × Job)
  | .compareInventory peer id remote => some (id, peer, .inventory remote)
  | .compareIds peer id bucket ids nextCursor => some (id, peer, .ids bucket ids nextCursor)
  | _ => none

def sentIn (outbox : List Effect) : List (RequestId × PeerId × SyncRequest) :=
  outbox.filterMap Effect.sent?

def jobsIn (outbox : List Effect) : List (RequestId × PeerId × Job) :=
  outbox.filterMap Effect.job?

def ends {α : Type} (xs : List (RequestId × PeerId × α)) : Finset (RequestId × PeerId) :=
  (xs.map fun x => (x.1, x.2.1)).toFinset

def Dues.add (o : Dues) (outbox : List Effect) : Dues where
  asked := o.asked ∪ ends (sentIn outbox)
  comparing := o.comparing ∪ ends (jobsIn outbox)
  sent := o.sent ++ sentIn outbox
  jobs := o.jobs ++ jobsIn outbox

/-- The books in the course of a turn that began with the given dues. -/
def Actor.books (a : Actor) (o : Dues) : Books where
  toDues := o.add a.outbox
  agenda := a.agenda
  count := a.syncSessions.entries.length
  pending := a.pendingSync
  next := a.nextRequest

namespace Books

def put (p : PeerId) (g : Option Agenda) (x : Books) : Books :=
  { x with agenda := Function.update x.agenda p g }

/-- Change what a session still has to do, if there is one. -/
def amend (p : PeerId) (f : Agenda → Agenda) (x : Books) : Books := x.put p ((x.agenda p).map f)

def settle (p : PeerId) (id : RequestId) (x : Books) : Books := x.amend p (.settle id)

def send (p : PeerId) (request : SyncRequest) (x : Books) : Books :=
  { x with
    pending := x.pending.insert x.next (pendingOf p request)
    next := x.next + 1
    asked := insert (x.next, p) x.asked
    sent := x.sent ++ [(x.next, p, request)] }

def ask (p : PeerId) (request : SyncRequest) (x : Books) : Books :=
  (x.send p request).amend p (.await x.next)

def start (p : PeerId) (x : Books) : Books :=
  { (x.send p .getInventory).put p (some ⟨[], {x.next}⟩) with count := x.count + 1 }

def close (p : PeerId) (x : Books) : Books := { x.put p none with count := x.count - 1 }

/-- A session is gone, with everything that was expected of its peer. -/
def drop (x : Books) (p : PeerId) : Books :=
  { x.put p none with
    count := if (x.agenda p).isSome then x.count - 1 else x.count
    pending := ⟨x.pending.entries.filter fun e => e.2.peer ≠ p,
      x.pending.nodupKeys.sublist List.filter_sublist⟩ }

/-- The response to a request is taken up. -/
def take (id : RequestId) (x : Books) : Books := { x with pending := x.pending.erase id }

def compare (id : RequestId) (p : PeerId) (job : Job) (x : Books) : Books :=
  { x with
    comparing := insert (id, p) x.comparing
    jobs := x.jobs ++ [(id, p, job)] }

def fetch (p : PeerId) (missing : List RecordId) (x : Books) : Books :=
  if missing ≠ [] then x.ask p (.getRecords missing) else x

def continueBucket (p : PeerId) (bucket : Int64) (cursor : RecordId) (x : Books) : Books :=
  match x.agenda p with
  | none => x
  | some g =>
    if g.outstanding.card < MAX_PENDING_SYNC_REQUESTS_PER_PEER then
      x.ask p (pageRequest bucket (some cursor))
    else x.amend p fun g => { g with buckets := bucket :: g.buckets }

def goOn (p : PeerId) (bucket : Int64) (nextCursor : Option RecordId) (x : Books) : Books :=
  match nextCursor with
  | none => x
  | some cursor => x.continueBucket p bucket cursor

inductive Pumps (p : PeerId) : Books → Books → Prop
  | idle {x} (h : x.agenda p = none) : Pumps p x x
  | wait {x g} (h : x.agenda p = some g) (hbusy : g.outstanding ≠ ∅)
      (hstop : g.buckets = [] ∨ MAX_PENDING_SYNC_REQUESTS_PER_PEER ≤ g.outstanding.card) :
      Pumps p x x
  | finish {x} (h : x.agenda p = some ⟨[], ∅⟩) : Pumps p x (x.close p)
  | next {x x' bucket buckets outstanding} (h : x.agenda p = some ⟨bucket :: buckets, outstanding⟩)
      (hroom : outstanding.card < MAX_PENDING_SYNC_REQUESTS_PER_PEER)
      (hrest : Pumps p ((x.amend p fun g => { g with buckets }).ask p (pageRequest bucket none)) x') :
      Pumps p x x'

variable {x : Books} {p q : PeerId} {g : Option Agenda} {f : Agenda → Agenda} {id : RequestId}
  {request : SyncRequest}

@[simp] lemma put_agenda : (x.put p g).agenda p = g := Function.update_self ..

lemma put_agenda_ne (h : q ≠ p) : (x.put p g).agenda q = x.agenda q := Function.update_of_ne h ..

@[simp] lemma amend_agenda : (x.amend p f).agenda p = (x.agenda p).map f := put_agenda

lemma amend_agenda_ne (h : q ≠ p) : (x.amend p f).agenda q = x.agenda q := put_agenda_ne h

@[simp] lemma settle_agenda : (x.settle p id).agenda p = (x.agenda p).map (.settle id) :=
  amend_agenda

lemma settle_agenda_ne (h : q ≠ p) : (x.settle p id).agenda q = x.agenda q := amend_agenda_ne h

@[simp] lemma ask_agenda : (x.ask p request).agenda p = (x.agenda p).map (.await x.next) :=
  amend_agenda

lemma ask_agenda_ne (h : q ≠ p) : (x.ask p request).agenda q = x.agenda q := amend_agenda_ne h

end Books

variable {K : Primitives} {a b : Actor} {c : Clock} {p peer : PeerId}
  {o : Dues}

lemma ends_append {α : Type} (xs : List (RequestId × PeerId × α)) (x : RequestId × PeerId × α) :
    ends (xs ++ [x]) = insert (x.1, x.2.1) (ends xs) := by
  ext y
  simp [ends]

lemma add_emit {e : Effect} (hs : e.sent? = none) (hj : e.job? = none) :
    o.add (a.emit e).outbox = o.add a.outbox := by
  have hsent : sentIn (a.emit e).outbox = sentIn a.outbox := by
    simp [Actor.emit, sentIn, hs]
  have hjobs : jobsIn (a.emit e).outbox = jobsIn a.outbox := by
    simp [Actor.emit, jobsIn, hj]
  rw [Dues.add, hsent, hjobs]
  rfl

lemma add_request {id : RequestId} {request : SyncRequest} (xs : List Effect) :
    o.add (xs ++ [.sendRequest id p request]) =
      { o.add xs with
        asked := insert (id, p) (o.add xs).asked
        sent := (o.add xs).sent ++ [(id, p, request)] } := by
  have hsent : sentIn (xs ++ [.sendRequest id p request]) = sentIn xs ++ [(id, p, request)] :=
    List.filterMap_append
  have hjobs : jobsIn (xs ++ [.sendRequest id p request]) = jobsIn xs :=
    List.filterMap_append.trans (List.append_nil _)
  rw [Dues.add, hsent, hjobs, ends_append, Finset.union_insert, ← List.append_assoc]
  rfl

lemma add_job {e : Effect} {id : RequestId} {job : Job} (hs : e.sent? = none)
    (hj : e.job? = some (id, p, job)) (xs : List Effect) :
    o.add (xs ++ [e]) =
      { o.add xs with
        comparing := insert (id, p) (o.add xs).comparing
        jobs := (o.add xs).jobs ++ [(id, p, job)] } := by
  have hsent : sentIn (xs ++ [e]) = sentIn xs := by simp [sentIn, hs]
  have hjobs : jobsIn (xs ++ [e]) = jobsIn xs ++ [(id, p, job)] := by simp [jobsIn, hj]
  rw [Dues.add, hsent, hjobs, ends_append, Finset.union_insert, ← List.append_assoc]
  rfl

lemma books_emit {e : Effect} (hs : e.sent? = none) (hj : e.job? = none) :
    (a.emit e).books o = a.books o := by
  unfold Actor.books
  rw [add_emit hs hj]
  rfl

@[simp] lemma books_notify (e : NetworkEvent) :
    (a.notify e).books o = a.books o := books_emit rfl rfl

@[simp] lemma books_violation (p : Option PeerId) (reason : String) :
    (a.violation p reason).books o = a.books o := books_emit rfl rfl

@[simp] lemma books_reportGossip (messageId : RecordId) (source : PeerId)
    (acceptance : MessageAcceptance) :
    (a.reportGossip messageId source acceptance).books o =
      a.books o := books_emit rfl rfl

@[simp] lemma books_disconnectPeer (p : PeerId) :
    (a.emit (.disconnectPeer p)).books o = a.books o :=
  books_emit rfl rfl

@[simp] lemma books_closeConnection (connection : ConnectionId) :
    (a.emit (.closeConnection connection)).books o = a.books o :=
  books_emit rfl rfl

@[simp] lemma books_reportValidation (v : Option (RecordId × PeerId))
    (acceptance : MessageAcceptance) :
    (a.reportValidation v acceptance).books o = a.books o := by
  cases v with
  | none => rfl
  | some v => exact books_reportGossip ..

@[simp] lemma books_block (duration now : ℕ) :
    (a.block p duration now).books o = a.books o :=
  books_emit (a := { a with blocked := a.blocked.put p (now + duration) }) rfl rfl

@[simp] lemma books_isBlocked (now : ℕ) :
    (a.isBlocked p now).2.books o = a.books o := by
  unfold Actor.isBlocked
  split
  · rfl
  · split_ifs <;> rfl

@[simp] lemma books_tryEnqueue (request : PersistRequest) :
    (a.tryEnqueue request).2.books o = a.books o := by
  unfold Actor.tryEnqueue
  split_ifs <;> rfl

@[simp] lemma books_allowIngestionSource (now : ℕ) :
    (a.allowIngestionSource p now).2.books o = a.books o := by
  unfold Actor.allowIngestionSource
  split <;> rfl

lemma length_erase {α : Type} {s : AList fun _ : PeerId => α} :
    (s.erase p).entries.length =
      if (s.lookup p).isSome then s.entries.length - 1 else s.entries.length := by
  have hkeys : (s.erase p).entries.length = (s.entries.keys.erase p).length := by
    rw [← List.keys_kerase, List.keys, List.length_map]
    rfl
  have hlen : s.entries.keys.length = s.entries.length := List.length_map _
  rw [hkeys, List.length_erase, hlen]
  exact if_congr AList.lookup_isSome.symm rfl rfl

lemma length_insert {α : Type} {s : AList fun _ : PeerId => α} {v : α} :
    (s.insert p v).entries.length =
      if (s.lookup p).isSome then s.entries.length else s.entries.length + 1 := by
  have herase : (List.kerase p s.entries).length =
      if (s.lookup p).isSome then s.entries.length - 1 else s.entries.length := length_erase
  rw [AList.entries_insert, List.length_cons, herase]
  split_ifs with hp
  · have hmem : p ∈ s.entries.keys := AList.lookup_isSome.mp hp
    have hpos : 0 < s.entries.length := by
      rw [← List.length_map Sigma.fst]
      exact List.length_pos_of_mem hmem
    omega
  · rfl

lemma agenda_insert {session : SyncSession} :
    Actor.agenda { a with syncSessions := a.syncSessions.insert p session } =
      Function.update a.agenda p (some session.agenda) := by
  funext q
  by_cases hq : q = p
  · subst hq
    simp [Actor.agenda]
  · simp [Actor.agenda, hq]

lemma agenda_erase :
    Actor.agenda { a with syncSessions := a.syncSessions.erase p } =
      Function.update a.agenda p none := by
  funext q
  by_cases hq : q = p
  · subst hq
    simp [Actor.agenda]
  · simp [Actor.agenda, hq]

lemma books_updateSession {f : SyncSession → SyncSession} {g : Agenda → Agenda}
    (h : ∀ s, (f s).agenda = g s.agenda) :
    (a.updateSession p f).books o = (a.books o).amend p g := by
  unfold Actor.updateSession
  rcases hs : a.syncSessions.lookup p with _ | session
  · have hnone : a.agenda p = none := by simp [Actor.agenda, hs]
    have hsame : Function.update a.agenda p none = a.agenda := by
      rw [← hnone, Function.update_eq_self]
    simp [Books.amend, Books.put, Actor.books, hnone, hsame]
  · have hsome : a.agenda p = some session.agenda := by simp [Actor.agenda, hs]
    dsimp only
    unfold Actor.books Books.amend Books.put
    rw [agenda_insert, length_insert]
    simp [hs, hsome, h]

lemma books_sendRequest (request : SyncRequest) :
    (a.sendRequest p request (pendingOf p request)).books o = (a.books o).send p request := by
  unfold Actor.sendRequest Actor.emit Actor.books Books.send
  dsimp only
  rw [add_request]
  rfl

lemma books_requestFor (request : SyncRequest) :
    (a.requestFor p request (pendingOf p request)).books o =
      (a.books o).ask p request := by
  rw [Actor.requestFor, books_updateSession (g := .await a.nextRequest) fun s => rfl,
    books_sendRequest]
  rfl

lemma books_finishSync {g : Agenda} (h : a.agenda p = some g) :
    (a.finishSync p).books o = (a.books o).close p := by
  unfold Actor.finishSync
  rcases hs : a.syncSessions.lookup p with _ | session
  · simp [Actor.agenda, hs] at h
  · dsimp only
    rw [books_notify]
    unfold Actor.books Books.close Books.put
    rw [agenda_erase, length_erase]
    simp [hs]

lemma books_pumpBuckets (buckets : List Int64)
    (hbuckets : ∀ g ∈ a.agenda p, g.buckets = buckets) :
    Books.Pumps p (a.books o) ((a.pumpBuckets p buckets).books o) := by
  induction buckets generalizing a with
  | nil =>
    rw [Actor.pumpBuckets]
    rcases hs : a.syncSessions.lookup p with _ | session
    · exact .idle (by simp [Actor.books, Actor.agenda, hs])
    · have hsome : a.agenda p = some session.agenda := by simp [Actor.agenda, hs]
      have hnil : session.differingBuckets = [] := hbuckets _ hsome
      dsimp only
      split_ifs with hcap hdone
      · refine .wait hsome (fun hnone => ?_) (.inl hnil)
        have hempty : session.outstanding = ∅ := hnone
        simp [hempty, MAX_PENDING_SYNC_REQUESTS_PER_PEER] at hcap
      · rw [books_finishSync hsome]
        rw [SyncSession.agenda, hnil, hdone] at hsome
        exact .finish hsome
      · exact .wait hsome hdone (.inl hnil)
  | cons bucket rest ih =>
    rw [Actor.pumpBuckets]
    rcases hs : a.syncSessions.lookup p with _ | session
    · exact .idle (by simp [Actor.books, Actor.agenda, hs])
    · have hsome : a.agenda p = some ⟨bucket :: rest, session.outstanding⟩ := by
        have hagenda : a.agenda p = some session.agenda := by simp [Actor.agenda, hs]
        rw [hagenda, SyncSession.agenda, show session.differingBuckets = bucket :: rest from
          hbuckets _ hagenda]
      dsimp only
      split_ifs with hcap
      · refine .wait hsome (fun hnone => ?_) (.inr hcap)
        have hempty : session.outstanding = ∅ := hnone
        simp [hempty, MAX_PENDING_SYNC_REQUESTS_PER_PEER] at hcap
      · obtain ⟨b, hb⟩ : ∃ b, b = (a.updateSession p fun s =>
            { s with differingBuckets := rest }).requestFor p (pageRequest bucket none)
              (pendingOf p (pageRequest bucket none)) := ⟨_, rfl⟩
        have hask : b.books o = ((a.books o).amend p
            fun g => { g with buckets := rest }).ask p (pageRequest bucket none) := by
          rw [hb, books_requestFor,
            books_updateSession (g := fun g => { g with buckets := rest }) fun s => rfl]
        have hnext : ∀ g ∈ b.agenda p, g.buckets = rest := by
          intro g hg
          have hagenda := congrFun (congrArg Books.agenda hask) p
          rw [Books.ask_agenda, Books.amend_agenda] at hagenda
          change b.agenda p = ((a.agenda p).map _).map _ at hagenda
          rw [hagenda, hsome] at hg
          rw [← Option.some.inj hg]
          rfl
        have hpump := ih hnext
        rw [hask, hb] at hpump
        exact .next hsome (not_le.mp hcap) hpump

/-- `pump_sync` is a pump. -/
lemma books_pumpSync : Books.Pumps p (a.books o)
    ((a.pumpSync p).books o) := by
  unfold Actor.pumpSync
  rcases hs : a.syncSessions.lookup p with _ | session
  · exact .idle (by simp [Actor.books, Actor.agenda, hs])
  · refine books_pumpBuckets session.differingBuckets fun g hg => ?_
    have hsome : a.agenda p = some session.agenda := by simp [Actor.agenda, hs]
    rw [hsome, Option.mem_some_iff] at hg
    rw [← hg]
    rfl

lemma books_continueBucket (bucket : Int64) (cursor : RecordId) :
    (a.continueBucket p bucket cursor).books o =
      (a.books o).continueBucket p bucket cursor := by
  unfold Actor.continueBucket Books.continueBucket
  rcases hs : a.syncSessions.lookup p with _ | session
  · have hnone : (a.books o).agenda p = none := by
      simp [Actor.books, Actor.agenda, hs]
    rw [hnone]
  · have hsome : (a.books o).agenda p = some session.agenda := by
      simp [Actor.books, Actor.agenda, hs]
    rw [hsome]
    dsimp only [SyncSession.agenda]
    split_ifs
    · exact books_requestFor (pageRequest bucket (some cursor))
    · exact books_updateSession fun s => rfl

lemma books_started {now : ℕ} (hfresh : a.syncSessions.lookup p = none)
    (hroom : a.syncSessions.entries.length < MAX_SIMULTANEOUS_SYNC_PEERS) :
    (a.startSync p now).books o = (a.books o).start p := by
  have hstart : ¬ ((a.syncSessions.lookup p).isSome ∨
      a.syncSessions.entries.length ≥ MAX_SIMULTANEOUS_SYNC_PEERS) := by
    rw [hfresh]
    simpa using hroom
  unfold Actor.startSync
  rw [if_neg hstart, books_notify]
  obtain ⟨b, hb⟩ : ∃ b, b = a.sendRequest p .getInventory (.inventory p) := ⟨_, rfl⟩
  have hbooks : b.books o = (a.books o).send p .getInventory := by
    rw [hb]
    exact books_sendRequest .getInventory
  have hagenda : b.agenda = a.agenda := congrArg Books.agenda hbooks
  have hlookup : b.syncSessions.lookup p = none := by
    rw [hb]
    exact hfresh
  have hcount : b.syncSessions.entries.length = a.syncSessions.entries.length :=
    congrArg Books.count hbooks
  rw [← hb]
  unfold Books.start Books.put
  rw [← hbooks]
  unfold Actor.books
  rw [agenda_insert, length_insert, hlookup, hcount]
  rfl

/-- A session is begun, or the call does nothing. -/
lemma books_startSync (now : ℕ) : (a.startSync p now).books o = a.books o ∨
    a.agenda p = none ∧ a.syncSessions.entries.length < MAX_SIMULTANEOUS_SYNC_PEERS ∧
      (a.startSync p now).books o = (a.books o).start p := by
  by_cases h : (a.syncSessions.lookup p).isSome ∨
      a.syncSessions.entries.length ≥ MAX_SIMULTANEOUS_SYNC_PEERS
  · left
    rw [Actor.startSync, if_pos h]
  · rw [not_or, Option.not_isSome_iff_eq_none, not_le] at h
    exact .inr ⟨by simp [Actor.agenda, h.1], h.2, books_started h.1 h.2⟩

lemma books_foldl {α : Type} {f : Actor → α → Actor}
    (hf : ∀ a x, (f a x).books o = a.books o) (xs : List α) :
    (xs.foldl f a).books o = a.books o := by
  induction xs generalizing a with
  | nil => rfl
  | cons x xs ih => rw [List.foldl_cons, ih, hf]

lemma indifferent_books : Indifferent fun a => a.books o :=
  ⟨fun _ => books_violation, fun _ _ => books_block, fun _ _ => books_allowIngestionSource,
    fun _ => books_tryEnqueue, fun _ _ => rfl⟩

@[simp] lemma books_acceptSyncRecords (records : List FlaggedFileRecord) :
    (a.acceptSyncRecords K p records c).books o = a.books o :=
  indifferent_books.acceptSyncRecords records

lemma amend_id (x : Books) : x.amend p id = x := by
  unfold Books.amend Books.put
  rw [Option.map_id_fun, id, Function.update_eq_self]

lemma books_handlePersisted (event : PersistEvent) (publication : Option String) :
    (a.handlePersisted K event publication c).books o =
      a.books o := by
  have hnote : ∀ (b : Actor) (source : PeerId) (record : FlaggedFileRecord),
      (b.noteReceived source record).books o = b.books o := by
    intro b source record
    unfold Actor.noteReceived
    dsimp only
    split
    · exact books_notify _
    · have hcount := @books_updateSession (b.notify (.recordReceived record.recordId source
        record.fileName)) source o (fun s => { s with received := s.received + 1 })
        id fun s => rfl
      rw [books_notify, hcount, amend_id, books_notify]
  have hpublish : ∀ (b : Actor) (record : FlaggedFileRecord),
      (b.publishOwn K record publication).books o = b.books o := by
    intro b record
    have hemit : (b.emit (.publish record.encode)).books o =
      b.books o := books_emit rfl rfl
    unfold Actor.publishOwn
    split_ifs
    · cases publication with
      | none => exact (books_notify _).trans hemit
      | some error => exact (books_violation ..).trans hemit
    · rfl
  cases event with
  | stored request =>
    have haccept : (a.acceptReplay K request.record (c.instant 0)).books o =
        a.books o := by
      unfold Actor.acceptReplay
      split <;> rfl
    unfold Actor.handlePersisted
    dsimp only
    split
    · rw [hnote, books_reportValidation, haccept]
    · rw [hpublish, books_reportValidation, haccept]
  | duplicate recordId origin sequence v => exact books_reportValidation v .ignore
  | failed recordId error v =>
    unfold Actor.handlePersisted
    dsimp only
    rw [books_reportValidation, books_violation, books_notify]
    rfl

lemma books_validateGossip (source : PeerId) (messageId : RecordId) (data : Bytes) :
    (a.validateGossip K source messageId data c).books o =
      a.books o := by
  have hrefused : ∀ refused b, a.gossipRefused source data.length c = (refused, b) →
      b.books o = a.books o := by
    rintro refused b hb
    have hsnd : (a.gossipRefused source data.length c).2.books o =
        a.books o := by
      unfold Actor.gossipRefused
      split_ifs
      · rfl
      · have hasked := @books_isBlocked a source o (c.instant 1)
        rcases hq : a.isBlocked source (c.instant 1) with ⟨_ | _, d⟩
        all_goals rw [hq] at hasked
        · dsimp only
          rcases d.rateLimiter.allowGossip source data.length (c.instant 0) with ⟨_ | _, l⟩
          · exact hasked
          · exact hasked
        · exact hasked
    rw [hb] at hsnd
    exact hsnd
  unfold Actor.validateGossip
  rcases hr : a.gossipRefused source data.length c with ⟨_ | _, b⟩
  all_goals have hb := hrefused _ _ hr
  · dsimp only
    rcases RecordValidator.default.validateBytes K data (c.unixMs 0) with error | record
    · unfold Actor.rejectInvalid
      dsimp only
      rw [books_violation]
      generalize (if error = .invalidSignature then INVALID_SIGNATURE_BLOCK
        else MALFORMED_BLOCK) = duration
      split_ifs
      · exact (books_disconnectPeer _).trans ((books_block ..).trans ((books_reportGossip ..).trans hb))
      · exact (books_reportGossip ..).trans hb
    · dsimp only
      rcases record.origin K with error | origin
      · exact (books_violation ..).trans ((books_reportGossip ..).trans hb)
      · dsimp only
        rcases b.replay.check record.recordId origin record.sequence (c.instant 0) with
          ⟨_ | _ | _, replay⟩
        · unfold Actor.ingestGossip
          have hallow := @books_allowIngestionSource { b with replay } source o
            (c.instant 0)
          dsimp only
          rcases hq : Actor.allowIngestionSource { b with replay } source (c.instant 0) with
            ⟨_ | _, d⟩
          all_goals rw [hq] at hallow
          · exact (books_block ..).trans ((books_reportGossip ..).trans (hallow.trans hb))
          · have hqueue := @books_tryEnqueue d o
              ⟨record, some source, c.instant 2, some (messageId, source)⟩
            dsimp only
            rcases he : d.tryEnqueue ⟨record, some source, c.instant 2, some (messageId, source)⟩
              with ⟨_ | _, e⟩
            all_goals rw [he] at hqueue
            · exact (books_reportGossip ..).trans (hqueue.trans (hallow.trans hb))
            · exact hqueue.trans (hallow.trans hb)
        · exact (books_reportGossip ..).trans hb
        · exact (books_violation ..).trans ((books_reportGossip ..).trans hb)
  · exact (books_disconnectPeer _).trans ((books_block ..).trans ((books_reportGossip ..).trans hb))

/-- The request whose outcome an event reports. -/
def Event.answered : Event → Finset (RequestId × PeerId)
  | .syncResponse peer id _ => {(id, peer)}
  | .outboundFailure peer id => {(id, peer)}
  | _ => ∅

/-- The comparison whose result an event brings. -/
def Event.delivered : Event → Finset (RequestId × PeerId)
  | .dbAction (.inventoryCompared peer id _) => {(id, peer)}
  | .dbAction (.idsCompared peer id ..) => {(id, peer)}
  | _ => ∅

/-- The comparison that an expected response leads to. -/
def PendingSync.job? : PendingSync → SyncResponse → Option Job
  | .inventory _, .inventory remote => some (.inventory remote)
  | .ids _ bucket, .recordIds page nextCursor => some (.ids bucket page nextCursor)
  | _, _ => none

namespace Books

inductive Turn : Event → Books → Books → Prop
  | same {e : Event} {x} (ha : e.answered = ∅) (hd : e.delivered = ∅) : Turn e x x
  | start {e x p} (ha : e.answered = ∅) (hd : e.delivered = ∅) (hnew : x.agenda p = none)
      (hroom : x.count < MAX_SIMULTANEOUS_SYNC_PEERS) : Turn e x (x.start p)
  | closed {p connection x} : Turn (.connectionClosed p connection) x (x.drop p)
  | expired {x} (ps : List PeerId) : Turn .snapshotTick x (ps.foldl Books.drop x)
  | ignored {peer id response x} (h : x.pending.lookup id = none) :
      Turn (.syncResponse peer id response) x x
  | compared {peer id response pending job x} (h : x.pending.lookup id = some pending)
      (hbounds : response.validateBounds = .ok ()) (hjob : pending.job? response = some job) :
      Turn (.syncResponse peer id response) x ((x.take id).compare id pending.peer job)
  | oversized {peer id response pending x} (h : x.pending.lookup id = some pending)
      (hover : response.validateBounds ≠ .ok ()) :
      Turn (.syncResponse peer id response) x ((x.take id).settle peer id)
  | settled {peer id response pending p x x'} (h : x.pending.lookup id = some pending)
      (hbounds : response.validateBounds = .ok ()) (hjob : pending.job? response = none)
      (hp : p = pending.peer ∨ p = peer) (hpumps : Pumps p ((x.take id).settle p id) x') :
      Turn (.syncResponse peer id response) x x'
  | failed {peer id x x'} (hpumps : Pumps peer ((x.take id).settle peer id) x') :
      Turn (.outboundFailure peer id) x x'
  | inventoryCompared {peer id differing x x'}
      (hpumps : Pumps peer (x.amend peer fun g => ⟨differing, g.outstanding.erase id⟩) x') :
      Turn (.dbAction (.inventoryCompared peer id differing)) x x'
  | idsCompared {peer id bucket missing nextCursor x x'}
      (hpumps : Pumps peer
        (((x.settle peer id).fetch peer missing).goOn peer bucket nextCursor) x') :
      Turn (.dbAction (.idsCompared peer id bucket missing nextCursor)) x x'

end Books

lemma books_letIn {endpoint : ConnectedPoint} :
    (a.letIn p endpoint c).books o = a.books o ∨
      a.agenda p = none ∧ a.syncSessions.entries.length < MAX_SIMULTANEOUS_SYNC_PEERS ∧
        (a.letIn p endpoint c).books o = (a.books o).start p := by
  have hstart : ∀ d : Actor, d.books o = a.books o →
      d.syncSessions = a.syncSessions →
        (d.startSync p (c.instant 2)).books o = a.books o ∨
          a.agenda p = none ∧ a.syncSessions.entries.length < MAX_SIMULTANEOUS_SYNC_PEERS ∧
            (d.startSync p (c.instant 2)).books o =
              (a.books o).start p := by
    intro d hd hsessions
    have hagenda : d.agenda = a.agenda := congrArg Books.agenda hd
    have hstarted := @books_startSync d p o (c.instant 2)
    rwa [hd, hagenda, hsessions] at hstarted
  unfold Actor.letIn
  dsimp only
  split_ifs
  · refine hstart _ ?_ ?_
    · split
      · rfl
      · exact books_notify _
    · split
      · rfl
      · rfl
  · refine .inl ?_
    split
    · rfl
    · exact books_notify _

lemma books_connectionEstablished {endpoint : ConnectedPoint} {connection : ConnectionId}
    {n : ℕ} : (a.connectionEstablished p endpoint connection n c).books o =
        a.books o ∨
      a.agenda p = none ∧ a.syncSessions.entries.length < MAX_SIMULTANEOUS_SYNC_PEERS ∧
        (a.connectionEstablished p endpoint connection n c).books o =
          (a.books o).start p := by
  unfold Actor.connectionEstablished
  dsimp only
  split_ifs
  · exact .inl ((books_violation ..).trans (books_closeConnection _))
  · obtain ⟨b, hb⟩ : ∃ b, b = { a with deniedConnections := a.deniedConnections.pop connection } :=
      ⟨_, rfl⟩
    have hasked := @books_isBlocked b p o (c.instant 0)
    have hsessions : (b.isBlocked p (c.instant 0)).2.syncSessions = b.syncSessions := by
      unfold Actor.isBlocked
      split
      · rfl
      · split_ifs <;> rfl
    have hbooks : b.books o = a.books o := by
      rw [hb]
      rfl
    have hsame : b.syncSessions = a.syncSessions := by rw [hb]
    rw [← hb]
    rcases hq : b.isBlocked p (c.instant 0) with ⟨_ | _, d⟩
    all_goals rw [hq] at hasked hsessions
    · dsimp only at hasked hsessions ⊢
      have hagenda : d.agenda = a.agenda := congrArg Books.agenda (hasked.trans hbooks)
      split_ifs
      · exact .inl ((books_violation ..).trans ((books_closeConnection _).trans
          (hasked.trans hbooks)))
      · exact .inl ((books_closeConnection _).trans (hasked.trans hbooks))
      · have hlet := @books_letIn d c p o endpoint
        rwa [hasked, hbooks, hagenda, hsessions, hsame] at hlet
    · exact .inl ((books_disconnectPeer _).trans (hasked.trans hbooks))

lemma books_dropPending_erase {d : Actor}
    (hsessions : d.syncSessions = a.syncSessions.erase p)
    (hpending : d.pendingSync = (a.dropPending p).pendingSync)
    (hnext : d.nextRequest = a.nextRequest) (hout : o.add d.outbox = o.add a.outbox) :
    d.books o = (a.books o).drop p := by
  have hagenda : d.agenda = Function.update a.agenda p none := by
    rw [← agenda_erase]
    funext q
    rw [Actor.agenda, hsessions, Actor.agenda]
  have hsome : (a.agenda p).isSome = (a.syncSessions.lookup p).isSome := Option.isSome_map
  unfold Actor.books Books.drop Books.put
  rw [hagenda, hsessions, length_erase, hpending, hnext, hout]
  dsimp only
  rw [hsome]
  rfl

lemma books_connectionClosed {connection : ConnectionId} :
    (a.connectionClosed p connection).books o = a.books o ∨
      (a.connectionClosed p connection).books o =
        (a.books o).drop p := by
  unfold Actor.connectionClosed
  dsimp only
  split
  · exact .inl rfl
  · refine .inr ?_
    rw [books_notify]
    exact books_dropPending_erase rfl rfl rfl rfl

lemma books_timeout (a : Actor) (p : PeerId) :
    ((a.dropPending p).finishSync p).books o = (a.books o).drop p := by
  unfold Actor.finishSync
  rcases hs : (a.dropPending p).syncSessions.lookup p with _ | session
  · have hnone : p ∉ a.syncSessions := AList.lookup_eq_none.mp hs
    refine books_dropPending_erase ?_ rfl rfl rfl
    refine AList.ext ?_
    exact (List.kerase_of_notMem_keys hnone).symm
  · dsimp only
    rw [books_notify]
    exact books_dropPending_erase rfl rfl rfl rfl

lemma books_snapshotTick : ∃ ps, (a.snapshotTick c).books o =
    List.foldl Books.drop (a.books o) ps := by
  have hfold : ∀ (ps : List PeerId) (b : Actor),
      (ps.foldl (fun a peer => (a.dropPending peer).finishSync peer) b).books o =
        ps.foldl Books.drop (b.books o) := by
    intro ps
    induction ps with
    | nil => exact fun b => rfl
    | cons p ps ih =>
      intro b
      rw [List.foldl_cons, List.foldl_cons, ih, books_timeout]
  unfold Actor.snapshotTick
  dsimp only
  rw [hfold, books_foldl (f := Actor.dropUnverified) fun b peer =>
    (books_disconnectPeer _).trans (books_violation ..)]
  exact ⟨_, rfl⟩

lemma books_handleSyncResponse (id : RequestId) (response : SyncResponse) :
    Books.Turn (.syncResponse peer id response) (a.books o)
      ((a.handleSyncResponse K peer id response c).books o) := by
  unfold Actor.handleSyncResponse
  rcases hl : a.pendingSync.lookup id with _ | pending
  · exact .ignored hl
  · have hawaited : (a.books o).pending.lookup id = some pending := hl
    obtain ⟨b, hb⟩ : ∃ b : Actor, b = { a with pendingSync := a.pendingSync.erase id } := ⟨_, rfl⟩
    have htake : b.books o = (a.books o).take id := by
      rw [hb]
      rfl
    have hsettle : ∀ (d : Actor) (p : PeerId), d.books o = b.books o →
        (d.updateSession p (.settle id)).books o =
          ((a.books o).take id).settle p id := by
      intro d p hd
      rw [books_updateSession (g := .settle id) fun s => rfl, hd, htake]
      rfl
    have hcompare : ∀ e p job, e.sent? = none → e.job? = some (id, p, job) →
        (b.emit e).books o = ((a.books o).take id).compare id p job := by
      intro e p job hs hc
      rw [← htake]
      unfold Actor.books Books.compare
      rw [show (b.emit e).outbox = b.outbox ++ [e] from rfl, add_job hs hc]
      rfl
    dsimp only
    rw [← hb]
    rcases hbounds : response.validateBounds with error | ⟨⟩
    · dsimp only
      rw [books_disconnectPeer, books_block, books_violation, hsettle b peer rfl]
      exact .oversized hawaited (by rw [hbounds]; nofun)
    · dsimp only
      split
      · rw [hcompare _ _ _ rfl rfl]
        exact .compared hawaited hbounds rfl
      · rw [hcompare _ _ _ rfl rfl]
        exact .compared hawaited hbounds rfl
      · next p records =>
        refine .settled hawaited hbounds rfl (.inl rfl) ?_
        have hpumps := @books_pumpSync
          ((b.updateSession p (.settle id)).acceptSyncRecords K p records c) p o
        rwa [books_acceptSyncRecords, hsettle b p rfl] at hpumps
      · next hother₁ hother₂ hother₃ =>
        have hjob : pending.job? response = none := by
          unfold PendingSync.job?
          split
          · exact absurd rfl (hother₁ _ _ rfl)
          · exact absurd rfl (hother₂ _ _ _ _ rfl)
          · rfl
        refine .settled hawaited hbounds hjob (.inr rfl) ?_
        rw [← hsettle _ peer (books_violation ..)]
        exact books_pumpSync

lemma books_inventoryCompared {id : RequestId} {differing : List Int64} :
    Books.Pumps peer ((a.books o).amend peer fun g => ⟨differing, g.outstanding.erase id⟩)
      ((a.handleDbAction (.inventoryCompared peer id differing) c).books o) := by
  have hamended : (a.updateSession peer fun s =>
      { s.settle id with differingBuckets := differing }).books o =
      (a.books o).amend peer fun g => ⟨differing, g.outstanding.erase id⟩ :=
    books_updateSession fun s => rfl
  rw [← hamended]
  exact books_pumpSync

lemma books_idsCompared {id : RequestId} {bucket : Int64} {missing : List RecordId}
    {nextCursor : Option RecordId} : Books.Pumps peer
      ((((a.books o).settle peer id).fetch peer missing).goOn peer bucket nextCursor)
      ((a.handleDbAction (.idsCompared peer id bucket missing nextCursor) c).books o) := by
  unfold Actor.handleDbAction
  obtain ⟨b, hb⟩ : ∃ b, b = a.updateSession peer (.settle id) := ⟨_, rfl⟩
  obtain ⟨d, hd⟩ : ∃ d, d = if missing ≠ [] then
    b.requestFor peer (.getRecords missing) (.records peer) else b := ⟨_, rfl⟩
  have hsettled : b.books o = (a.books o).settle peer id := by
    rw [hb]
    exact books_updateSession fun s => rfl
  have hfetched : d.books o = (b.books o).fetch peer missing := by
    rw [hd, Books.fetch]
    split_ifs
    · exact books_requestFor (.getRecords missing)
    · rfl
  rw [← hsettled, ← hfetched]
  dsimp only
  rw [← hb, ← hd]
  cases nextCursor with
  | none => exact books_pumpSync
  | some cursor =>
    rw [Books.goOn, ← books_continueBucket]
    exact books_pumpSync

lemma turn_same {e : Event} {x : Books} (ha : e.answered = ∅) (hd : e.delivered = ∅)
    (h : x = a.books o) : Books.Turn e (a.books o) x := by
  subst h
  exact .same ha hd

lemma turn_begun {e : Event} {x : Books} (ha : e.answered = ∅) (hd : e.delivered = ∅)
    (h : x = a.books o ∨ a.agenda p = none ∧
      a.syncSessions.entries.length < MAX_SIMULTANEOUS_SYNC_PEERS ∧ x = (a.books o).start p) :
    Books.Turn e (a.books o) x := by
  rcases h with rfl | ⟨hnew, hroom, rfl⟩
  · exact .same ha hd
  · exact .start ha hd hnew hroom

lemma turn_startBestSyncPeer {e : Event} {now : ℕ} (pick : Option PeerId) (ha : e.answered = ∅)
    (hd : e.delivered = ∅) :
    Books.Turn e (a.books o) ((a.startBestSyncPeer pick now).books o) := by
  unfold Actor.startBestSyncPeer
  split_ifs
  · exact .same ha hd
  · cases pick with
    | none => exact .same ha hd
    | some p =>
      dsimp only
      split_ifs
      · exact turn_begun ha hd (books_startSync now)
      · exact .same ha hd

lemma turn_handleCommand (command : Command) (signerFull : Bool) :
    Books.Turn (.command command signerFull) (a.books o)
      ((a.handleCommand command signerFull c).books o) := by
  cases command with
  | publishFile sha256 blake3 fileSize fileName =>
    refine turn_same rfl rfl ?_
    unfold Actor.handleCommand
    dsimp only
    split_ifs
    · exact books_violation ..
    · exact books_violation ..
    · exact books_emit rfl rfl
  | disconnect peer => exact turn_same rfl rfl (books_disconnectPeer _)
  | requestSync peer => exact turn_begun rfl rfl (books_startSync _)
  | requestSyncAny pick => exact turn_startBestSyncPeer pick rfl rfl

lemma books_handleSignedRecord (result : Except String FlaggedFileRecord) :
    (a.handleSignedRecord result c).books o = a.books o := by
  unfold Actor.handleSignedRecord
  split_ifs
  · exact books_violation ..
  · rcases result with error | record
    · exact books_violation ..
    · have hqueue := @books_tryEnqueue a o ⟨record, none, c.instant 0, none⟩
      dsimp only
      rcases hq : a.tryEnqueue ⟨record, none, c.instant 0, none⟩ with ⟨_ | _, b⟩
      all_goals rw [hq] at hqueue
      · exact (books_violation ..).trans hqueue
      · exact hqueue

lemma books_outboundFailure {id : RequestId} :
    Books.Pumps peer (((a.books o).take id).settle peer id)
      ((a.outboundFailure peer id).books o) := by
  have hsettled : (({ a with pendingSync := a.pendingSync.erase id } : Actor).updateSession peer
      (.settle id)).books o = ((a.books o).take id).settle peer id :=
    books_updateSession fun s => rfl
  rw [← hsettled]
  exact books_pumpSync

lemma turn_handleDbAction (action : DbAction) :
    Books.Turn (.dbAction action) (a.books o) ((a.handleDbAction action c).books o) := by
  cases action with
  | sendResponse peer channel response =>
    refine turn_same rfl rfl ?_
    unfold Actor.handleDbAction
    dsimp only
    split_ifs
    · exact books_emit rfl rfl
    · rfl
  | inventoryCompared peer id differing => exact .inventoryCompared (books_inventoryCompared (c := c))
  | idsCompared peer id bucket missing nextCursor => exact .idsCompared (books_idsCompared (c := c))
  | maintenance storageSafe storageReason =>
    refine turn_same rfl rfl ?_
    unfold Actor.handleDbAction
    dsimp only
    split_ifs
    · exact books_notify _
    · rfl

/-- What every event does to the books. -/
lemma handle_books (e : Event) : Books.Turn e (a.books o)
    ((a.handle K c e).books o) := by
  cases e with
  | command command signerFull => exact turn_handleCommand command signerFull
  | signedRecord result => exact turn_same rfl rfl (books_handleSignedRecord result)
  | persisted event publication => exact turn_same rfl rfl (books_handlePersisted ..)
  | connectionEstablished peer endpoint connection n =>
    exact turn_begun rfl rfl books_connectionEstablished
  | connectionClosed peer connection =>
    rcases @books_connectionClosed a peer o connection with h | h
    · exact turn_same rfl rfl h
    · rw [Actor.handle, h]
      exact .closed
  | incomingConnectionError connection error => exact turn_same rfl rfl (books_violation ..)
  | incomingConnection connection sendBackAddr =>
    refine turn_same rfl rfl ?_
    unfold Actor.handle Actor.incomingConnection
    dsimp only
    split_ifs
    · rfl
    · exact books_closeConnection _
  | identified peer protocolVersion =>
    refine turn_same rfl rfl ?_
    unfold Actor.handle Actor.identified
    dsimp only
    split_ifs
    · exact (books_disconnectPeer _).trans ((books_violation ..).trans (books_block ..))
    · rfl
  | pinged peer rtt => exact .same rfl rfl
  | gossip source messageId data => exact turn_same rfl rfl (books_validateGossip ..)
  | syncRequest peer request channel =>
    refine turn_same rfl rfl ?_
    unfold Actor.handle Actor.prepareSyncResponse
    dsimp only
    split_ifs
    · exact books_emit rfl rfl
    · exact books_emit rfl rfl
  | syncResponse peer id response => exact books_handleSyncResponse id response
  | outboundFailure peer id => exact .failed books_outboundFailure
  | inboundFailure peer => exact turn_same rfl rfl (books_violation ..)
  | dbAction action => exact turn_handleDbAction action
  | snapshotTick =>
    obtain ⟨ps, h⟩ := @books_snapshotTick a c o
    rw [Actor.handle, h]
    exact .expired ps
  | syncTick pick => exact turn_startBestSyncPeer pick rfl rfl
  | cleanupTick => exact turn_same rfl rfl (books_emit rfl rfl)
  | workerTook n => exact .same rfl rfl
  | other => exact .same rfl rfl

end Protonet.Swarm
