import Protonet.SyncBooks

/-!
# The exchange of a session

Each request of a session stands somewhere: under way to the peer, answered, or with the job that
compares the answer to the store. The exchange is what the books say of the session with one peer,
together with these stages.
-/
namespace Protonet.Swarm
open Lru Postcard Record Replay RateLimit Address Connections Sync Worker

inductive Stage
  | asked (request : SyncRequest)
  | answered (request : SyncRequest) (response : SyncResponse)
  | comparingInventory (remote : InventorySummary)
  | comparingIds (bucket : Int64) (ids : List RecordId) (nextCursor : Option RecordId)
  | compared (action : DbAction)

abbrev Flight := AList fun _ : RequestId => Stage

/-- The effects that send a request out or start a comparison. -/
def Effect.launch? : Effect → Option (RequestId × Stage)
  | .sendRequest id _ request => some (id, .asked request)
  | .compareInventory _ id remote => some (id, .comparingInventory remote)
  | .compareIds _ id bucket ids nextCursor => some (id, .comparingIds bucket ids nextCursor)
  | _ => none

def launch (flight : Flight) (outbox : List Effect) : Flight :=
  (outbox.filterMap Effect.launch?).foldl (fun f e => f.insert e.1 e.2) flight

structure Exchange where
  agenda : Option Agenda
  pending : AList fun _ : RequestId => PendingSync
  next : RequestId
  flight : Flight

/-- The exchange after a turn that began with the given stages. -/
def Actor.exchange (a : Actor) (peer : PeerId) (flight : Flight) : Exchange :=
  ⟨a.agenda peer, a.pendingSync, a.nextRequest, launch flight a.outbox⟩

def Exchange.ask (peer : PeerId) (request : SyncRequest) (x : Exchange) : Exchange where
  agenda := x.agenda.map (.await x.next)
  pending := x.pending.insert x.next (pendingOf peer request)
  next := x.next + 1
  flight := x.flight.insert x.next (.asked request)

def Exchange.settle (id : RequestId) (x : Exchange) : Exchange :=
  { x with
    agenda := x.agenda.map (.settle id)
    flight := x.flight.erase id }

/-- The rounds of `pump_sync`: ask for the next bucket, finish, or wait. -/
inductive Exchange.Pumps (peer : PeerId) : Exchange → Exchange → Prop
  | idle {x} (h : x.agenda = none) : Pumps peer x x
  | wait {x g} (h : x.agenda = some g) (hbusy : g.outstanding ≠ ∅) : Pumps peer x x
  | finish {x} (h : x.agenda = some ⟨[], ∅⟩) : Pumps peer x { x with agenda := none }
  | next {x x' bucket buckets outstanding} (h : x.agenda = some ⟨bucket :: buckets, outstanding⟩)
      (hrest : Pumps peer
        (ask peer (pageRequest bucket none) { x with agenda := some ⟨buckets, outstanding⟩ }) x') :
      Pumps peer x x'

def Exchange.continueBucket (peer : PeerId) (bucket : Int64) (cursor : RecordId) (x : Exchange) :
    Exchange :=
  match x.agenda with
  | none => x
  | some g =>
    if g.outstanding.card < MAX_PENDING_SYNC_REQUESTS_PER_PEER then
      x.ask peer (pageRequest bucket (some cursor))
    else { x with agenda := some { g with buckets := bucket :: g.buckets } }

/-- The exchange with the comparison of a page done with, its missing records asked for. -/
def Exchange.fetch (peer : PeerId) (missing : List RecordId) (x : Exchange) : Exchange :=
  if missing ≠ [] then x.ask peer (.getRecords missing) else x

def Exchange.goOn (peer : PeerId) (bucket : Int64) (nextCursor : Option RecordId) (x : Exchange) :
    Exchange :=
  match nextCursor with
  | none => x
  | some cursor => x.continueBucket peer bucket cursor

def Job.stage : Job → Stage
  | .inventory remote => .comparingInventory remote
  | .ids bucket page nextCursor => .comparingIds bucket page nextCursor

/-- The books of a turn, for one session. -/
def Books.exchange (x : Books) (peer : PeerId) (flight : Flight) : Exchange where
  agenda := x.agenda peer
  pending := x.pending
  next := x.next
  flight := (x.jobs.map fun job => (job.1, job.2.2.stage)).foldl (fun f e => f.insert e.1 e.2)
    ((x.sent.map fun request => (request.1, Stage.asked request.2.2)).foldl
      (fun f e => f.insert e.1 e.2) flight)

def Dues.none : Dues := ⟨∅, ∅, [], []⟩

variable {K : Primitives} {a b : Actor} {c : Clock} {peer p : PeerId} {flight : Flight}
  {x x' : Books} {id : RequestId} {request : SyncRequest} {f : Agenda → Agenda}
  {g : Option Agenda}

lemma launch_sent {outbox : List Effect} (h : jobsIn outbox = []) :
    outbox.filterMap Effect.launch? =
      (sentIn outbox).map fun request => (request.1, .asked request.2.2) := by
  rw [sentIn, List.map_filterMap]
  refine List.filterMap_congr fun e he => ?_
  have hnone : e.job? = none := List.filterMap_eq_nil_iff.mp h e he
  cases e <;> first | rfl | cases hnone

lemma launch_jobs {outbox : List Effect} (h : sentIn outbox = []) :
    outbox.filterMap Effect.launch? =
      (jobsIn outbox).map fun job => (job.1, job.2.2.stage) := by
  rw [jobsIn, List.map_filterMap]
  refine List.filterMap_congr fun e he => ?_
  have hnone : e.sent? = none := List.filterMap_eq_nil_iff.mp h e he
  cases e <;> first | rfl | cases hnone

/-- A turn sends requests or starts a comparison, never both; what its books say is then all there
is to its exchange. -/
lemma exchange_of_books (h : b.books .none = x) (hone : x.jobs = [] ∨ x.sent = []) :
    b.exchange peer flight = x.exchange peer flight := by
  subst h
  have hlaunch : launch flight b.outbox = ((b.books .none).exchange peer flight).flight := by
    unfold launch Books.exchange
    rcases hone with hjobs | hsent
    · rw [launch_sent hjobs, hjobs]
      rfl
    · rw [launch_jobs hsent, hsent]
      rfl
  rw [Actor.exchange, hlaunch]
  rfl

namespace Books

lemma exchange_put : (x.put p g).exchange p flight = { x.exchange p flight with agenda := g } := by
  rw [exchange, put_agenda]
  rfl

lemma exchange_amend : (x.amend p f).exchange p flight =
    { x.exchange p flight with agenda := (x.agenda p).map f } := exchange_put

lemma exchange_send (h : x.jobs = []) : (x.send p request).exchange p flight =
    { x.exchange p flight with
      pending := x.pending.insert x.next (pendingOf p request)
      next := x.next + 1
      flight := (x.exchange p flight).flight.insert x.next (.asked request) } := by
  unfold exchange send
  simp [h]

lemma exchange_ask (h : x.jobs = []) :
    (x.ask p request).exchange p flight = (x.exchange p flight).ask p request := by
  rw [ask, exchange_amend, exchange_send h]
  rfl

lemma exchange_fetch (h : x.jobs = []) {missing : List RecordId} :
    (x.fetch p missing).exchange p flight = (x.exchange p flight).fetch p missing := by
  unfold fetch Exchange.fetch
  split_ifs
  · exact exchange_ask h
  · rfl

lemma fetch_jobs {missing : List RecordId} : (x.fetch p missing).jobs = x.jobs := by
  unfold fetch
  split_ifs <;> rfl

lemma exchange_goOn (h : x.jobs = []) {bucket : Int64} {nextCursor : Option RecordId} :
    (x.goOn p bucket nextCursor).exchange p flight =
      (x.exchange p flight).goOn p bucket nextCursor := by
  cases nextCursor with
  | none => rfl
  | some cursor =>
    unfold goOn Exchange.goOn continueBucket Exchange.continueBucket
    change _ = match x.agenda p with
      | none => _
      | some g => _
    rcases hg : x.agenda p with _ | g
    · rfl
    · dsimp only
      split_ifs
      · exact exchange_ask h
      · rw [exchange_amend, hg]
        rfl

lemma goOn_jobs {bucket : Int64} {nextCursor : Option RecordId} :
    (x.goOn p bucket nextCursor).jobs = x.jobs := by
  cases nextCursor with
  | none => rfl
  | some cursor =>
    unfold goOn continueBucket
    dsimp only
    split
    · rfl
    · split_ifs <;> rfl

/-- The rounds of `pump_sync`, seen from the session. -/
lemma Pumps.exchange (h : Pumps p x x') (hjobs : x.jobs = []) : x'.jobs = [] ∧
    Exchange.Pumps p (x.exchange p flight) (x'.exchange p flight) := by
  induction h with
  | idle hnone => exact ⟨hjobs, .idle hnone⟩
  | wait hsome hbusy _ => exact ⟨hjobs, .wait hsome hbusy⟩
  | @finish x hdone =>
    have hclosed : (x.close p).exchange p flight = { x.exchange p flight with agenda := none } :=
      exchange_put
    rw [hclosed]
    exact ⟨hjobs, .finish hdone⟩
  | @next x x' bucket buckets outstanding hsome _ _ ih =>
    obtain ⟨hjobs', hpumps⟩ := ih hjobs
    rw [exchange_ask (by exact hjobs), exchange_amend, hsome] at hpumps
    exact ⟨hjobs', .next hsome hpumps⟩

lemma Turn.compared_of {response : SyncResponse} {pending : PendingSync} {job : Job}
    (h : Turn (.syncResponse peer id response) x x') (hpending : x.pending.lookup id = some pending)
    (hbounds : response.validateBounds = .ok ()) (hjob : pending.job? response = some job) :
    x' = (x.take id).compare id pending.peer job := by
  cases h with
  | same ha => exact absurd ha (Finset.singleton_ne_empty _)
  | start ha => exact absurd ha (Finset.singleton_ne_empty _)
  | ignored hnone =>
    rw [hnone] at hpending
    cases hpending
  | compared hsome _ hjob' =>
    obtain rfl := Option.some.inj (hsome.symm.trans hpending)
    rw [Option.some.inj (hjob'.symm.trans hjob)]
  | oversized _ hover => exact absurd hbounds hover
  | settled hsome _ hnone _ _ =>
    obtain rfl := Option.some.inj (hsome.symm.trans hpending)
    rw [hnone] at hjob
    cases hjob

lemma Turn.pumped_of {records : List FlaggedFileRecord}
    (h : Turn (.syncResponse peer id (.records records)) x x')
    (hpending : x.pending.lookup id = some (.records peer))
    (hbounds : (SyncResponse.records records).validateBounds = .ok ()) :
    Pumps peer ((x.take id).settle peer id) x' := by
  cases h with
  | same ha => exact absurd ha (Finset.singleton_ne_empty _)
  | start ha => exact absurd ha (Finset.singleton_ne_empty _)
  | ignored hnone =>
    rw [hnone] at hpending
    cases hpending
  | compared hsome _ hjob =>
    obtain rfl := Option.some.inj (hsome.symm.trans hpending)
    cases hjob
  | oversized _ hover => exact absurd hbounds hover
  | settled hsome _ _ hp hpumps =>
    obtain rfl := Option.some.inj (hsome.symm.trans hpending)
    rcases hp with rfl | rfl
    · exact hpumps
    · exact hpumps

end Books

lemma pumps_of_books (h : Books.Pumps peer x (b.books .none)) (hjobs : x.jobs = []) :
    Exchange.Pumps peer (x.exchange peer flight) (b.exchange peer flight) := by
  obtain ⟨hjobs', hpumps⟩ := @Books.Pumps.exchange peer flight _ _ h hjobs
  rwa [exchange_of_books rfl (.inl hjobs')]

lemma exchange_startSync {now : ℕ} (hfresh : a.syncSessions.lookup peer = none)
    (hroom : a.syncSessions.entries.length < MAX_SIMULTANEOUS_SYNC_PEERS) :
    (a.cleared.startSync peer now).exchange peer flight =
      .ask peer .getInventory { a.cleared.exchange peer flight with agenda := some ⟨[], ∅⟩ } := by
  have hbooks := @books_started a.cleared peer .none now hfresh hroom
  rw [exchange_of_books hbooks (.inl rfl)]
  unfold Books.exchange
  rw [show ((a.cleared.books .none).start peer).agenda peer = some ⟨[], {a.nextRequest}⟩ from
    Books.put_agenda]
  rfl

lemma exchange_inventoryResponse {remote : InventorySummary}
    (hpending : a.pendingSync.lookup id = some (.inventory peer))
    (hbounds : (SyncResponse.inventory remote).validateBounds = .ok ()) :
    (a.cleared.handleSyncResponse K peer id (.inventory remote) c).exchange peer flight =
      { a.cleared.exchange peer flight with
        pending := a.pendingSync.erase id
        flight := flight.insert id (.comparingInventory remote) } := by
  have hturn := @books_handleSyncResponse K a.cleared c peer .none id (.inventory remote)
  exact exchange_of_books (hturn.compared_of hpending hbounds rfl) (.inr rfl)

lemma exchange_idsResponse {bucket : Int64} {ids : List RecordId} {nextCursor : Option RecordId}
    (hpending : a.pendingSync.lookup id = some (.ids peer bucket))
    (hbounds : (SyncResponse.recordIds ids nextCursor).validateBounds = .ok ()) :
    (a.cleared.handleSyncResponse K peer id (.recordIds ids nextCursor) c).exchange peer flight =
      { a.cleared.exchange peer flight with
        pending := a.pendingSync.erase id
        flight := flight.insert id (.comparingIds bucket ids nextCursor) } := by
  have hturn := @books_handleSyncResponse K a.cleared c peer .none id (.recordIds ids nextCursor)
  exact exchange_of_books (hturn.compared_of hpending hbounds rfl) (.inr rfl)

lemma exchange_recordsResponse {records : List FlaggedFileRecord}
    (hpending : a.pendingSync.lookup id = some (.records peer))
    (hbounds : (SyncResponse.records records).validateBounds = .ok ()) :
    Exchange.Pumps peer
      { a.cleared.exchange peer flight with
        agenda := (a.agenda peer).map (.settle id)
        pending := a.pendingSync.erase id }
      ((a.cleared.handleSyncResponse K peer id (.records records) c).exchange peer flight) := by
  have hturn := @books_handleSyncResponse K a.cleared c peer .none id (.records records)
  have hpumps := @pumps_of_books _ peer flight _ (hturn.pumped_of hpending hbounds) rfl
  rw [Books.settle, Books.exchange_amend] at hpumps
  exact hpumps

lemma exchange_inventoryCompared {differing : List Int64} :
    Exchange.Pumps peer
      { a.cleared.exchange peer flight with
        agenda := (a.agenda peer).map fun g => ⟨differing, g.outstanding.erase id⟩ }
      ((a.cleared.handleDbAction (.inventoryCompared peer id differing) c).exchange peer
        flight) := by
  have hpumps := @pumps_of_books _ peer flight _
    (@books_inventoryCompared a.cleared c peer .none id differing) rfl
  rw [Books.exchange_amend] at hpumps
  exact hpumps

lemma exchange_idsCompared {bucket : Int64} {missing : List RecordId}
    {nextCursor : Option RecordId} :
    Exchange.Pumps peer
      (.goOn peer bucket nextCursor (.fetch peer missing
        { a.cleared.exchange peer flight with agenda := (a.agenda peer).map (.settle id) }))
      ((a.cleared.handleDbAction (.idsCompared peer id bucket missing nextCursor) c).exchange peer
        flight) := by
  have hpumps := @pumps_of_books _ peer flight _
    (@books_idsCompared a.cleared c peer .none id bucket missing nextCursor)
    (Books.goOn_jobs.trans Books.fetch_jobs)
  rw [Books.exchange_goOn Books.fetch_jobs, Books.exchange_fetch rfl, Books.settle,
    Books.exchange_amend] at hpumps
  exact hpumps

lemma exchange_handlePersisted (event : PersistEvent) (publication : Option String) :
    (a.cleared.handlePersisted K event publication c).exchange peer flight =
      a.cleared.exchange peer flight :=
  exchange_of_books (books_handlePersisted event publication) (.inl rfl)

end Protonet.Swarm
