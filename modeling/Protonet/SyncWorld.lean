import Protonet.InventoryDigests
import Protonet.Persistence
import Protonet.Pursuit
import Protonet.RemoteRecords

namespace Protonet.SyncWorld
open MachineInt StepRun Postcard Record RecordIdentity Database Worker Sync Queries Swarm
  Persistence Listing InventoryDigests RemoteRecords

/-- The job that prepares a response; an error of the store is an internal one. -/
def respond (K : Primitives) (db : SignatureDatabase) (now : Int64) : SyncRequest → SyncResponse
  | .getInventory => .inventory (inventory K db now)
  | .getRecordIds bucket cursor limit =>
    match recordIds db bucket cursor (min limit.toNat MAX_IDS_PER_RESPONSE) now with
    | some (ids, nextCursor) => .recordIds ids nextCursor
    | none => .error .internal
  | .getRecords ids =>
    match recordsByIds db ids now with
    | some records => .records records
    | none => .error .internal

/-- What a peer answers whose limiters let everything through. -/
def answer (K : Primitives) (db : SignatureDatabase) (request : SyncRequest) (now : Int64) :
    SyncResponse :=
  match request.validate with
  | .error _ => .error .tooLarge
  | .ok () => respond K db now request

/-- The ids of a page to ask for. A lookup that fails counts as one that finds nothing. -/
def missingIds (db : SignatureDatabase) (ids : List RecordId) (now : Int64) : List RecordId :=
  let existing := ((recordsByIds db ids now).getD []).map FlaggedFileRecord.recordId
  (ids.filter fun id => decide (id ∉ existing)).take MAX_REQUESTED_RECORDS

/-- The jobs that compare a response with the store. -/
def comparison (K : Primitives) (db : SignatureDatabase) (peer : PeerId) (id : RequestId)
    (now : Int64) : Stage → Option DbAction
  | .comparingInventory remote =>
    some (.inventoryCompared peer id (differingBuckets (inventory K db now) remote))
  | .comparingIds bucket ids nextCursor =>
    some (.idsCompared peer id bucket (missingIds db ids now) nextCursor)
  | _ => none

structure World where
  engine : Engine
  flight : Flight

inductive Move
  /-- The peer answers a request. -/
  | answer (id : RequestId) (now : Int64)
  /-- The actor handles an answer. -/
  | receive (id : RequestId) (c : Clock)
  /-- A comparison runs. -/
  | compare (id : RequestId) (now : Int64)
  /-- The actor handles the result of a comparison. -/
  | act (id : RequestId) (c : Clock)
  | work (n : ℕ) (readings : StorageReadings)
  | report (c : Clock) (publication : Option String)

def World.after (flight : Flight) (s : Engine) : World := ⟨s, launch flight s.actor.outbox⟩

/-- Reports of the writer start nothing, so they only concern the engine. -/
def World.step (K : Primitives) (peer : PeerId) (remote : SignatureDatabase) (w : World) :
    Move → World
  | .answer id now =>
    match w.flight.lookup id with
    | some (.asked request) =>
      { w with flight := w.flight.insert id (.answered request (answer K remote request now)) }
    | _ => w
  | .receive id c =>
    match w.flight.lookup id with
    | some (.answered _ response) =>
      .after (w.flight.erase id) (w.engine.step K (.swarm c (.syncResponse peer id response)))
    | _ => w
  | .compare id now =>
    match (w.flight.lookup id).bind (comparison K w.engine.db peer id now) with
    | some action => { w with flight := w.flight.insert id (.compared action) }
    | none => w
  | .act id c =>
    match w.flight.lookup id with
    | some (.compared action) =>
      .after (w.flight.erase id) (w.engine.step K (.swarm c (.dbAction action)))
    | _ => w
  | .work n readings => { w with engine := w.engine.work K n readings }
  | .report c publication => { w with engine := w.engine.report K c publication }

/-- Requests, ticks and new connections all begin a session this way. -/
def World.start (peer : PeerId) (s : Engine) (now : ℕ) : World :=
  .after ∅ { s with actor := s.actor.cleared.startSync peer now }

def World.exchange (peer : PeerId) (w : World) : Exchange :=
  ⟨w.engine.actor.agenda peer, w.engine.actor.pendingSync, w.engine.actor.nextRequest, w.flight⟩

/-- A turn of the loop over an answer: what is new is let in, and what the store lacks and the
queue does not hold is new. -/
def Admitted (K : Primitives) (c : Clock) (db : SignatureDatabase) (t : SyncTurn) : Prop :=
  (t.isNew K c = true → t.core.grants t.peer (t.now c) = true ∧ t.core.hasRoom = true) ∧
    (¬ Has db t.record.recordId →
      t.record.recordId ∉ t.core.queue.map (fun q => q.record.recordId) → t.isNew K c = true)

instance (K : Primitives) (c : Clock) (db : SignatureDatabase) (t : SyncTurn) :
    Decidable (Admitted K c db t) := inferInstanceAs (Decidable (_ ∧ _))

/-- The peer answers while none of its rows expires, limiters and queues let everything through,
the replay check calls new what the store lacks, and the hash does not confuse the id lists that
an inventory comparison puts next to each other. -/
def Smooth (K : Primitives) (remote : SignatureDatabase) (start : Int64) (w : World) :
    Move → Prop
  | .answer _ now => Steady remote start now
  | .receive id c =>
    match w.flight.lookup id with
    | some (.answered _ response) =>
      ∀ t ∈ w.engine.actor.cleared.responseTurns K id response c, Admitted K c w.engine.db t
    | _ => True
  | .compare id now =>
    match w.flight.lookup id with
    | some (.comparingInventory _) => ∀ bucket ∈ starts (inventoryRows remote start),
        CollisionFree K {idBytes (bucketIds remote start bucket),
          idBytes (bucketIds w.engine.db now bucket)}
    | _ => True
  | .work n readings => WithinLimits w.engine (.work n readings)
  | _ => True

instance (K : Primitives) (remote : SignatureDatabase) (start : Int64) (w : World) (move : Move) :
    Decidable (Smooth K remote start w move) :=
  match move with
  | .answer _ now => inferInstanceAs (Decidable (Steady remote start now))
  | .receive id _ => by
    unfold Smooth
    dsimp only
    split <;> infer_instance
  | .compare id now => by
    unfold Smooth
    dsimp only
    split
    · exact decidable_of_iff (((inventoryRows remote start).map Prod.fst).all (fun bucket =>
        decide (CollisionFree K {idBytes (bucketIds remote start bucket),
          idBytes (bucketIds w.engine.db now bucket)})) = true) (by simp [starts])
    · infer_instance
  | .act .. => .isTrue trivial
  | .work n readings => inferInstanceAs (Decidable (WithinLimits w.engine (.work n readings)))
  | .report .. => .isTrue trivial

/-- A session from its beginning to its completion, with every request answered and every record
written. -/
def Session (K : Primitives) (peer : PeerId) (remote : SignatureDatabase) (start : Int64)
    (s s' : Engine) : Prop :=
  s.actor.syncSessions.lookup peer = none ∧
    s.actor.syncSessions.entries.length < MAX_SIMULTANEOUS_SYNC_PEERS ∧
    ∃ now moves, Along (World.step K peer remote) (Smooth K remote start) (.start peer s now) moves ∧
      (run (World.step K peer remote) (.start peer s now) moves).engine = s' ∧
      s'.actor.syncSessions.lookup peer = none ∧ s'.actor.queue = []

/-- What holds of the local engine while it takes records of the remote store only. -/
structure Sound (remote : SignatureDatabase) (s : Engine) : Prop where
  kept : WellKept s.db
  agree : Agree remote s.db
  comes : ∀ q ∈ s.actor.queue, ComesFrom remote q.record
  clean : Clean s
  safe : s.actor.storageSafetyMode = false

def Held (s : Engine) (id : RecordId) : Prop :=
  Has s.db id ∨ id ∈ s.actor.queue.map fun q => q.record.recordId

variable {K : Primitives} {peer p : PeerId} {remote : SignatureDatabase} {start : Int64}
  {s : Engine} {a : Actor} {c : Clock} {id : RecordId}

variable {w : World} {rid : RequestId} {request : SyncRequest} {action : DbAction}

lemma step_answer {now : Int64} (hs : w.flight.lookup rid = some (.asked request)) :
    w.step K peer remote (.answer rid now) = { w with
      flight := w.flight.insert rid (.answered request (answer K remote request now)) } := by
  simp only [World.step, hs]

lemma step_receive {response : SyncResponse}
    (hs : w.flight.lookup rid = some (.answered request response)) :
    w.step K peer remote (.receive rid c) = .after (w.flight.erase rid) { w.engine with
      actor := w.engine.actor.cleared.handleSyncResponse K peer rid response c } := by
  simp only [World.step, hs]
  rfl

lemma step_compare {now : Int64} {stage : Stage} (hs : w.flight.lookup rid = some stage)
    (haction : comparison K w.engine.db peer rid now stage = some action) :
    w.step K peer remote (.compare rid now) = { w with
      flight := w.flight.insert rid (.compared action) } := by
  simp only [World.step, hs, Option.bind_some, haction]

lemma step_act (hs : w.flight.lookup rid = some (.compared action)) :
    w.step K peer remote (.act rid c) = .after (w.flight.erase rid) { w.engine with
      actor := w.engine.actor.cleared.handleDbAction action c } := by
  simp only [World.step, hs]
  rfl

lemma Sound.turn (h : Sound remote s) {a : Actor} {new : List PersistRequest}
    (hqueue : a.queue = s.actor.queue ++ new) (hnew : ∀ q ∈ new, ComesFrom remote q.record)
    (hmode : a.storageSafetyMode = s.actor.storageSafetyMode) :
    Sound remote { s with actor := a } ∧
      ∀ rid, Held s rid → Held { s with actor := a } rid := by
  refine ⟨⟨h.kept, h.agree, fun q hq => ?_, h.clean, hmode.trans h.safe⟩, fun rid hr => ?_⟩
  · rw [hqueue] at hq
    exact (List.mem_append.mp hq).elim (h.comes q) (hnew q)
  · refine hr.imp_right fun hmem => ?_
    rw [hqueue, List.map_append]
    exact List.mem_append_left _ hmem

lemma Sound.still (h : Sound remote s) {a : Actor} (hcore : a.core = s.actor.cleared.core) :
    Sound remote { s with actor := a } ∧ ∀ rid, Held s rid → Held { s with actor := a } rid := by
  have hqueue : a.queue = s.actor.queue ++ [] :=
    (congrArg Core.queue hcore).trans (List.append_nil _).symm
  exact h.turn hqueue (by simp) (congrArg Core.storageSafetyMode hcore)

/-- Records that an honest peer sends are those of its rows. -/
lemma comesFrom_of_decode (hremote : WellKept remote) {r : Row} {record : FlaggedFileRecord}
    (hr : r ∈ remote.records.rows)
    (hdecode : FlaggedFileRecord.decode r.encodedRecord = .ok record) :
    ComesFrom remote record ∧ record.recordId = r.recordId := by
  obtain ⟨record', hdecode', hid, hbounds, hto⟩ := hremote.decode hr
  rw [hdecode] at hdecode'
  obtain rfl := Except.ok.inj hdecode'
  exact ⟨⟨hbounds, r, hr, hto⟩, hid⟩

lemma requests_record {t : SyncTurn} {q : PersistRequest} (h : q ∈ t.requests K c) :
    q.record = t.record := by
  unfold SyncTurn.requests at h
  split_ifs at h
  · rw [List.mem_singleton.mp h]
  · simp at h

/-- A turn that is let in does not end the loop, and a new one leaves its record in the queue. -/
lemma acceptSyncRecord_admitted {db : SignatureDatabase} {i : ℕ} {record : FlaggedFileRecord}
    (h : Admitted K c db ⟨p, i, record, a.core⟩) :
    (a.acceptSyncRecord K p record (c.instant (2 * i + 1)) (c.instant (2 * i + 2))
        (c.unixMs i)).1 = true ∧
      (Has db record.recordId ∨ record.recordId ∈
        (a.queue ++ SyncTurn.requests K c ⟨p, i, record, a.core⟩).map
          fun q => q.record.recordId) := by
  obtain ⟨t, ht⟩ : ∃ t : SyncTurn, t = ⟨p, i, record, a.core⟩ := ⟨_, rfl⟩
  rw [← ht] at h ⊢
  obtain ⟨hlet, hnew⟩ := h
  have hrecord : t.record = record := congrArg SyncTurn.record ht
  have hqueue : t.core.queue = a.queue := congrArg (fun t => Core.queue (SyncTurn.core t)) ht
  rw [hrecord, hqueue] at hnew
  rcases hn : t.isNew K c with _ | _
  · rw [ht] at hn
    obtain ⟨-, -, hgoing⟩ := @acceptSyncRecord_old K a p record (c.instant (2 * i + 1))
      (c.instant (2 * i + 2)) (c.unixMs i) hn
    refine ⟨hgoing, ?_⟩
    by_contra hlack
    rw [not_or, List.map_append, List.mem_append, not_or] at hlack
    rw [← ht, hnew hlack.1 hlack.2.1] at hn
    cases hn
  · obtain ⟨hgrants, hroom⟩ := hlet hn
    have hrequests := (SyncTurn.effects_new hn).2
    rw [hgrants, hroom] at hrequests
    rw [ht] at hn hgrants hroom
    obtain ⟨-, -, -, hgoing⟩ := @acceptSyncRecord_new K a p record (c.instant (2 * i + 1))
      (c.instant (2 * i + 2)) (c.unixMs i) hn
    refine ⟨hgoing.trans (by rw [Bool.and_eq_true]; exact ⟨hgrants, hroom⟩), .inr ?_⟩
    rw [hrequests, List.map_append]
    exact List.mem_append_right _ (by simp [hrecord])

lemma acceptSyncLoop_holds {db : SignatureDatabase} {i : ℕ} {records : List FlaggedFileRecord}
    (h : ∀ t ∈ a.syncTurns K p c i records, Admitted K c db t) :
    ∀ record ∈ records, Has db record.recordId ∨ record.recordId ∈
      (a.acceptSyncLoop K p c i records).queue.map fun q => q.record.recordId := by
  induction records generalizing a i with
  | nil => simp
  | cons record records ih =>
    rw [Actor.syncTurns] at h
    obtain ⟨hgoing, hheld⟩ := acceptSyncRecord_admitted (h _ List.mem_cons_self)
    obtain ⟨replay, rateLimiter, hcore⟩ := @acceptSyncRecord_core K a c p i record
    rw [Actor.acceptSyncLoop]
    rcases hr : a.acceptSyncRecord K p record (c.instant (2 * i + 1)) (c.instant (2 * i + 2))
      (c.unixMs i) with ⟨going, b⟩
    rw [hr] at hgoing hcore h
    obtain rfl : going = true := hgoing
    dsimp only at h hcore ⊢
    have hqueue : b.queue = a.queue ++ SyncTurn.requests K c ⟨p, i, record, a.core⟩ :=
      congrArg Core.queue hcore
    obtain ⟨replay', rateLimiter', hloop⟩ := @core_acceptSyncLoop K b c p (i + 1) records
    have hgrown : (b.acceptSyncLoop K p c (i + 1) records).queue =
        b.queue ++ (b.syncTurns K p c (i + 1) records).flatMap (SyncTurn.requests K c) :=
      congrArg Core.queue hloop
    intro r hmem
    rcases List.mem_cons.mp hmem with rfl | hmem
    · refine hheld.imp_right fun hq => ?_
      rw [hgrown, hqueue, List.map_append]
      exact List.mem_append_left _ hq
    · exact ih (fun t ht => h t (List.mem_cons_of_mem _ ht)) r hmem

/-- An answer adds requests for its own records to the queue, all of them where every turn is
let in. -/
lemma handleSyncResponse_queue {rid : RequestId} {response : SyncResponse} :
    ∃ new, (a.handleSyncResponse K peer rid response c).queue = a.queue ++ new ∧
      (∀ q ∈ new, ∃ records, response = .records records ∧ q.record ∈ records) ∧
      (a.handleSyncResponse K peer rid response c).storageSafetyMode = a.storageSafetyMode := by
  obtain ⟨replay, rateLimiter, hcore⟩ := @core_handleSyncResponse K a c peer rid response
  refine ⟨_, congrArg Core.queue hcore, fun q hq => ?_, congrArg Core.storageSafetyMode hcore⟩
  obtain ⟨t, ht, hqt⟩ := List.mem_flatMap.mp hq
  unfold Actor.responseTurns at ht
  split at ht
  · next records hp =>
    split_ifs at ht
    · simp at ht
    · refine ⟨records, rfl, ?_⟩
      rw [requests_record hqt]
      exact List.mem_of_mem_take (mem_syncTurns ht).2.1
  · simp at ht

lemma handleSyncResponse_holds {db : SignatureDatabase} {rid : RequestId}
    {records : List FlaggedFileRecord} (hpending : a.pendingSync.lookup rid = some (.records peer))
    (hbounds : records.length ≤ MAX_RECORDS_PER_RESPONSE) (hsafe : a.storageSafetyMode = false)
    (h : ∀ t ∈ a.responseTurns K rid (.records records) c, Admitted K c db t) :
    ∀ record ∈ records, Has db record.recordId ∨ record.recordId ∈
      (a.handleSyncResponse K peer rid (.records records) c).queue.map
        fun q => q.record.recordId := by
  have hall : records.take MAX_REQUESTED_RECORDS = records := List.take_of_length_le hbounds
  have hturns : a.responseTurns K rid (.records records) c =
      (a.settled peer rid).syncTurns K peer c 0 records := by
    have hover : a.oversized rid (.records records) = false := by
      simp [Actor.oversized, SyncResponse.validateBounds, hbounds]
    unfold Actor.responseTurns
    rw [hpending]
    dsimp only
    rw [hover, hsafe, hall]
    rfl
  obtain ⟨replay, rateLimiter, hcore⟩ :=
    @core_handleSyncResponse K a c peer rid (.records records)
  obtain ⟨replay', rateLimiter', hloop⟩ := @core_acceptSyncLoop K (a.settled peer rid) c peer 0 records
  have hqueue : (a.handleSyncResponse K peer rid (.records records) c).queue =
      ((a.settled peer rid).acceptSyncLoop K peer c 0 records).queue := by
    have hsettled : (a.settled peer rid).queue = a.queue := congrArg Core.queue (core_settled rid)
    have hleft := congrArg Core.queue hcore
    have hright := congrArg Core.queue hloop
    rw [hturns] at hleft
    exact hleft.trans (hsettled ▸ hright.symm)
  rw [hturns] at h
  rw [hqueue]
  exact acceptSyncLoop_holds h

end Protonet.SyncWorld
