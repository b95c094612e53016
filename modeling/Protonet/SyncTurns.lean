import Protonet.SwarmFrames

namespace Protonet.Swarm
open Lru MachineInt StepRun DeadlineTable Postcard Record Replay RateLimit Address Connections
  Sync Worker

structure SyncTurn where
  peer : PeerId
  round : ℕ
  record : FlaggedFileRecord
  core : Core

/-- The reading a turn charges and enqueues with, and the one it blocks with. -/
def SyncTurn.now (c : Clock) (t : SyncTurn) : ℕ := c.instant (2 * t.round + 1)
def SyncTurn.blockedAt (c : Clock) (t : SyncTurn) : ℕ := c.instant (2 * t.round + 2)

/-- A record the validator accepts and the replay state calls new. -/
def Core.isNew (K : Primitives) (k : Core) (record : FlaggedFileRecord) (now : ℕ)
    (unixMs : Int64) : Bool :=
  match RecordValidator.default.validate K record unixMs, record.origin K with
  | .ok (), .ok origin =>
    decide ((k.replay.check record.recordId origin record.sequence now).1 = .new)
  | _, _ => false

/-- Both buckets of the peer's source address hold a token; without an address nothing does. -/
def Core.grants (k : Core) (peer : PeerId) (now : ℕ) : Bool :=
  match k.connections.sourceKeys peer with
  | none => false
  | some (ip, p) => (k.rateLimiter.allowIngestionSource ip p now).1

def Core.hasRoom (k : Core) : Bool := decide (k.queue.length < PERSISTENCE_QUEUE_CAPACITY)

def SyncTurn.isNew (K : Primitives) (c : Clock) (t : SyncTurn) : Bool :=
  t.core.isNew K t.record (t.now c) (c.unixMs t.round)

/-- The turn finds a new record and a source without a token: the peer is blocked for it. -/
def SyncTurn.denied (K : Primitives) (c : Clock) (t : SyncTurn) : Bool :=
  t.isNew K c && !t.core.grants t.peer (t.now c)

def SyncTurn.enqueues (K : Primitives) (c : Clock) (t : SyncTurn) : Bool :=
  t.isNew K c && t.core.grants t.peer (t.now c) && t.core.hasRoom

def Actor.syncTurns (K : Primitives) (peer : PeerId) (c : Clock) :
    ℕ → List FlaggedFileRecord → Actor → List SyncTurn
  | _, [], _ => []
  | i, record :: records, a =>
    ⟨peer, i, record, a.core⟩ ::
      match a.acceptSyncRecord K peer record (c.instant (2 * i + 1)) (c.instant (2 * i + 2))
        (c.unixMs i) with
      | (true, a) => syncTurns K peer c (i + 1) records a
      | (false, _) => []

def SyncTurn.ops (K : Primitives) (c : Clock) (t : SyncTurn) : List (Op PeerId) :=
  if t.denied K c then [.call ⟨t.peer, t.blockedAt c, MINOR_BLOCK⟩] else []

def SyncTurn.requests (K : Primitives) (c : Clock) (t : SyncTurn) : List PersistRequest :=
  if t.enqueues K c then [⟨t.record, some t.peer, t.now c, none⟩] else []

variable {K : Primitives} {a b : Actor} {c : Clock} {peer : PeerId}

lemma allowIngestionSource_fst (now : ℕ) :
    (a.allowIngestionSource peer now).1 = a.core.grants peer now := by
  unfold Actor.allowIngestionSource Core.grants
  simp only [Actor.core]
  rcases a.connections.sourceKeys peer with _ | ⟨ip, p⟩ <;> rfl

lemma acceptSyncRecord_old {record : FlaggedFileRecord} {now blockedAt : ℕ} {unixMs : Int64}
    (h : a.core.isNew K record now unixMs = false) :
    ∃ replay, (a.acceptSyncRecord K peer record now blockedAt unixMs).2.core =
        { a.core with replay } ∧
      (a.acceptSyncRecord K peer record now blockedAt unixMs).1 = true := by
  revert h
  unfold Core.isNew Actor.acceptSyncRecord
  rw [show a.core.replay = a.replay from rfl]
  rcases RecordValidator.default.validate K record unixMs with error | ⟨⟩
  · exact fun _ => ⟨a.replay, core_violation .., rfl⟩
  · rcases record.origin K with error | origin
    · exact fun _ => ⟨a.replay, rfl, rfl⟩
    · dsimp only
      rcases a.replay.check record.recordId origin record.sequence now with ⟨_ | _ | _, replay⟩
      · exact fun h => absurd h (by simp)
      · exact fun _ => ⟨replay, rfl, rfl⟩
      · exact fun _ => ⟨replay, rfl, rfl⟩

/-- A new record is charged to its source, and enqueued when the source can pay. -/
lemma acceptSyncRecord_new {record : FlaggedFileRecord} {now blockedAt : ℕ} {unixMs : Int64}
    (h : a.core.isNew K record now unixMs = true) :
    ∃ replay rateLimiter, (a.acceptSyncRecord K peer record now blockedAt unixMs).2.core =
        { a.core.blocking (if a.core.grants peer now then []
            else [.call ⟨peer, blockedAt, MINOR_BLOCK⟩]) with
          replay
          rateLimiter
          queue := a.queue ++ if a.core.grants peer now && a.core.hasRoom then
            [⟨record, some peer, now, none⟩] else [] } ∧
      (a.acceptSyncRecord K peer record now blockedAt unixMs).1 =
        (a.core.grants peer now && a.core.hasRoom) := by
  revert h
  unfold Core.isNew Actor.acceptSyncRecord
  rw [show a.core.replay = a.replay from rfl]
  rcases RecordValidator.default.validate K record unixMs with error | ⟨⟩
  · exact fun h => absurd h (by simp)
  · rcases record.origin K with error | origin
    · exact fun h => absurd h (by simp)
    · dsimp only
      rcases a.replay.check record.recordId origin record.sequence now with ⟨_ | _ | _, replay⟩
      · intro _
        obtain ⟨b, hb⟩ : ∃ b, b = ({ a with replay } : Actor) := ⟨_, rfl⟩
        have hgrants : (b.allowIngestionSource peer now).1 = a.core.grants peer now := by
          rw [allowIngestionSource_fst, hb]
          rfl
        obtain ⟨rateLimiter, hcore⟩ := @core_allowIngestionSource b peer now
        have hbcore : b.core = { a.core with replay } := by
          rw [hb]
          rfl
        rw [hbcore] at hcore
        dsimp only
        rw [← hb]
        rcases hallow : b.allowIngestionSource peer now with ⟨granted, b'⟩
        rw [hallow] at hgrants hcore
        dsimp only at hgrants hcore
        rw [← hgrants]
        cases granted with
        | false =>
          refine ⟨replay, rateLimiter, ?_, rfl⟩
          simp only [core_block, hcore, Bool.false_eq_true, if_false, Bool.false_and,
            List.append_nil]
          rfl
        | true =>
          have hqueue : b'.queue = a.queue := congrArg Core.queue hcore
          have hroom : a.core.hasRoom = decide (b'.queue.length < PERSISTENCE_QUEUE_CAPACITY) := by
            rw [hqueue]
            rfl
          rw [hroom]
          unfold Actor.tryEnqueue
          by_cases hlt : b'.queue.length < PERSISTENCE_QUEUE_CAPACITY
          · refine ⟨b'.replay.markPending record.recordId now, rateLimiter, ?_, by simp [hlt]⟩
            simp only [hlt, if_true, decide_true, Bool.and_self, Core.blocking_nil, ← hqueue]
            exact congrArg (fun k : Core => { k with
              replay := b'.replay.markPending record.recordId now
              queue := b'.queue ++ [(⟨record, some peer, now, none⟩ : PersistRequest)] }) hcore
          · refine ⟨replay, rateLimiter, ?_, by simp [hlt]⟩
            simp only [hlt, if_false, decide_false, Bool.and_false, Bool.false_eq_true, if_true,
              Core.blocking_nil, List.append_nil]
            exact hcore
      · exact fun h => absurd h (by simp)
      · exact fun h => absurd h (by simp)

lemma SyncTurn.effects_old {t : SyncTurn} (h : t.isNew K c = false) :
    t.ops K c = [] ∧ t.requests K c = [] := by
  unfold SyncTurn.ops SyncTurn.requests SyncTurn.denied SyncTurn.enqueues
  simp [h]

lemma SyncTurn.effects_new {t : SyncTurn} (h : t.isNew K c = true) :
    t.ops K c = (if t.core.grants t.peer (t.now c) then []
        else [.call ⟨t.peer, t.blockedAt c, MINOR_BLOCK⟩]) ∧
      t.requests K c = if t.core.grants t.peer (t.now c) && t.core.hasRoom then
        [⟨t.record, some t.peer, t.now c, none⟩] else [] := by
  unfold SyncTurn.ops SyncTurn.requests SyncTurn.denied SyncTurn.enqueues
  rw [h, Bool.true_and, Bool.true_and]
  cases t.core.grants t.peer (t.now c) <;> simp

lemma SyncTurn.ops_cases (t : SyncTurn) : t.denied K c = false ∧ t.ops K c = [] ∨
    t.denied K c = true ∧ t.ops K c = [.call ⟨t.peer, t.blockedAt c, MINOR_BLOCK⟩] := by
  unfold SyncTurn.ops
  cases t.denied K c <;> simp

/-- A turn at a glance: its operations, its requests, and whether the loop goes on. -/
lemma acceptSyncRecord_core (i : ℕ) (record : FlaggedFileRecord) :
    ∃ replay rateLimiter, (a.acceptSyncRecord K peer record (c.instant (2 * i + 1))
        (c.instant (2 * i + 2)) (c.unixMs i)).2.core =
      { a.core.blocking (SyncTurn.ops K c ⟨peer, i, record, a.core⟩) with
        replay
        rateLimiter
        queue := a.queue ++ SyncTurn.requests K c ⟨peer, i, record, a.core⟩ } := by
  obtain ⟨t, ht⟩ : ∃ t : SyncTurn, t = ⟨peer, i, record, a.core⟩ := ⟨_, rfl⟩
  rw [← ht]
  rcases hnew : t.isNew K c with _ | _
  · obtain ⟨hops, hrequests⟩ := SyncTurn.effects_old hnew
    rw [ht] at hnew
    obtain ⟨replay, h, -⟩ := @acceptSyncRecord_old K a peer record (c.instant (2 * i + 1))
      (c.instant (2 * i + 2)) (c.unixMs i) hnew
    refine ⟨replay, a.rateLimiter, ?_⟩
    rw [hops, hrequests, Core.blocking_nil, List.append_nil]
    exact h
  · obtain ⟨hops, hrequests⟩ := SyncTurn.effects_new hnew
    rw [ht] at hnew
    obtain ⟨replay, rateLimiter, h, -⟩ := @acceptSyncRecord_new K a peer record
      (c.instant (2 * i + 1)) (c.instant (2 * i + 2)) (c.unixMs i) hnew
    refine ⟨replay, rateLimiter, ?_⟩
    rw [hops, hrequests, ht]
    exact h

lemma acceptSyncRecord_fst_of_denied {i : ℕ} {record : FlaggedFileRecord}
    (h : SyncTurn.denied K c ⟨peer, i, record, a.core⟩ = true) :
    (a.acceptSyncRecord K peer record (c.instant (2 * i + 1)) (c.instant (2 * i + 2))
      (c.unixMs i)).1 = false := by
  obtain ⟨hnew, hgrants⟩ := Bool.and_eq_true_iff.mp h
  obtain ⟨replay, rateLimiter, -, hfst⟩ := @acceptSyncRecord_new K a peer record
    (c.instant (2 * i + 1)) (c.instant (2 * i + 2)) (c.unixMs i) hnew
  change (!a.core.grants peer (c.instant (2 * i + 1))) = true at hgrants
  rw [Bool.not_eq_true'] at hgrants
  rw [hfst, hgrants, Bool.false_and]

lemma mem_syncTurns {i : ℕ} {records : List FlaggedFileRecord} {t : SyncTurn}
    (h : t ∈ a.syncTurns K peer c i records) :
    (t.peer = peer ∧ i ≤ t.round) ∧ t.record ∈ records ∧ t.core.connections = a.connections := by
  induction records generalizing a i with
  | nil => simp [Actor.syncTurns] at h
  | cons record records ih =>
    rw [Actor.syncTurns] at h
    rcases List.mem_cons.mp h with rfl | h
    · exact ⟨⟨rfl, le_rfl⟩, List.mem_cons_self, rfl⟩
    · obtain ⟨replay, rateLimiter, hcore⟩ := @acceptSyncRecord_core K a c peer i record
      rcases hr : a.acceptSyncRecord K peer record (c.instant (2 * i + 1)) (c.instant (2 * i + 2))
        (c.unixMs i) with ⟨_ | _, b⟩
      all_goals rw [hr] at h hcore
      · simp at h
      · obtain ⟨⟨hpeer, hround⟩, hrecord, hconnections⟩ := ih h
        exact ⟨⟨hpeer, by omega⟩, List.mem_cons_of_mem _ hrecord,
          hconnections.trans (congrArg Core.connections hcore)⟩

lemma core_acceptSyncLoop (i : ℕ) (records : List FlaggedFileRecord) :
    ∃ replay rateLimiter, (a.acceptSyncLoop K peer c i records).core =
      { a.core.blocking ((a.syncTurns K peer c i records).flatMap (SyncTurn.ops K c)) with
        replay
        rateLimiter
        queue := a.queue ++
          (a.syncTurns K peer c i records).flatMap (SyncTurn.requests K c) } := by
  induction records generalizing a i with
  | nil => exact ⟨a.replay, a.rateLimiter, by simp [Actor.acceptSyncLoop, Actor.syncTurns,
      Actor.core]⟩
  | cons record records ih =>
    obtain ⟨replay, rateLimiter, h⟩ := @acceptSyncRecord_core K a c peer i record
    rw [Actor.acceptSyncLoop, Actor.syncTurns]
    rcases hr : a.acceptSyncRecord K peer record (c.instant (2 * i + 1)) (c.instant (2 * i + 2))
      (c.unixMs i) with ⟨_ | _, b⟩
    all_goals
      rw [hr] at h
      dsimp only at h ⊢
      rw [List.flatMap_cons, List.flatMap_cons]
    · exact ⟨replay, rateLimiter, by simpa using h⟩
    · obtain ⟨replay', rateLimiter', h'⟩ := ih (a := b) (i + 1)
      refine ⟨replay', rateLimiter', ?_⟩
      have hqueue : b.queue = a.queue ++ SyncTurn.requests K c ⟨peer, i, record, a.core⟩ :=
        congrArg Core.queue h
      rw [h', hqueue, Core.blocking_append, List.append_assoc, h]
      rfl

/-- Turns block in the order of time, between the first reading of the loop and the last. -/
lemma timed_syncTurns (i : ℕ) (records : List FlaggedFileRecord) :
    Timed (c.instant (2 * i + 1))
      ((a.syncTurns K peer c i records).flatMap (SyncTurn.ops K c)) c.finish := by
  induction records generalizing a i with
  | nil => exact c.le_finish _
  | cons record records ih =>
    have hrest : Timed (c.instant (2 * i + 2)) ((match a.acceptSyncRecord K peer record
          (c.instant (2 * i + 1)) (c.instant (2 * i + 2)) (c.unixMs i) with
        | (true, b) => b.syncTurns K peer c (i + 1) records
        | (false, _) => []).flatMap (SyncTurn.ops K c)) c.finish := by
      rcases a.acceptSyncRecord K peer record (c.instant (2 * i + 1)) (c.instant (2 * i + 2))
        (c.unixMs i) with ⟨_ | _, b⟩
      · exact c.le_finish _
      · exact (ih (a := b) (i + 1)).weaken (c.monotone (by omega))
    have hnext : c.instant (2 * i + 1) ≤ c.instant (2 * i + 2) := c.monotone (by omega)
    rw [Actor.syncTurns, List.flatMap_cons]
    rcases SyncTurn.ops_cases (K := K) (c := c) ⟨peer, i, record, a.core⟩ with ⟨-, h⟩ | ⟨-, h⟩
    · rw [h, List.nil_append]
      exact hrest.weaken hnext
    · rw [h, List.singleton_append]
      exact ⟨hnext, hrest⟩

/-- Where no turn brings the deadline of the peer forward, the loop does not. -/
lemma fits_syncTurns {i : ℕ} {records : List FlaggedFileRecord}
    (h : ∀ t ∈ a.syncTurns K peer c i records, t.denied K c = true →
      ∀ d ∈ a.blocked.peek peer, d ≤ t.blockedAt c + MINOR_BLOCK) :
    Along apply Fits a.blocked
      ((a.syncTurns K peer c i records).flatMap (SyncTurn.ops K c)) := by
  induction records generalizing a i with
  | nil => exact along_nil
  | cons record records ih =>
    obtain ⟨replay, rateLimiter, hcore⟩ := @acceptSyncRecord_core K a c peer i record
    have hfst := @acceptSyncRecord_fst_of_denied K a c peer i record
    rw [Actor.syncTurns] at h ⊢
    rw [List.flatMap_cons]
    rcases hr : a.acceptSyncRecord K peer record (c.instant (2 * i + 1)) (c.instant (2 * i + 2))
      (c.unixMs i) with ⟨going, b⟩
    rw [hr] at hcore hfst h
    dsimp only at h hcore hfst ⊢
    rcases SyncTurn.ops_cases (K := K) (c := c) ⟨peer, i, record, a.core⟩ with
      ⟨-, hops⟩ | ⟨hdenied, hops⟩
    · rw [hops, List.nil_append]
      rw [hops, Core.blocking_nil] at hcore
      have hblocked : b.blocked = a.blocked := congrArg Core.blocked hcore
      cases going with
      | false => exact along_nil
      | true =>
        rw [← hblocked] at h ⊢
        exact ih fun t ht => h t (List.mem_cons_of_mem _ ht)
    · rw [hfst hdenied, hops]
      refine ⟨fun call hcall => ?_, along_nil⟩
      obtain rfl := Option.mem_some_iff.mp hcall
      exact h _ (by simp) hdenied

/-- The actor once the answered request is taken off the books. -/
def Actor.settled (a : Actor) (peer : PeerId) (id : RequestId) : Actor :=
  ({ a with pendingSync := a.pendingSync.erase id }).updateSession peer (.settle id)

@[simp] lemma core_settled (id : RequestId) : (a.settled p id).core = a.core :=
  core_updateSession ..

/-- An answer to one of our requests that is larger than it may be. -/
def Actor.oversized (a : Actor) (id : RequestId) (response : SyncResponse) : Bool :=
  (a.pendingSync.lookup id).isSome && decide (response.validateBounds ≠ .ok ())

/-- The turns a response leads to: none unless it answers a request for records. -/
def Actor.responseTurns (K : Primitives) (a : Actor) (id : RequestId) (response : SyncResponse)
    (c : Clock) : List SyncTurn :=
  match a.pendingSync.lookup id, response with
  | some (.records p), .records records =>
    if a.oversized id response || a.storageSafetyMode then []
    else (a.settled p id).syncTurns K p c 0 (records.take MAX_REQUESTED_RECORDS)
  | _, _ => []

def Actor.responseOps (K : Primitives) (a : Actor) (peer : PeerId) (id : RequestId)
    (response : SyncResponse) (c : Clock) : List (Op PeerId) :=
  if a.oversized id response then [.call ⟨peer, c.instant 0, MALFORMED_BLOCK⟩]
  else (a.responseTurns K id response c).flatMap (SyncTurn.ops K c)

lemma core_acceptSyncRecords {records : List FlaggedFileRecord} :
    ∃ replay rateLimiter, (a.acceptSyncRecords K peer records c).core =
      { a.core.blocking ((if a.storageSafetyMode then [] else a.syncTurns K peer c 0
          (records.take MAX_REQUESTED_RECORDS)).flatMap (SyncTurn.ops K c)) with
        replay
        rateLimiter
        queue := a.queue ++ (if a.storageSafetyMode then [] else a.syncTurns K peer c 0
          (records.take MAX_REQUESTED_RECORDS)).flatMap (SyncTurn.requests K c) } := by
  unfold Actor.acceptSyncRecords
  split_ifs
  · exact ⟨a.replay, a.rateLimiter, by simp [Actor.core]⟩
  · exact core_acceptSyncLoop 0 _

/-- What a response does to the core: the block of an oversized one, or what its turns do. -/
lemma core_handleSyncResponse (id : RequestId) (response : SyncResponse) :
    ∃ replay rateLimiter, (a.handleSyncResponse K peer id response c).core =
      { a.core.blocking (a.responseOps K peer id response c) with
        replay
        rateLimiter
        queue := a.queue ++
          (a.responseTurns K id response c).flatMap (SyncTurn.requests K c) } := by
  unfold Actor.handleSyncResponse Actor.responseOps
  rcases hp : a.pendingSync.lookup id with _ | pending
  · refine ⟨a.replay, a.rateLimiter, ?_⟩
    simp [Actor.responseTurns, Actor.oversized, hp, Actor.core]
  · rcases hb : response.validateBounds with error | ⟨⟩
    · have hover : a.oversized id response = true := by simp [Actor.oversized, hp, hb]
      have hturns : a.responseTurns K id response c = [] := by
        unfold Actor.responseTurns
        split
        · simp [hover]
        · rfl
      refine ⟨a.replay, a.rateLimiter, ?_⟩
      rw [hturns, hover, if_pos rfl]
      dsimp only
      rw [core_disconnectPeer, core_block, core_violation, core_updateSession]
      simp [Actor.core, Core.blocking]
    · have hover : a.oversized id response = false := by simp [Actor.oversized, hp, hb]
      have hsame : ∀ b : Actor, b.core = a.core → b.core =
          { a.core.blocking ([].flatMap (SyncTurn.ops K c)) with
            replay := a.replay
            rateLimiter := a.rateLimiter
            queue := a.queue ++ [].flatMap (SyncTurn.requests K c) } := by
        intro b h
        rw [h]
        simp [Actor.core]
      have hother : ∀ p : PeerId, ((({ a with pendingSync := a.pendingSync.erase id }.violation
          (some p) "unexpected synchronization response").updateSession p (.settle id)).pumpSync
            p).core = a.core := by
        intro p
        rw [core_pumpSync, core_updateSession, core_violation]
        rfl
      rw [hover, if_neg (by simp)]
      unfold Actor.responseTurns
      rw [hp, hover]
      cases pending with
      | inventory p =>
        cases response with
        | inventory remote => exact ⟨a.replay, a.rateLimiter, hsame _ (core_emit ⟨rfl, rfl⟩)⟩
        | _ => exact ⟨a.replay, a.rateLimiter, hsame _ (hother peer)⟩
      | ids p bucket =>
        cases response with
        | recordIds ids nextCursor => exact ⟨a.replay, a.rateLimiter, hsame _ (core_emit ⟨rfl, rfl⟩)⟩
        | _ => exact ⟨a.replay, a.rateLimiter, hsame _ (hother peer)⟩
      | records p =>
        cases response with
        | records records =>
          obtain ⟨replay, rateLimiter, h⟩ :=
            @core_acceptSyncRecords K (a.settled p id) c p records
          rw [core_settled] at h
          refine ⟨replay, rateLimiter, (core_pumpSync p).trans (h.trans ?_)⟩
          have hmode : (a.settled p id).storageSafetyMode = a.storageSafetyMode :=
            congrArg Core.storageSafetyMode (core_settled id)
          have hqueue : (a.settled p id).queue = a.queue :=
            congrArg Core.queue (core_settled id)
          rw [hmode, hqueue, Bool.false_or]
        | _ => exact ⟨a.replay, a.rateLimiter, hsame _ (hother peer)⟩

end Protonet.Swarm
