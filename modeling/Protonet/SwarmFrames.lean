import Protonet.DeadlineTable
import Protonet.SwarmHandlers

namespace Protonet.Swarm
open Lru MachineInt StepRun DeadlineTable Postcard Record Replay RateLimit Address Connections
  Sync Worker

def Effect.blockCall? : Effect → Option (Call PeerId)
  | .block peer start duration => some ⟨peer, start, duration⟩
  | _ => none

def Effect.departure? : Effect → Option PeerId
  | .notify (.peerDisconnected peer) => some peer
  | _ => none

def blockCalls (outbox : List Effect) : List (Call PeerId) := outbox.filterMap Effect.blockCall?

def departures (outbox : List Effect) : List PeerId := outbox.filterMap Effect.departure?

@[ext]
structure Core where
  identity : PeerId
  replay : ReplayState
  rateLimiter : RateLimiter
  connections : ConnectionManager
  queue : List PersistRequest
  blocked : LruCache PeerId ℕ
  globalRecords : WindowCounter
  connectionAttempts : LruCache (Option IpAddr) WindowCounter
  deniedConnections : LruCache ConnectionId ℕ
  storageSafetyMode : Bool
  storageSafetyReason : Option String
  calls : List (Call PeerId)
  gone : List PeerId

def Actor.core (a : Actor) : Core :=
  ⟨a.identity, a.replay, a.rateLimiter, a.connections, a.queue, a.blocked, a.globalRecords,
    a.connectionAttempts, a.deniedConnections, a.storageSafetyMode, a.storageSafetyReason,
    blockCalls a.outbox, departures a.outbox⟩

variable {K : Primitives} {a : Actor} {c : Clock}

lemma core_emit {e : Effect} (h : e.blockCall? = none ∧ e.departure? = none) :
    (a.emit e).core = a.core := by
  simp [Actor.emit, Actor.core, blockCalls, departures, h]

lemma core_notify {e : NetworkEvent} (h : (Effect.notify e).departure? = none) :
    (a.notify e).core = a.core := core_emit ⟨rfl, h⟩

@[simp] lemma core_violation (peer : Option PeerId) (reason : String) :
    (a.violation peer reason).core = a.core := core_emit ⟨rfl, rfl⟩

@[simp] lemma core_reportGossip (messageId : RecordId) (source : PeerId)
    (acceptance : MessageAcceptance) :
    (a.reportGossip messageId source acceptance).core = a.core := core_emit ⟨rfl, rfl⟩

@[simp] lemma core_disconnectPeer (peer : PeerId) :
    (a.emit (.disconnectPeer peer)).core = a.core := core_emit ⟨rfl, rfl⟩

@[simp] lemma core_closeConnection (connection : ConnectionId) :
    (a.emit (.closeConnection connection)).core = a.core := core_emit ⟨rfl, rfl⟩

@[simp] lemma core_reportValidation (v : Option (RecordId × PeerId))
    (acceptance : MessageAcceptance) : (a.reportValidation v acceptance).core = a.core := by
  cases v with
  | none => rfl
  | some v => exact core_reportGossip ..

@[simp] lemma core_updateSession (peer : PeerId) (f : SyncSession → SyncSession) :
    (a.updateSession peer f).core = a.core := by
  unfold Actor.updateSession
  cases a.syncSessions.lookup peer <;> rfl

@[simp] lemma core_sendRequest (peer : PeerId) (request : SyncRequest) (pending : PendingSync) :
    (a.sendRequest peer request pending).core = a.core := core_emit ⟨rfl, rfl⟩

@[simp] lemma core_requestFor (peer : PeerId) (request : SyncRequest) (pending : PendingSync) :
    (a.requestFor peer request pending).core = a.core := by
  simp [Actor.requestFor]

@[simp] lemma core_dropPending (peer : PeerId) : (a.dropPending peer).core = a.core := rfl

@[simp] lemma core_finishSync (peer : PeerId) : (a.finishSync peer).core = a.core := by
  unfold Actor.finishSync
  cases a.syncSessions.lookup peer with
  | none => rfl
  | some session => exact core_notify rfl

@[simp] lemma core_pumpBuckets (peer : PeerId) (buckets : List Int64) :
    (a.pumpBuckets peer buckets).core = a.core := by
  induction buckets generalizing a with
  | nil =>
    rw [Actor.pumpBuckets]
    split
    · rfl
    · split_ifs <;> simp
  | cons b bs ih =>
    rw [Actor.pumpBuckets]
    split
    · rfl
    · split_ifs <;> simp [ih]

@[simp] lemma core_pumpSync (peer : PeerId) : (a.pumpSync peer).core = a.core := by
  unfold Actor.pumpSync
  split <;> simp

@[simp] lemma core_startSync (peer : PeerId) (now : ℕ) : (a.startSync peer now).core = a.core := by
  unfold Actor.startSync
  split_ifs
  · rfl
  · rw [core_notify rfl]
    exact core_sendRequest (a := a) peer .getInventory (.inventory peer)

@[simp] lemma core_startBestSyncPeer (pick : Option PeerId) (now : ℕ) :
    (a.startBestSyncPeer pick now).core = a.core := by
  unfold Actor.startBestSyncPeer
  split_ifs
  · rfl
  · rcases pick with _ | peer
    · rfl
    · dsimp only
      split_ifs <;> simp

@[simp] lemma core_noteReceived (source : PeerId) (record : FlaggedFileRecord) :
    (a.noteReceived source record).core = a.core := by
  unfold Actor.noteReceived
  dsimp only
  split
  · exact core_notify rfl
  · rw [core_notify rfl, core_updateSession]
    exact core_notify rfl

@[simp] lemma core_publishOwn (record : FlaggedFileRecord) (publication : Option String) :
    (a.publishOwn K record publication).core = a.core := by
  unfold Actor.publishOwn
  split_ifs
  · have hpublish : (a.emit (.publish record.encode)).core = a.core := core_emit ⟨rfl, rfl⟩
    cases publication with
    | none => exact (core_notify rfl).trans hpublish
    | some error => exact (core_violation ..).trans hpublish
  · rfl

@[simp] lemma core_continueBucket (peer : PeerId) (bucket : Int64) (cursor : RecordId) :
    (a.continueBucket peer bucket cursor).core = a.core := by
  unfold Actor.continueBucket
  split
  · rfl
  · split_ifs <;> simp

@[simp] lemma core_outboundFailure (peer : PeerId) (id : RequestId) :
    (a.outboundFailure peer id).core = a.core := by
  rw [Actor.outboundFailure, core_pumpSync, core_updateSession]
  rfl

@[simp] lemma core_handleCommand (command : Command) (signerFull : Bool) :
    (a.handleCommand command signerFull c).core = a.core := by
  cases command with
  | publishFile sha256 blake3 fileSize fileName =>
    unfold Actor.handleCommand
    dsimp only
    split_ifs
    · exact core_violation ..
    · exact core_violation ..
    · exact core_emit ⟨rfl, rfl⟩
  | disconnect peer => exact core_emit ⟨rfl, rfl⟩
  | requestSync peer => exact core_startSync peer _
  | requestSyncAny pick => exact core_startBestSyncPeer pick _

lemma core_foldl {α : Type} {f : Actor → α → Actor} (hf : ∀ a x, (f a x).core = a.core)
    (xs : List α) : (xs.foldl f a).core = a.core := by
  induction xs generalizing a with
  | nil => rfl
  | cons x xs ih => rw [List.foldl_cons, ih, hf]

def Core.blocking (k : Core) (ops : List (Op PeerId)) : Core :=
  { k with blocked := run apply k.blocked ops, calls := k.calls ++ callsOf ops }

@[simp] lemma Core.blocking_nil (k : Core) : k.blocking [] = k := by
  simp [Core.blocking, callsOf]

lemma Core.blocking_append (k : Core) (xs ys : List (Op PeerId)) :
    k.blocking (xs ++ ys) = (k.blocking xs).blocking ys := by
  simp [Core.blocking, callsOf, run_append]

lemma core_block (peer : PeerId) (duration now : ℕ) :
    (a.block peer duration now).core = a.core.blocking [.call ⟨peer, now, duration⟩] := by
  simp [Actor.block, Actor.emit, Actor.core, Core.blocking, blockCalls, departures, callsOf,
    Effect.blockCall?, Effect.departure?, Op.call?, apply, called, Call.deadline]

lemma core_isBlocked (peer : PeerId) (now : ℕ) :
    (a.isBlocked peer now).2.core = a.core.blocking [.query peer now] := by
  simp only [Core.blocking, run_cons, run_nil, apply, callsOf, List.filterMap_cons, Op.call?,
    List.filterMap_nil, List.append_nil]
  unfold Actor.isBlocked queried
  simp only [Actor.core]
  rcases a.blocked.peek peer with _ | deadline
  · rfl
  · dsimp only
    split_ifs <;> rfl

lemma isBlocked_fst (peer : PeerId) (now : ℕ) : (a.isBlocked peer now).1 = true ↔
    ∃ deadline ∈ a.blocked.peek peer, now < deadline := by
  unfold Actor.isBlocked
  rcases a.blocked.peek peer with _ | deadline
  · simp
  · by_cases h : deadline > now <;> simp [h]

lemma core_allowIngestionSource (peer : PeerId) (now : ℕ) :
    ∃ rateLimiter, (a.allowIngestionSource peer now).2.core = { a.core with rateLimiter } := by
  unfold Actor.allowIngestionSource
  split
  · exact ⟨a.rateLimiter, rfl⟩
  · exact ⟨_, rfl⟩

lemma core_handleSignedRecord (result : Except String FlaggedFileRecord) :
    ∃ queue, (a.handleSignedRecord result c).core = { a.core with queue } ∧
      (queue = a.queue ∨ ∃ record now, result = .ok record ∧
        queue = a.queue ++ [⟨record, none, now, none⟩]) := by
  unfold Actor.handleSignedRecord
  split_ifs
  · exact ⟨a.queue, core_violation .., .inl rfl⟩
  · rcases result with error | record
    · exact ⟨a.queue, core_violation .., .inl rfl⟩
    · unfold Actor.tryEnqueue
      dsimp only
      split_ifs
      · exact ⟨_, rfl, .inr ⟨record, c.instant 0, rfl, rfl⟩⟩
      · exact ⟨a.queue, core_violation .., .inl rfl⟩

lemma core_acceptReplay (record : FlaggedFileRecord) (now : ℕ) :
    ∃ replay, (a.acceptReplay K record now).core = { a.core with replay } := by
  unfold Actor.acceptReplay
  split
  · exact ⟨a.replay, rfl⟩
  · exact ⟨_, rfl⟩

lemma core_handlePersisted (event : PersistEvent) (publication : Option String) :
    ∃ replay reason, (a.handlePersisted K event publication c).core =
      { a.core with
        replay
        storageSafetyMode := event.isFailed || a.storageSafetyMode
        storageSafetyReason := reason } := by
  cases event with
  | stored request =>
    obtain ⟨replay, h⟩ := @core_acceptReplay K a request.record (c.instant 0)
    refine ⟨replay, a.storageSafetyReason, ?_⟩
    unfold Actor.handlePersisted
    dsimp only
    split
    · rw [core_noteReceived, core_reportValidation, h]
      rfl
    · rw [core_publishOwn, core_reportValidation, h]
      rfl
  | duplicate recordId origin sequence v =>
    exact ⟨_, a.storageSafetyReason, core_reportValidation v .ignore⟩
  | failed recordId error v =>
    refine ⟨a.replay.forget recordId, some (PersistError.reason error), ?_⟩
    unfold Actor.handlePersisted
    dsimp only
    rw [core_reportValidation, core_violation, core_notify rfl]
    rfl

/-- Whether a new connection is let in and counted. -/
def Actor.admits (a : Actor) (peer : PeerId) (endpoint : ConnectedPoint)
    (connection : ConnectionId) (numEstablished now : ℕ) : Bool :=
  (a.deniedConnections.peek connection).isNone && !(a.isBlocked peer now).1 &&
    a.connections.canAccept endpoint && !a.losesTieBreak peer endpoint numEstablished

lemma core_letIn (peer : PeerId) (endpoint : ConnectedPoint) : (a.letIn peer endpoint c).core =
    { a.core with connections := a.connections.connected peer endpoint (c.instant 1) } := by
  unfold Actor.letIn
  dsimp only
  split_ifs
  · rw [core_startSync]
    split
    · rfl
    · exact core_notify rfl
  · split
    · rfl
    · exact core_notify rfl

lemma core_connectionEstablished (peer : PeerId) (endpoint : ConnectedPoint)
    (connection : ConnectionId) (numEstablished : ℕ) :
    ∃ ops, (ops = [] ∨ ops = [.query peer (c.instant 0)]) ∧
      (a.connectionEstablished peer endpoint connection numEstablished c).core =
        { a.core.blocking ops with
          deniedConnections := a.deniedConnections.pop connection
          connections := if a.admits peer endpoint connection numEstablished (c.instant 0) then
            a.connections.connected peer endpoint (c.instant 1) else a.connections } := by
  unfold Actor.connectionEstablished Actor.admits
  dsimp only
  rcases hd : a.deniedConnections.peek connection with _ | expires
  · refine ⟨[.query peer (c.instant 0)], .inr rfl, ?_⟩
    simp only [Option.isSome_none, Bool.false_eq_true, if_false, Option.isNone_none,
      Bool.true_and]
    obtain ⟨b, hb⟩ : ∃ b, b = { a with deniedConnections := a.deniedConnections.pop connection } :=
      ⟨_, rfl⟩
    have hfst : (b.isBlocked peer (c.instant 0)).1 = (a.isBlocked peer (c.instant 0)).1 := by
      rw [Bool.eq_iff_iff, isBlocked_fst, isBlocked_fst, hb]
    have hcore : (b.isBlocked peer (c.instant 0)).2.core =
        { a.core.blocking [.query peer (c.instant 0)] with
          deniedConnections := a.deniedConnections.pop connection } := by
      rw [core_isBlocked, hb]
      rfl
    rw [← hb]
    rcases hq : b.isBlocked peer (c.instant 0) with ⟨refused, b'⟩
    rw [hq] at hfst hcore
    have hconn : b'.connections = a.connections := congrArg Core.connections hcore
    have htie : b'.losesTieBreak peer endpoint numEstablished =
        a.losesTieBreak peer endpoint numEstablished := by
      unfold Actor.losesTieBreak
      rw [show b'.identity = a.identity from congrArg Core.identity hcore]
    rw [← hfst]
    cases refused with
    | true => exact (core_disconnectPeer peer).trans hcore
    | false =>
      simp only [hconn, htie]
      cases a.connections.canAccept endpoint with
      | false => exact (core_violation ..).trans ((core_closeConnection connection).trans hcore)
      | true =>
        cases a.losesTieBreak peer endpoint numEstablished with
        | true => exact (core_closeConnection connection).trans hcore
        | false =>
          simp only [Bool.not_true, Bool.false_eq_true, if_false, core_letIn, hconn, hcore]
          rfl
  · refine ⟨[], .inl rfl, ?_⟩
    simp only [Option.isSome_some, if_true, Option.isNone_some, Bool.false_and,
      Core.blocking_nil, core_violation, core_closeConnection]
    rfl

lemma core_connectionClosed (peer : PeerId) (connection : ConnectionId) :
    (a.connectionClosed peer connection).core =
      { a.core with
        deniedConnections := a.deniedConnections.pop connection
        connections := (a.connections.disconnected peer).2
        gone := departures a.outbox ++
          if (a.connections.disconnected peer).1 then [peer] else [] } := by
  unfold Actor.connectionClosed
  dsimp only
  rcases a.connections.disconnected peer with ⟨_ | _, connections⟩
  · simp [Actor.core]
  · simp [Actor.core, Actor.notify, Actor.emit, Actor.dropPending, blockCalls, departures,
      Effect.blockCall?, Effect.departure?]

lemma core_incomingConnectionError (connection : ConnectionId) (error : String) :
    (a.incomingConnectionError connection error).core =
      { a.core with deniedConnections := a.deniedConnections.pop connection } :=
  core_violation ..

lemma core_incomingConnection (connection : ConnectionId) (sendBackAddr : Multiaddr) :
    ∃ connectionAttempts deniedConnections,
      (a.incomingConnection connection sendBackAddr c).core =
        { a.core with connectionAttempts, deniedConnections } := by
  unfold Actor.incomingConnection
  dsimp only
  split_ifs
  · exact ⟨_, _, rfl⟩
  · exact ⟨_, _, core_closeConnection _⟩

def supported (protocolVersion : String) : Bool :=
  ("/protonet/1.".toList).isPrefixOf protocolVersion.toList

lemma core_identified (peer : PeerId) (protocolVersion : String) :
    (a.identified peer protocolVersion c).core =
      if supported protocolVersion then
        { a.core with connections := a.connections.setProtocol peer protocolVersion }
      else a.core.blocking [.call ⟨peer, c.instant 0, MALFORMED_BLOCK⟩] := by
  unfold Actor.identified supported
  cases ("/protonet/1.".toList).isPrefixOf protocolVersion.toList with
  | true => rfl
  | false =>
    simp only [Bool.not_false, if_true, Bool.false_eq_true, if_false]
    rw [core_disconnectPeer, core_violation, core_block]

lemma core_prepareSyncResponse (peer : PeerId) (request : SyncRequest) (channel : ℕ) :
    ∃ rateLimiter, (a.prepareSyncResponse peer request channel c).core =
      { a.core with rateLimiter } := by
  unfold Actor.prepareSyncResponse
  dsimp only
  split_ifs
  · exact ⟨_, core_emit ⟨rfl, rfl⟩⟩
  · exact ⟨_, core_emit ⟨rfl, rfl⟩⟩

@[simp] lemma core_inventoryCompared (peer : PeerId) (id : RequestId) (differing : List Int64) :
    (a.handleDbAction (.inventoryCompared peer id differing) c).core = a.core := by
  rw [Actor.handleDbAction, core_pumpSync, core_updateSession]

@[simp] lemma core_idsCompared (peer : PeerId) (id : RequestId) (bucket : Int64)
    (missing : List RecordId) (nextCursor : Option RecordId) :
    (a.handleDbAction (.idsCompared peer id bucket missing nextCursor) c).core = a.core := by
  unfold Actor.handleDbAction
  dsimp only
  rw [core_pumpSync]
  cases nextCursor with
  | none =>
    dsimp only
    split_ifs <;> simp
  | some cursor =>
    dsimp only
    split_ifs <;> simp

lemma core_handleDbAction (action : DbAction) :
    ∃ rateLimiter mode reason, (a.handleDbAction action c).core =
      { a.core with
        rateLimiter, storageSafetyMode := mode, storageSafetyReason := reason } := by
  cases action with
  | sendResponse peer channel response =>
    unfold Actor.handleDbAction
    dsimp only
    split_ifs
    · exact ⟨_, _, _, core_emit ⟨rfl, rfl⟩⟩
    · exact ⟨_, _, _, rfl⟩
  | inventoryCompared peer id differingBuckets =>
    exact ⟨a.rateLimiter, a.storageSafetyMode, a.storageSafetyReason, core_inventoryCompared ..⟩
  | idsCompared peer id bucket missing nextCursor =>
    exact ⟨a.rateLimiter, a.storageSafetyMode, a.storageSafetyReason, core_idsCompared ..⟩
  | maintenance storageSafe storageReason =>
    unfold Actor.handleDbAction
    dsimp only
    split_ifs
    · exact ⟨_, _, _, core_notify rfl⟩
    · exact ⟨_, _, _, rfl⟩

lemma core_snapshotTick : (a.snapshotTick c).core =
    { a.core with deniedConnections := purged a.deniedConnections (c.instant 0) } := by
  unfold Actor.snapshotTick
  dsimp only
  rw [core_foldl (fun a peer => by simp), core_foldl (fun a peer => by simp [Actor.dropUnverified])]
  rfl

/-- The refusal asks whether the source is blocked, unless the safety mode refuses at once. -/
lemma core_gossipRefused (source : PeerId) (bytes : ℕ) :
    ∃ ops rateLimiter globalRecords, (a.gossipRefused source bytes c).2.core =
        { a.core.blocking ops with rateLimiter, globalRecords } ∧
      (ops = [] ∧ (a.gossipRefused source bytes c).1 = true ∨
        ops = [.query source (c.instant 1)] ∧ ((a.gossipRefused source bytes c).1 = false →
          ∀ d ∈ a.blocked.peek source, d ≤ c.instant 1)) := by
  unfold Actor.gossipRefused
  split_ifs with hs
  · exact ⟨[], a.rateLimiter, a.globalRecords, by simp [Actor.core], .inl ⟨rfl, rfl⟩⟩
  · have hcore := @core_isBlocked a source (c.instant 1)
    have hfst := @isBlocked_fst a source (c.instant 1)
    rcases hq : a.isBlocked source (c.instant 1) with ⟨refused, b⟩
    rw [hq] at hcore hfst
    cases refused with
    | true => exact ⟨_, _, _, hcore, .inr ⟨rfl, by simp⟩⟩
    | false =>
      have hopen : ∀ d ∈ a.blocked.peek source, d ≤ c.instant 1 := by
        intro d hd
        by_contra hlt
        exact absurd (hfst.mpr ⟨d, hd, not_le.mp hlt⟩) (by simp)
      dsimp only
      rcases b.rateLimiter.allowGossip source bytes (c.instant 0) with ⟨_ | _, rateLimiter⟩
      · refine ⟨_, rateLimiter, b.globalRecords, ?_, .inr ⟨rfl, fun _ => hopen⟩⟩
        exact congrArg (fun k : Core => { k with rateLimiter, globalRecords := b.globalRecords })
          hcore
      · refine ⟨_, rateLimiter, (b.globalRecords.take (c.instant 0)).2, ?_,
          .inr ⟨rfl, fun _ => hopen⟩⟩
        exact congrArg (fun k : Core => { k with
          rateLimiter, globalRecords := (b.globalRecords.take (c.instant 0)).2 }) hcore

/-- Nothing, or one block of the source for at least the shortest duration. -/
def OneBlock (source : PeerId) (now : ℕ) (ops : List (Op PeerId)) : Prop :=
  ops = [] ∨ ∃ d, MINOR_BLOCK ≤ d ∧ ops = [.call ⟨source, now, d⟩]

lemma core_rejectInvalid (source : PeerId) (messageId : RecordId) (error : RecordValidation) :
    ∃ ops rateLimiter, (a.rejectInvalid source messageId error c).core =
      { a.core.blocking ops with rateLimiter } ∧ OneBlock source (c.instant 2) ops := by
  have hlong : MINOR_BLOCK ≤ if error = .invalidSignature then INVALID_SIGNATURE_BLOCK
      else MALFORMED_BLOCK := by
    split_ifs <;> decide
  unfold Actor.rejectInvalid
  dsimp only
  rw [core_violation]
  generalize (if error = .invalidSignature then INVALID_SIGNATURE_BLOCK
    else MALFORMED_BLOCK) = duration at hlong ⊢
  split_ifs with h
  · refine ⟨_, (a.rateLimiter.noteInvalid source (c.instant 0)).2, ?_, .inr ⟨duration, hlong, rfl⟩⟩
    rw [core_disconnectPeer, core_block]
    exact congrArg (fun k : Core => Core.blocking { k with
      rateLimiter := (a.rateLimiter.noteInvalid source (c.instant 0)).2 } _)
      (core_reportGossip messageId source .reject)
  · refine ⟨[], (a.rateLimiter.noteInvalid source (c.instant 0)).2, ?_, .inl rfl⟩
    rw [Core.blocking_nil]
    exact congrArg (fun k : Core => { k with
      rateLimiter := (a.rateLimiter.noteInvalid source (c.instant 0)).2 })
      (core_reportGossip messageId source .reject)

/-- The request a gossip message may leave in the writer's queue. -/
def gossipRequest (source : PeerId) (messageId : RecordId) (c : Clock)
    (record : FlaggedFileRecord) : PersistRequest :=
  ⟨record, some source, c.instant 2, some (messageId, source)⟩

lemma core_ingestGossip (source : PeerId) (messageId : RecordId) (record : FlaggedFileRecord) :
    ∃ ops replay rateLimiter queue, (a.ingestGossip source messageId record c).core =
        { a.core.blocking ops with replay, rateLimiter, queue } ∧
      OneBlock source (c.instant 2) ops ∧
      (queue = a.queue ∨ queue = a.queue ++ [gossipRequest source messageId c record]) := by
  unfold Actor.ingestGossip
  obtain ⟨rateLimiter, hcore⟩ := @core_allowIngestionSource a source (c.instant 0)
  rcases hallow : a.allowIngestionSource source (c.instant 0) with ⟨_ | _, b⟩
  all_goals rw [hallow] at hcore
  · refine ⟨_, a.replay, rateLimiter, a.queue, ?_, .inr ⟨MINOR_BLOCK, le_rfl, rfl⟩, .inl rfl⟩
    dsimp only at hcore ⊢
    rw [core_block, core_reportGossip, hcore]
    rfl
  · have hqueue : b.queue = a.queue := congrArg Core.queue hcore
    dsimp only
    unfold Actor.tryEnqueue gossipRequest
    split_ifs with hroom
    · refine ⟨[], b.replay.markPending record.recordId (c.instant 0), rateLimiter, _, ?_, .inl rfl,
        .inr rfl⟩
      rw [Core.blocking_nil, ← hqueue]
      exact congrArg (fun k : Core => { k with
        replay := b.replay.markPending record.recordId (c.instant 0)
        queue := b.queue ++ [gossipRequest source messageId c record] }) hcore
    · refine ⟨[], a.replay, rateLimiter, a.queue, ?_, .inl rfl, .inl rfl⟩
      rw [Core.blocking_nil]
      exact (core_reportGossip ..).trans hcore

/-- What a gossip message does to the core: the query, at most one block, at most one request,
and a request only from a source that is not blocked. -/
lemma core_validateGossip (source : PeerId) (messageId : RecordId) (data : Bytes) :
    ∃ asked ops replay rateLimiter queue globalRecords,
      (a.validateGossip K source messageId data c).core =
        { a.core.blocking (asked ++ ops) with replay, rateLimiter, queue, globalRecords } ∧
      (asked = [] ∨ asked = [.query source (c.instant 1)]) ∧
      OneBlock source (c.instant 2) ops ∧
      (queue = a.queue ∨ (∀ d ∈ a.blocked.peek source, d ≤ c.instant 1) ∧
        ∃ record, queue = a.queue ++ [gossipRequest source messageId c record]) := by
  obtain ⟨asked, rateLimiter, globalRecords, hcore, hasked⟩ :=
    @core_gossipRefused a c source data.length
  have hasked' : asked = [] ∨ asked = [.query source (c.instant 1)] :=
    hasked.imp And.left And.left
  unfold Actor.validateGossip
  rcases hrefused : a.gossipRefused source data.length c with ⟨_ | _, b⟩
  all_goals rw [hrefused] at hcore hasked
  · have hopen : ∀ d ∈ a.blocked.peek source, d ≤ c.instant 1 := by
      rcases hasked with ⟨-, h⟩ | ⟨-, h⟩
      · exact absurd h (by simp)
      · exact h rfl
    have hqueue : b.queue = a.queue := congrArg Core.queue hcore
    dsimp only at hcore ⊢
    rcases RecordValidator.default.validateBytes K data (c.unixMs 0) with error | record
    · obtain ⟨ops, rl, h, hops⟩ := @core_rejectInvalid b c source messageId error
      refine ⟨asked, ops, a.replay, rl, a.queue, globalRecords, ?_, hasked', hops, .inl rfl⟩
      dsimp only
      rw [h, hcore, Core.blocking_append]
      rfl
    · dsimp only
      rcases record.origin K with error | origin
      · refine ⟨asked, [], a.replay, rateLimiter, a.queue, globalRecords, ?_, hasked', .inl rfl,
          .inl rfl⟩
        dsimp only
        rw [core_violation, core_reportGossip, hcore, List.append_nil]
        rfl
      · dsimp only
        rcases b.replay.check record.recordId origin record.sequence (c.instant 0) with
          ⟨_ | _ | _, replay⟩
        · obtain ⟨ops, replay', rl, queue, h, hops, hq⟩ :=
            @core_ingestGossip { b with replay } c source messageId record
          refine ⟨asked, ops, replay', rl, queue, globalRecords, ?_, hasked', hops, ?_⟩
          · have hb : ({ b with replay } : Actor).core =
                { a.core.blocking asked with replay, rateLimiter, globalRecords } :=
              congrArg (fun k : Core => { k with replay }) hcore
            dsimp only
            rw [h, hb, Core.blocking_append]
            rfl
          · rw [← hqueue]
            exact hq.imp_right fun h => ⟨hopen, record, h⟩
        · refine ⟨asked, [], replay, rateLimiter, a.queue, globalRecords, ?_, hasked', .inl rfl,
            .inl rfl⟩
          rw [List.append_nil]
          exact (core_reportGossip ..).trans (congrArg (fun k : Core => { k with replay }) hcore)
        · refine ⟨asked, [], replay, rateLimiter, a.queue, globalRecords, ?_, hasked', .inl rfl,
            .inl rfl⟩
          rw [List.append_nil]
          exact (core_violation ..).trans ((core_reportGossip ..).trans
            (congrArg (fun k : Core => { k with replay }) hcore))
  · refine ⟨asked, _, a.replay, rateLimiter, a.queue, globalRecords, ?_, hasked',
      .inr ⟨MINOR_BLOCK, le_rfl, rfl⟩, .inl rfl⟩
    dsimp only at hcore ⊢
    rw [core_disconnectPeer, core_block, core_reportGossip, hcore, Core.blocking_append]
    rfl

/-- An observation of the actor that no call inside the loop changes. -/
structure Indifferent {β : Type*} (obs : Actor → β) : Prop where
  violation : ∀ a peer reason, obs (Actor.violation a peer reason) = obs a
  block : ∀ a peer duration now, obs (Actor.block a peer duration now) = obs a
  allowIngestionSource : ∀ a peer now, obs (Actor.allowIngestionSource a peer now).2 = obs a
  tryEnqueue : ∀ a request, obs (Actor.tryEnqueue a request).2 = obs a
  replay : ∀ (a : Actor) replay, obs { a with replay } = obs a

variable {β : Type*} {obs : Actor → β} {peer : PeerId}

lemma Indifferent.acceptSyncRecord (h : Indifferent obs) (record : FlaggedFileRecord)
    (now blockedAt : ℕ) (unixMs : Int64) :
    obs (a.acceptSyncRecord K peer record now blockedAt unixMs).2 = obs a := by
  unfold Actor.acceptSyncRecord
  rcases RecordValidator.default.validate K record unixMs with error | ⟨⟩
  · exact h.violation ..
  · dsimp only
    rcases record.origin K with error | origin
    · rfl
    · dsimp only
      rcases a.replay.check record.recordId origin record.sequence now with ⟨_ | _ | _, replay⟩
      · have hallow := (h.allowIngestionSource { a with replay } peer now).trans (h.replay a replay)
        dsimp only
        rcases hq : Actor.allowIngestionSource { a with replay } peer now with ⟨_ | _, b⟩
        all_goals
          rw [hq] at hallow
          dsimp only at hallow ⊢
        · exact (h.block ..).trans hallow
        · have henqueue := (h.tryEnqueue b ⟨record, some peer, now, none⟩).trans hallow
          rcases he : b.tryEnqueue ⟨record, some peer, now, none⟩ with ⟨_ | _, d⟩
          all_goals rw [he] at henqueue
          · exact henqueue
          · exact (h.replay ..).trans henqueue
      · exact h.replay ..
      · exact h.replay ..

lemma Indifferent.acceptSyncLoop (h : Indifferent obs) (i : ℕ)
    (records : List FlaggedFileRecord) : obs (a.acceptSyncLoop K peer c i records) = obs a := by
  induction records generalizing a i with
  | nil => rfl
  | cons record records ih =>
    have hone : obs (a.acceptSyncRecord K peer record (c.instant (2 * i + 1))
        (c.instant (2 * i + 2)) (c.unixMs i)).2 = obs a := h.acceptSyncRecord ..
    rw [Actor.acceptSyncLoop]
    rcases hr : a.acceptSyncRecord K peer record (c.instant (2 * i + 1)) (c.instant (2 * i + 2))
      (c.unixMs i) with ⟨_ | _, b⟩
    all_goals rw [hr] at hone
    · exact hone
    · exact (ih (i + 1)).trans hone

lemma Indifferent.acceptSyncRecords (h : Indifferent obs) (records : List FlaggedFileRecord) :
    obs (a.acceptSyncRecords K peer records c) = obs a := by
  unfold Actor.acceptSyncRecords
  split_ifs
  · rfl
  · exact h.acceptSyncLoop ..

end Protonet.Swarm
