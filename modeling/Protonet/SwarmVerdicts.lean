import Protonet.GossipTurns
import Protonet.SwarmDeeds

namespace Protonet.Swarm
open Lru MachineInt StepRun DeadlineTable Postcard Record Replay RateLimit Address Connections
  Sync Worker

/-- What gossipsub knows a message by: its id and the peer it came from. -/
abbrev MessageKey := RecordId × PeerId

def Effect.verdict? : Effect → Option (MessageKey × MessageAcceptance)
  | .reportGossip messageId source acceptance => some ((messageId, source), acceptance)
  | _ => none

def verdictsOf (outbox : List Effect) : List (MessageKey × MessageAcceptance) :=
  outbox.filterMap Effect.verdict?

def Actor.verdicts (a : Actor) : List (MessageKey × MessageAcceptance) := verdictsOf a.outbox

def awaited (requests : List PersistRequest) : List MessageKey :=
  requests.filterMap PersistRequest.gossipValidation

variable {K : Primitives} {a : Actor} {c : Clock} {peer : PeerId}

@[simp] lemma verdictsOf_append (xs ys : List Effect) :
    verdictsOf (xs ++ ys) = verdictsOf xs ++ verdictsOf ys := List.filterMap_append

@[simp] lemma awaited_append (xs ys : List PersistRequest) :
    awaited (xs ++ ys) = awaited xs ++ awaited ys := List.filterMap_append

lemma awaited_eq_nil {requests : List PersistRequest}
    (h : ∀ q ∈ requests, q.gossipValidation = none) : awaited requests = [] :=
  List.filterMap_eq_nil_iff.mpr h

lemma verdicts_emit {e : Effect} (h : e.verdict? = none) : (a.emit e).verdicts = a.verdicts := by
  simp [Actor.emit, Actor.verdicts, verdictsOf, h]

@[simp] lemma verdicts_notify (e : NetworkEvent) : (a.notify e).verdicts = a.verdicts :=
  verdicts_emit rfl

@[simp] lemma verdicts_violation (peer : Option PeerId) (reason : String) :
    (a.violation peer reason).verdicts = a.verdicts := verdicts_emit rfl

@[simp] lemma verdicts_block (duration now : ℕ) :
    (a.block peer duration now).verdicts = a.verdicts :=
  (verdicts_emit rfl : (Actor.emit { a with blocked := _ } _).verdicts = _)

@[simp] lemma verdicts_isBlocked (now : ℕ) : (a.isBlocked peer now).2.verdicts = a.verdicts := by
  unfold Actor.isBlocked
  split
  · rfl
  · split_ifs <;> rfl

@[simp] lemma verdicts_tryEnqueue (request : PersistRequest) :
    (a.tryEnqueue request).2.verdicts = a.verdicts := by
  unfold Actor.tryEnqueue
  split_ifs <;> rfl

@[simp] lemma verdicts_allowIngestionSource (now : ℕ) :
    (a.allowIngestionSource peer now).2.verdicts = a.verdicts := by
  unfold Actor.allowIngestionSource
  split <;> rfl

@[simp] lemma verdicts_updateSession (f : SyncSession → SyncSession) :
    (a.updateSession peer f).verdicts = a.verdicts := by
  unfold Actor.updateSession
  split <;> rfl

@[simp] lemma verdicts_sendRequest (request : SyncRequest) (pending : PendingSync) :
    (a.sendRequest peer request pending).verdicts = a.verdicts :=
  (verdicts_emit rfl : (Actor.emit { a with pendingSync := _, nextRequest := _ } _).verdicts = _)

@[simp] lemma verdicts_requestFor (request : SyncRequest) (pending : PendingSync) :
    (a.requestFor peer request pending).verdicts = a.verdicts := by
  rw [Actor.requestFor, verdicts_updateSession, verdicts_sendRequest]

@[simp] lemma verdicts_finishSync : (a.finishSync peer).verdicts = a.verdicts := by
  unfold Actor.finishSync
  split
  · rfl
  · exact verdicts_notify _

@[simp] lemma verdicts_pumpBuckets (buckets : List Int64) :
    (a.pumpBuckets peer buckets).verdicts = a.verdicts := by
  induction buckets generalizing a with
  | nil =>
    rw [Actor.pumpBuckets]
    split
    · rfl
    · split_ifs <;> simp
  | cons b bs ih =>
    rw [Actor.pumpBuckets]
    split
    · rfl
    · split_ifs <;> simp [ih]

@[simp] lemma verdicts_pumpSync : (a.pumpSync peer).verdicts = a.verdicts := by
  unfold Actor.pumpSync
  split <;> simp

@[simp] lemma verdicts_startSync (now : ℕ) : (a.startSync peer now).verdicts = a.verdicts := by
  unfold Actor.startSync
  split_ifs
  · rfl
  · rw [verdicts_notify]
    exact @verdicts_sendRequest a peer .getInventory (.inventory peer)

@[simp] lemma verdicts_startBestSyncPeer (pick : Option PeerId) (now : ℕ) :
    (a.startBestSyncPeer pick now).verdicts = a.verdicts := by
  unfold Actor.startBestSyncPeer
  split_ifs
  · rfl
  · cases pick with
    | none => rfl
    | some peer =>
      dsimp only
      split_ifs <;> simp

@[simp] lemma verdicts_continueBucket (bucket : Int64) (cursor : RecordId) :
    (a.continueBucket peer bucket cursor).verdicts = a.verdicts := by
  unfold Actor.continueBucket
  split
  · rfl
  · split_ifs <;> simp

@[simp] lemma verdicts_noteReceived (record : FlaggedFileRecord) :
    (a.noteReceived peer record).verdicts = a.verdicts := by
  unfold Actor.noteReceived
  dsimp only
  split <;> simp

@[simp] lemma verdicts_publishOwn (record : FlaggedFileRecord) (publication : Option String) :
    (a.publishOwn K record publication).verdicts = a.verdicts := by
  unfold Actor.publishOwn
  split_ifs
  · have hpublish : (a.emit (.publish record.encode)).verdicts = a.verdicts := verdicts_emit rfl
    cases publication with
    | none => rw [verdicts_notify, hpublish]
    | some error => rw [verdicts_violation, hpublish]
  · rfl

lemma indifferent_verdicts : Indifferent Actor.verdicts :=
  ⟨fun _ => verdicts_violation, fun _ _ => verdicts_block, fun _ _ => verdicts_allowIngestionSource,
    fun _ => verdicts_tryEnqueue, fun _ _ => rfl⟩

@[simp] lemma verdicts_acceptSyncRecords (records : List FlaggedFileRecord) :
    (a.acceptSyncRecords K peer records c).verdicts = a.verdicts :=
  indifferent_verdicts.acceptSyncRecords records

lemma verdicts_foldl {α : Type} {f : Actor → α → Actor} (hf : ∀ a x, (f a x).verdicts = a.verdicts)
    (xs : List α) : (xs.foldl f a).verdicts = a.verdicts := by
  induction xs generalizing a with
  | nil => rfl
  | cons x xs ih => rw [List.foldl_cons, ih, hf]

lemma verdicts_letIn (endpoint : ConnectedPoint) :
    (a.letIn peer endpoint c).verdicts = a.verdicts := by
  unfold Actor.letIn
  dsimp only
  split_ifs
  · rw [verdicts_startSync]
    split
    · rfl
    · exact verdicts_notify _
  · split
    · rfl
    · exact verdicts_notify _

lemma verdicts_connectionEstablished (endpoint : ConnectedPoint) (connection : ConnectionId)
    (numEstablished : ℕ) :
    (a.connectionEstablished peer endpoint connection numEstablished c).verdicts =
      a.verdicts := by
  unfold Actor.connectionEstablished
  dsimp only
  split_ifs
  · exact (verdicts_violation ..).trans (verdicts_emit rfl)
  · obtain ⟨b, hb⟩ : ∃ b, b = { a with deniedConnections := a.deniedConnections.pop connection } :=
      ⟨_, rfl⟩
    have hsame : b.verdicts = a.verdicts := by
      rw [hb]
      rfl
    have hasked := @verdicts_isBlocked b peer (c.instant 0)
    rw [← hb]
    rcases hq : b.isBlocked peer (c.instant 0) with ⟨_ | _, d⟩
    all_goals
      rw [hq] at hasked
      dsimp only at hasked ⊢
      rw [← hsame, ← hasked]
    · split_ifs
      · exact (verdicts_violation ..).trans (verdicts_emit rfl)
      · exact verdicts_emit rfl
      · exact verdicts_letIn endpoint
    · exact verdicts_emit rfl

lemma verdicts_handleSyncResponse (id : RequestId) (response : SyncResponse) :
    (a.handleSyncResponse K peer id response c).verdicts = a.verdicts := by
  unfold Actor.handleSyncResponse
  rcases a.pendingSync.lookup id with _ | pending
  · rfl
  · dsimp only
    split
    · rw [verdicts_emit rfl, verdicts_block, verdicts_violation, verdicts_updateSession]
      rfl
    · split
      · exact verdicts_emit rfl
      · exact verdicts_emit rfl
      · rw [verdicts_pumpSync, verdicts_acceptSyncRecords, verdicts_updateSession]
        rfl
      · rw [verdicts_pumpSync, verdicts_updateSession, verdicts_violation]
        rfl

lemma verdicts_handleDbAction (action : DbAction) :
    (a.handleDbAction action c).verdicts = a.verdicts := by
  cases action with
  | sendResponse peer channel response =>
    unfold Actor.handleDbAction
    dsimp only
    split_ifs
    · exact verdicts_emit rfl
    · rfl
  | inventoryCompared peer id differingBuckets => simp [Actor.handleDbAction]
  | idsCompared peer id bucket missing nextCursor =>
    unfold Actor.handleDbAction
    cases nextCursor with
    | none =>
      dsimp only
      split_ifs <;> simp
    | some cursor =>
      dsimp only
      split_ifs <;> simp
  | maintenance storageSafe storageReason =>
    unfold Actor.handleDbAction
    dsimp only
    split_ifs
    · exact verdicts_notify _
    · rfl

lemma verdicts_snapshotTick : (a.snapshotTick c).verdicts = a.verdicts := by
  have hdrop : ∀ (b : Actor) (peer : PeerId), (b.dropUnverified peer).verdicts = b.verdicts :=
    fun b peer => (verdicts_emit rfl).trans (verdicts_violation ..)
  have hfinish : ∀ (b : Actor) (peer : PeerId),
      ((b.dropPending peer).finishSync peer).verdicts = b.verdicts :=
    fun b peer => verdicts_finishSync
  unfold Actor.snapshotTick
  dsimp only
  rw [verdicts_foldl hfinish, verdicts_foldl hdrop]
  rfl

/-- Neither a gossip message nor a report of the writer, and nothing the writer does itself. -/
def Event.isSilent : Event → Bool
  | .gossip .. | .persisted .. | .workerTook _ => false
  | _ => true

lemma verdicts_silent {e : Event} (h : e.isSilent = true) :
    (a.handle K c e).verdicts = a.verdicts := by
  cases e with
  | gossip source messageId data => exact absurd h Bool.false_ne_true
  | persisted event publication => exact absurd h Bool.false_ne_true
  | workerTook n => exact absurd h Bool.false_ne_true
  | command command signerFull =>
    cases command with
    | publishFile sha256 blake3 fileSize fileName =>
      unfold Actor.handle Actor.handleCommand
      dsimp only
      split_ifs
      · exact verdicts_violation ..
      · exact verdicts_violation ..
      · exact verdicts_emit rfl
    | disconnect peer => exact verdicts_emit rfl
    | requestSync peer => exact verdicts_startSync _
    | requestSyncAny pick => exact verdicts_startBestSyncPeer pick _
  | signedRecord result =>
    unfold Actor.handle Actor.handleSignedRecord
    dsimp only
    split_ifs
    · exact verdicts_violation ..
    · rcases result with error | record
      · exact verdicts_violation ..
      · have henqueue := @verdicts_tryEnqueue a ⟨record, none, c.instant 0, none⟩
        dsimp only
        rcases hq : a.tryEnqueue ⟨record, none, c.instant 0, none⟩ with ⟨_ | _, b⟩
        all_goals rw [hq] at henqueue
        · exact (verdicts_violation ..).trans henqueue
        · exact henqueue
  | connectionEstablished peer endpoint connection n => exact verdicts_connectionEstablished ..
  | connectionClosed peer connection =>
    unfold Actor.handle Actor.connectionClosed
    dsimp only
    split
    · rfl
    · exact verdicts_notify _
  | incomingConnectionError connection error => exact verdicts_violation ..
  | incomingConnection connection sendBackAddr =>
    unfold Actor.handle Actor.incomingConnection
    dsimp only
    split_ifs
    · rfl
    · exact verdicts_emit rfl
  | identified peer protocolVersion =>
    unfold Actor.handle Actor.identified
    dsimp only
    split_ifs
    · exact (verdicts_emit rfl).trans ((verdicts_violation ..).trans (verdicts_block ..))
    · rfl
  | pinged peer rtt => rfl
  | syncRequest peer request channel =>
    unfold Actor.handle Actor.prepareSyncResponse
    dsimp only
    split_ifs
    · exact verdicts_emit rfl
    · exact verdicts_emit rfl
  | syncResponse peer id response => exact verdicts_handleSyncResponse ..
  | outboundFailure peer id => exact verdicts_pumpSync.trans (verdicts_updateSession _)
  | inboundFailure peer => exact verdicts_violation ..
  | dbAction action => exact verdicts_handleDbAction action
  | snapshotTick => exact verdicts_snapshotTick
  | syncTick pick => exact verdicts_startBestSyncPeer pick _
  | cleanupTick => exact verdicts_emit rfl
  | other => rfl

/-- Records of a sync response and own records await no verdict. -/
lemma awaited_silent {e : Event} (h : e.isSilent = true) : ∃ requests,
    (a.handle K c e).queue = a.queue ++ requests ∧
      ∀ q ∈ requests, q.gossipValidation = none := by
  obtain ⟨ops, hdeed, -⟩ := (@handle_does K a c e).deed
  have hqueue : (a.handle K c e).core.queue = (a.handle K c e).queue := rfl
  rw [← hqueue]
  generalize (a.handle K c e).core.queue = queue at hdeed hqueue ⊢
  cases hdeed with
  | quiet => exact ⟨[], (List.append_nil _).symm, by simp⟩
  | asked => exact ⟨[], (List.append_nil _).symm, by simp⟩
  | unsupported => exact ⟨[], (List.append_nil _).symm, by simp⟩
  | gossip => exact absurd h Bool.false_ne_true
  | took => exact absurd h Bool.false_ne_true
  | response =>
    refine ⟨_, rfl, fun q hq => ?_⟩
    obtain ⟨t, -, ht⟩ := List.mem_flatMap.mp hq
    unfold SyncTurn.requests at ht
    split_ifs at ht
    · rw [List.mem_singleton.mp ht]
    · cases ht
  | @signed result q hq =>
    obtain ⟨queue, hcore, hcases⟩ := @core_handleSignedRecord a c result
    have hsame : a.queue ++ [q] = queue := hqueue.trans (congrArg Core.queue hcore)
    refine ⟨[q], rfl, ?_⟩
    rcases hcases with rfl | ⟨record, now, -, rfl⟩
    · simp at hsame
    · rw [List.append_cancel_left hsame]
      simp

end Protonet.Swarm
