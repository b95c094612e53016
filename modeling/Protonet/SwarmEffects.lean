import Protonet.GossipTurns

namespace Protonet.Swarm
open Lru MachineInt StepRun DeadlineTable Postcard Record Replay RateLimit Address Connections
  Sync Worker

/-- The requests an event may lead to. -/
inductive Asks : Event → PeerId → SyncRequest → Prop
  | inventory {e : Event} {peer : PeerId} : Asks e peer .getInventory
  | page {e : Event} {peer : PeerId} {bucket : Int64} :
      Asks e peer (.getRecordIds bucket none (UInt16.ofNat MAX_IDS_PER_RESPONSE))
  | nextPage {peer : PeerId} {id : RequestId} {bucket : Int64} {missing : List RecordId}
      {cursor : RecordId} : Asks (.dbAction (.idsCompared peer id bucket missing (some cursor))) peer
        (.getRecordIds bucket (some cursor) (UInt16.ofNat MAX_IDS_PER_RESPONSE))
  | records {peer : PeerId} {id : RequestId} {bucket : Int64} {missing : List RecordId}
      {nextCursor : Option RecordId} (h : missing ≠ []) :
      Asks (.dbAction (.idsCompared peer id bucket missing nextCursor)) peer (.getRecords missing)

/-- What an effect of an event is owed to; of effects that tell the user, the gossip layer or the
transport about a peer nothing is said. -/
def Caused (K : Primitives) (identity : PeerId) (e : Event) : Effect → Prop
  | .sendRequest _ peer request => Asks e peer request
  | .sendResponse channel response =>
    (∃ peer request, e = .syncRequest peer request channel ∧ response = .error .tooLarge) ∨
      ∃ peer, e = .dbAction (.sendResponse peer channel response)
  | .prepareResponse peer channel request =>
    e = .syncRequest peer request channel ∧ request.validate = .ok ()
  | .compareInventory _ id remote => ∃ peer, e = .syncResponse peer id (.inventory remote)
  | .compareIds _ id _ ids nextCursor =>
    ∃ peer, e = .syncResponse peer id (.recordIds ids nextCursor) ∧
      ids.length ≤ MAX_IDS_PER_RESPONSE
  | .sign sha256 blake3 fileSize fileName =>
    ∃ signerFull, e = .command (.publishFile sha256 blake3 fileSize fileName) signerFull
  | .publish data => ∃ request publication, e = .persisted (.stored request) publication ∧
      request.source = none ∧ request.record.origin K = .ok identity ∧
      data = request.record.encode
  | .cleanup => e = .cleanupTick
  | _ => True

/-- The kinds of effects that any event may have. -/
structure Plain (P : Effect → Prop) : Prop where
  notify : ∀ event, P (.notify event)
  reportGossip : ∀ messageId source acceptance, P (.reportGossip messageId source acceptance)
  disconnectPeer : ∀ peer, P (.disconnectPeer peer)
  closeConnection : ∀ connection, P (.closeConnection connection)
  block : ∀ peer start duration, P (.block peer start duration)

variable {K : Primitives} {a : Actor} {c : Clock} {peer : PeerId} {P : Effect → Prop}
  [DecidablePred P]

/-- The effects in the outbox that are not of the given kind. -/
def stray (P : Effect → Prop) [DecidablePred P] (a : Actor) : List Effect :=
  a.outbox.filter fun e => ¬ P e

lemma stray_emit {e : Effect} (h : P e) : stray P (a.emit e) = stray P a := by
  simp [stray, Actor.emit, h]

@[simp] lemma stray_updateSession (f : SyncSession → SyncSession) :
    stray P (a.updateSession peer f) = stray P a := by
  unfold Actor.updateSession
  split <;> rfl

lemma stray_sendRequest {request : SyncRequest} (pending : PendingSync)
    (h : ∀ id, P (.sendRequest id peer request)) :
    stray P (a.sendRequest peer request pending) = stray P a := by
  unfold Actor.sendRequest
  rw [stray_emit (h _)]
  rfl

lemma stray_requestFor {request : SyncRequest} (pending : PendingSync)
    (h : ∀ id, P (.sendRequest id peer request)) :
    stray P (a.requestFor peer request pending) = stray P a := by
  rw [Actor.requestFor, stray_updateSession, stray_sendRequest pending h]

lemma stray_isBlocked (now : ℕ) : stray P (a.isBlocked peer now).2 = stray P a := by
  unfold Actor.isBlocked
  split
  · rfl
  · split_ifs <;> rfl

lemma stray_allowIngestionSource (now : ℕ) :
    stray P (a.allowIngestionSource peer now).2 = stray P a := by
  unfold Actor.allowIngestionSource
  split <;> rfl

lemma stray_tryEnqueue (request : PersistRequest) :
    stray P (a.tryEnqueue request).2 = stray P a := by
  unfold Actor.tryEnqueue
  split_ifs <;> rfl

namespace Plain

lemma stray_notify (h : Plain P) (event : NetworkEvent) : stray P (a.notify event) = stray P a :=
  stray_emit (h.notify event)

lemma stray_violation (h : Plain P) (peer : Option PeerId) (reason : String) :
    stray P (a.violation peer reason) = stray P a := stray_emit (h.notify _)

lemma stray_reportGossip (h : Plain P) (messageId : RecordId) (source : PeerId)
    (acceptance : MessageAcceptance) :
    stray P (a.reportGossip messageId source acceptance) = stray P a :=
  stray_emit (h.reportGossip ..)

lemma stray_reportValidation (h : Plain P) (v : Option (RecordId × PeerId))
    (acceptance : MessageAcceptance) : stray P (a.reportValidation v acceptance) = stray P a := by
  cases v with
  | none => rfl
  | some v => exact h.stray_reportGossip ..

lemma stray_block (h : Plain P) (duration now : ℕ) :
    stray P (a.block peer duration now) = stray P a := by
  unfold Actor.block
  rw [stray_emit (h.block ..)]
  rfl

lemma stray_finishSync (h : Plain P) : stray P (a.finishSync peer) = stray P a := by
  unfold Actor.finishSync
  split
  · rfl
  · exact h.stray_notify _

lemma stray_pumpBuckets (h : Plain P) (hpage : ∀ id bucket, P (.sendRequest id peer
    (.getRecordIds bucket none (UInt16.ofNat MAX_IDS_PER_RESPONSE)))) (buckets : List Int64) :
    stray P (a.pumpBuckets peer buckets) = stray P a := by
  induction buckets generalizing a with
  | nil =>
    rw [Actor.pumpBuckets]
    split
    · rfl
    · split_ifs
      · rfl
      · exact h.stray_finishSync
      · rfl
  | cons bucket rest ih =>
    rw [Actor.pumpBuckets]
    split
    · rfl
    · split_ifs
      · rfl
      all_goals
        dsimp only
        rw [ih, stray_requestFor _ fun id => hpage id bucket, stray_updateSession]

lemma stray_pumpSync (h : Plain P) (hpage : ∀ id bucket, P (.sendRequest id peer
    (.getRecordIds bucket none (UInt16.ofNat MAX_IDS_PER_RESPONSE)))) :
    stray P (a.pumpSync peer) = stray P a := by
  unfold Actor.pumpSync
  split
  · rfl
  · exact h.stray_pumpBuckets hpage _

lemma stray_startSync (h : Plain P) (hinventory : ∀ id, P (.sendRequest id peer .getInventory))
    (now : ℕ) : stray P (a.startSync peer now) = stray P a := by
  unfold Actor.startSync
  split_ifs
  · rfl
  · exact (h.stray_notify _).trans (@stray_sendRequest a peer P _ _ (.inventory peer) hinventory)

lemma stray_startBestSyncPeer (h : Plain P)
    (hinventory : ∀ peer id, P (.sendRequest id peer .getInventory)) (pick : Option PeerId)
    (now : ℕ) : stray P (a.startBestSyncPeer pick now) = stray P a := by
  unfold Actor.startBestSyncPeer
  split_ifs
  · rfl
  · cases pick with
    | none => rfl
    | some peer =>
      dsimp only
      split_ifs
      · exact h.stray_startSync (hinventory peer) now
      · rfl

lemma indifferent_stray (h : Plain P) : Indifferent (stray P) :=
  ⟨fun _ _ _ => h.stray_violation .., fun _ _ _ _ => h.stray_block .., fun _ _ _ =>
    stray_allowIngestionSource _, fun _ _ => stray_tryEnqueue _, fun _ _ => rfl⟩

lemma stray_foldl {α : Type} {f : Actor → α → Actor} (hf : ∀ a x, stray P (f a x) = stray P a)
    (xs : List α) : stray P (xs.foldl f a) = stray P a := by
  induction xs generalizing a with
  | nil => rfl
  | cons x xs ih => rw [List.foldl_cons, ih, hf]

end Plain

lemma stray_letIn (h : Plain P) (hinventory : ∀ id, P (.sendRequest id peer .getInventory))
    (endpoint : ConnectedPoint) : stray P (a.letIn peer endpoint c) = stray P a := by
  unfold Actor.letIn
  dsimp only
  split_ifs
  · rw [h.stray_startSync hinventory]
    split
    · rfl
    · exact h.stray_notify _
  · split
    · rfl
    · exact h.stray_notify _

lemma stray_connectionEstablished (h : Plain P)
    (hinventory : ∀ id, P (.sendRequest id peer .getInventory)) (endpoint : ConnectedPoint)
    (connection : ConnectionId) (numEstablished : ℕ) :
    stray P (a.connectionEstablished peer endpoint connection numEstablished c) = stray P a := by
  unfold Actor.connectionEstablished
  dsimp only
  split_ifs
  · rw [h.stray_violation, stray_emit (h.closeConnection connection)]
    rfl
  · obtain ⟨b, hb⟩ : ∃ b, b = { a with deniedConnections := a.deniedConnections.pop connection } :=
      ⟨_, rfl⟩
    have hsame : stray P b = stray P a := by
      rw [hb]
      rfl
    have hasked := @stray_isBlocked b peer P _ (c.instant 0)
    rw [← hb, ← hsame]
    rcases hq : b.isBlocked peer (c.instant 0) with ⟨_ | _, d⟩
    all_goals
      rw [hq] at hasked
      dsimp only at hasked ⊢
      rw [← hasked]
    · split_ifs
      · rw [h.stray_violation, stray_emit (h.closeConnection connection)]
      · exact stray_emit (h.closeConnection connection)
      · exact stray_letIn h hinventory endpoint
    · exact stray_emit (h.disconnectPeer peer)

lemma stray_handleSignedRecord (h : Plain P) (result : Except String FlaggedFileRecord) :
    stray P (a.handleSignedRecord result c) = stray P a := by
  unfold Actor.handleSignedRecord
  split_ifs
  · exact h.stray_violation ..
  · rcases result with error | record
    · exact h.stray_violation ..
    · have henqueue := @stray_tryEnqueue a P _ ⟨record, none, c.instant 0, none⟩
      dsimp only
      rcases hq : a.tryEnqueue ⟨record, none, c.instant 0, none⟩ with ⟨_ | _, b⟩
      all_goals rw [hq] at henqueue
      · exact (h.stray_violation ..).trans henqueue
      · exact henqueue

lemma stray_noteReceived (h : Plain P) (record : FlaggedFileRecord) :
    stray P (a.noteReceived peer record) = stray P a := by
  unfold Actor.noteReceived
  dsimp only
  split
  · exact h.stray_notify _
  · rw [h.stray_notify, stray_updateSession, h.stray_notify]

lemma stray_publishOwn (h : Plain P) {record : FlaggedFileRecord}
    (hpublish : record.origin K = .ok a.identity → P (.publish record.encode))
    (publication : Option String) : stray P (a.publishOwn K record publication) = stray P a := by
  unfold Actor.publishOwn
  split_ifs with hown
  · have hemit := @stray_emit a P _ (.publish record.encode) (hpublish hown)
    cases publication with
    | none => rw [h.stray_notify, hemit]
    | some error => rw [h.stray_violation, hemit]
  · rfl

lemma identity_acceptReplay (record : FlaggedFileRecord) (now : ℕ)
    (v : Option (RecordId × PeerId)) (acceptance : MessageAcceptance) :
    ((a.acceptReplay K record now).reportValidation v acceptance).identity = a.identity := by
  unfold Actor.acceptReplay Actor.reportValidation
  rcases record.origin K with error | origin <;> rcases v with _ | ⟨messageId, source⟩ <;> rfl

lemma stray_acceptReplay (record : FlaggedFileRecord) (now : ℕ) :
    stray P (a.acceptReplay K record now) = stray P a := by
  unfold Actor.acceptReplay
  split <;> rfl

lemma stray_handlePersisted (h : Plain P) (event : PersistEvent) (publication : Option String)
    (hpublish : ∀ request, event = .stored request → request.source = none →
      request.record.origin K = .ok a.identity → P (.publish request.record.encode)) :
    stray P (a.handlePersisted K event publication c) = stray P a := by
  cases event with
  | stored request =>
    unfold Actor.handlePersisted
    dsimp only
    rcases hsource : request.source with _ | source
    · dsimp only
      rw [stray_publishOwn h, h.stray_reportValidation, stray_acceptReplay]
      rw [identity_acceptReplay]
      exact hpublish request rfl hsource
    · dsimp only
      rw [stray_noteReceived h, h.stray_reportValidation, stray_acceptReplay]
  | duplicate recordId origin sequence v => exact h.stray_reportValidation ..
  | failed recordId error v =>
    unfold Actor.handlePersisted
    dsimp only
    rw [h.stray_reportValidation, h.stray_violation, h.stray_notify]
    rfl

lemma stray_validateGossip (h : Plain P) (messageId : RecordId) (data : Bytes) :
    stray P (a.validateGossip K peer messageId data c) = stray P a := by
  obtain ⟨effects, hout, hturn⟩ := @validateGossip_turn K a c peer messageId data
  suffices hall : ∀ e ∈ effects, P e by
    have hnone : effects.filter (fun e => ¬ P e) = [] :=
      List.filter_eq_nil_iff.mpr fun e he => by simpa using hall e he
    unfold stray
    rw [hout, List.filter_append, hnone, List.append_nil]
  generalize (a.validateGossip K peer messageId data c).queue = queue at hturn
  cases hturn with
  | refused => simp [refusal, h.reportGossip, h.block, h.disconnectPeer]
  | @invalid error rest hvalid hrest =>
    refine List.forall_mem_cons.mpr ⟨h.reportGossip .., fun e he => ?_⟩
    have hpunishes := hrest e he
    cases e <;> first | exact hpunishes.elim | exact h.notify _ | exact h.block .. |
      exact h.disconnectPeer _
  | ignored => simp [h.reportGossip]
  | tooOld => simp [h.reportGossip, h.notify]
  | denied => simp [h.reportGossip, h.block]
  | queued => simp

lemma stray_handleSyncResponse (h : Plain P) (id : RequestId) (response : SyncResponse)
    (hpage : ∀ peer id bucket, P (.sendRequest id peer
      (.getRecordIds bucket none (UInt16.ofNat MAX_IDS_PER_RESPONSE))))
    (hinventory : ∀ peer remote, response = .inventory remote → P (.compareInventory peer id remote))
    (hids : ∀ peer bucket ids nextCursor, response = .recordIds ids nextCursor →
      response.validateBounds = .ok () → P (.compareIds peer id bucket ids nextCursor)) :
    stray P (a.handleSyncResponse K peer id response c) = stray P a := by
  unfold Actor.handleSyncResponse
  rcases a.pendingSync.lookup id with _ | pending
  · rfl
  · dsimp only
    split
    · rw [stray_emit (h.disconnectPeer peer), h.stray_block, h.stray_violation,
        stray_updateSession]
      rfl
    · rename_i hbounds
      split
      · exact stray_emit (hinventory _ _ rfl)
      · exact stray_emit (hids _ _ _ _ rfl hbounds)
      · rw [h.stray_pumpSync (hpage _), h.indifferent_stray.acceptSyncRecords,
          stray_updateSession]
        rfl
      · rw [h.stray_pumpSync (hpage _), stray_updateSession, h.stray_violation]
        rfl

lemma stray_continueBucket {bucket : Int64} {cursor : RecordId} (hnext : ∀ id,
    P (.sendRequest id peer
      (.getRecordIds bucket (some cursor) (UInt16.ofNat MAX_IDS_PER_RESPONSE)))) :
    stray P (a.continueBucket peer bucket cursor) = stray P a := by
  unfold Actor.continueBucket
  split
  · rfl
  · split_ifs
    · exact stray_requestFor _ hnext
    · exact stray_updateSession _

lemma stray_handleDbAction {identity : PeerId} (action : DbAction)
    (hP : ∀ e, Caused K identity (.dbAction action) e → P e) :
    stray P (a.handleDbAction action c) = stray P a := by
  have h : Plain P := ⟨fun _ => hP _ trivial, fun _ _ _ => hP _ trivial, fun _ => hP _ trivial,
    fun _ => hP _ trivial, fun _ _ _ => hP _ trivial⟩
  have hpage : ∀ peer id bucket, P (.sendRequest id peer
      (.getRecordIds bucket none (UInt16.ofNat MAX_IDS_PER_RESPONSE))) :=
    fun _ _ _ => hP _ .page
  cases action with
  | sendResponse peer channel response =>
    unfold Actor.handleDbAction
    dsimp only
    split_ifs
    · exact stray_emit (hP _ (.inr ⟨peer, rfl⟩))
    · rfl
  | inventoryCompared peer id differingBuckets =>
    exact (h.stray_pumpSync (hpage peer)).trans (stray_updateSession _)
  | idsCompared peer id bucket missing nextCursor =>
    unfold Actor.handleDbAction
    dsimp only
    obtain ⟨b, hb⟩ : ∃ b, b = if missing ≠ [] then (a.updateSession peer (.settle id)).requestFor
      peer (.getRecords missing) (.records peer) else a.updateSession peer (.settle id) := ⟨_, rfl⟩
    have hsame : stray P b = stray P a := by
      rw [hb]
      split_ifs with hmissing
      · rw [stray_requestFor _ fun id' => hP _ (.records hmissing), stray_updateSession]
      · exact stray_updateSession _
    rw [← hb, ← hsame, h.stray_pumpSync (hpage peer)]
    cases nextCursor with
    | none => rfl
    | some cursor => exact stray_continueBucket fun id' => hP _ .nextPage
  | maintenance storageSafe storageReason =>
    unfold Actor.handleDbAction
    dsimp only
    split_ifs
    · exact h.stray_notify _
    · rfl

lemma stray_handle (e : Event) (hP : ∀ x, Caused K a.identity e x → P x) :
    stray P (a.handle K c e) = stray P a := by
  have h : Plain P := ⟨fun _ => hP _ trivial, fun _ _ _ => hP _ trivial, fun _ => hP _ trivial,
    fun _ => hP _ trivial, fun _ _ _ => hP _ trivial⟩
  have hinventory : ∀ peer id, P (.sendRequest id peer .getInventory) :=
    fun _ _ => hP _ .inventory
  have hpage : ∀ peer id bucket, P (.sendRequest id peer
      (.getRecordIds bucket none (UInt16.ofNat MAX_IDS_PER_RESPONSE))) :=
    fun _ _ _ => hP _ .page
  cases e with
  | command command signerFull =>
    cases command with
    | publishFile sha256 blake3 fileSize fileName =>
      unfold Actor.handle Actor.handleCommand
      dsimp only
      split_ifs
      · exact h.stray_violation ..
      · exact h.stray_violation ..
      · exact stray_emit (hP _ ⟨signerFull, rfl⟩)
    | disconnect peer => exact stray_emit (h.disconnectPeer peer)
    | requestSync peer => exact h.stray_startSync (hinventory peer) _
    | requestSyncAny pick => exact h.stray_startBestSyncPeer hinventory pick _
  | signedRecord result => exact stray_handleSignedRecord h result
  | persisted event publication =>
    refine stray_handlePersisted h event publication fun request hevent hsource hown => ?_
    exact hP _ ⟨request, publication, by rw [hevent], hsource, hown, rfl⟩
  | connectionEstablished peer endpoint connection n =>
    exact stray_connectionEstablished h (hinventory peer) endpoint connection n
  | connectionClosed peer connection =>
    unfold Actor.handle Actor.connectionClosed
    dsimp only
    split
    · rfl
    · exact h.stray_notify _
  | incomingConnectionError connection error => exact h.stray_violation ..
  | incomingConnection connection sendBackAddr =>
    unfold Actor.handle Actor.incomingConnection
    dsimp only
    split_ifs
    · rfl
    · exact stray_emit (h.closeConnection connection)
  | identified peer protocolVersion =>
    unfold Actor.handle Actor.identified
    dsimp only
    split_ifs
    · rw [stray_emit (h.disconnectPeer peer), h.stray_violation, h.stray_block]
    · rfl
  | pinged peer rtt => rfl
  | gossip source messageId data => exact stray_validateGossip h messageId data
  | syncRequest peer request channel =>
    unfold Actor.handle Actor.prepareSyncResponse
    dsimp only
    split_ifs with hrefused
    · exact stray_emit (hP _ (.inl ⟨peer, request, rfl, rfl⟩))
    · refine stray_emit (hP _ ⟨rfl, ?_⟩)
      simp only [ne_eq, Bool.or_eq_true, Bool.not_eq_true', decide_eq_true_eq, not_or,
        Decidable.not_not] at hrefused
      exact hrefused.2
  | syncResponse peer id response =>
    refine stray_handleSyncResponse h id response hpage (fun peer' remote hresponse => ?_)
      fun peer' bucket ids nextCursor hresponse hbounds => ?_
    · exact hP _ ⟨peer, by rw [hresponse]⟩
    · subst hresponse
      exact hP _ ⟨peer, rfl, by simpa [SyncResponse.validateBounds] using hbounds⟩
  | outboundFailure peer id => exact (h.stray_pumpSync (hpage peer)).trans (stray_updateSession _)
  | inboundFailure peer => exact h.stray_violation ..
  | dbAction action => exact stray_handleDbAction action hP
  | snapshotTick =>
    unfold Actor.handle Actor.snapshotTick
    dsimp only
    have hdrop (b : Actor) (peer : PeerId) : stray P (b.dropUnverified peer) = stray P b :=
      (stray_emit (h.disconnectPeer peer)).trans (h.stray_violation ..)
    have hfinish (b : Actor) (peer : PeerId) :
        stray P ((b.dropPending peer).finishSync peer) = stray P b := h.stray_finishSync
    rw [Plain.stray_foldl hfinish, Plain.stray_foldl hdrop]
    rfl
  | syncTick pick => exact h.stray_startBestSyncPeer hinventory pick _
  | cleanupTick => exact stray_emit (hP _ rfl)
  | workerTook n => rfl
  | other => rfl

/-- Every effect of a turn is owed to the turn's event. -/
lemma outbox_caused {e : Event} {x : Effect} (h : x ∈ (a.step K (c, e)).outbox) :
    Caused K a.identity e x := by
  classical
  have hnone : stray (Caused K a.identity e) (a.step K (c, e)) = [] :=
    @stray_handle K a.cleared c _ _ e fun _ h => h
  have hin := List.filter_eq_nil_iff.mp hnone x h
  simpa using hin

end Protonet.Swarm
