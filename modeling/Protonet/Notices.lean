import Protonet.RecordIdentity
import Protonet.SwarmEffects

/-!
# What the user is told

The notices of the engine are all that the window learns of it, by a channel that drops what it has
no room for. As long as nothing is dropped, a listener who goes by the notices alone knows who is
connected, which sessions are open and what they have received, and, once it has been told, whether
storage is safe.
-/
namespace Protonet.Swarm
open Lru MachineInt StepRun DeadlineTable Postcard Record Replay RateLimit Address Connections
  Sync Worker RecordIdentity

/-- What a listener makes of the notices. -/
structure View where
  connected : Finset PeerId
  /-- The records received in an open session. -/
  syncing : PeerId → Option ℕ
  /-- Nothing is known of storage before the first notice about it. -/
  safety : Option (Bool × Option String)

def Actor.view (a : Actor) : View where
  connected := a.connections.peers.keys.toFinset
  syncing peer := (a.syncSessions.lookup peer).map SyncSession.received
  safety := some (a.storageSafetyMode, a.storageSafetyReason)

/-- A notice that cannot come after those before it leaves nothing. Each connection that is let in
has its notice, also when its peer is connected already. -/
def View.read (v : View) : NetworkEvent → Option View
  | .peerConnected peer _ _ _ => some { v with connected := insert peer v.connected }
  | .peerDisconnected peer =>
    if peer ∈ v.connected then
      some { v with
        connected := v.connected.erase peer
        syncing := Function.update v.syncing peer none }
    else none
  | .syncStarted peer =>
    if v.syncing peer = none then
      some { v with syncing := Function.update v.syncing peer (some 0) }
    else none
  | .syncProgress peer received =>
    if (v.syncing peer).map Nat.succ = some received then
      some { v with syncing := Function.update v.syncing peer (some received) }
    else none
  | .syncCompleted peer received =>
    if v.syncing peer = some received then
      some { v with syncing := Function.update v.syncing peer none }
    else none
  | .storageSafetyChanged active reason => some { v with safety := some (active, reason) }
  | _ => some v

def View.see (v : View) : Effect → Option View
  | .notify event => v.read event
  | _ => some v

def View.follow (v : View) (effects : List Effect) : Option View := effects.foldlM View.see v

/-- The effects that tell a listener nothing of this. -/
def Mute (e : Effect) : Prop := ∀ v : View, v.see e = some v

variable {K : Primitives} {a b : Actor} {c : Clock} {peer : PeerId} {v : View}

/-- What a listener to this turn makes of it, and what there is to know. -/
def Actor.shown (v : View) (a : Actor) : Option View × View := (v.follow a.outbox, a.view)

def Tells (v : View) (a : Actor) : Prop := v.follow a.outbox = some a.view

lemma Tells.congr (h : Tells v a) (hsame : b.shown v = a.shown v) : Tells v b := by
  obtain ⟨hfollow, hview⟩ := Prod.mk.inj hsame
  unfold Tells
  rw [hfollow, hview]
  exact h

lemma follow_append (xs ys : List Effect) :
    v.follow (xs ++ ys) = (v.follow xs).bind fun w => w.follow ys := List.foldlM_append

lemma tells_notify (h : Tells v a) {event : NetworkEvent} (hread : a.view.read event = some b.view)
    (hout : b.outbox = a.outbox ++ [.notify event]) : Tells v b := by
  have hone : a.view.follow [.notify event] = some b.view := by
    unfold View.follow
    rw [List.foldlM_cons, View.see, hread]
    rfl
  unfold Tells at h ⊢
  rw [hout, follow_append, h]
  exact hone

lemma read_disconnected (h : peer ∈ v.connected) : v.read (.peerDisconnected peer) = some { v with
    connected := v.connected.erase peer
    syncing := Function.update v.syncing peer none } := if_pos h

lemma read_started (h : v.syncing peer = none) : v.read (.syncStarted peer) =
    some { v with syncing := Function.update v.syncing peer (some 0) } := if_pos h

lemma read_progress {n : ℕ} (h : v.syncing peer = some n) : v.read (.syncProgress peer (n + 1)) =
    some { v with syncing := Function.update v.syncing peer (some (n + 1)) } :=
  if_pos (congrArg (Option.map Nat.succ) h)

lemma read_completed {n : ℕ} (h : v.syncing peer = some n) : v.read (.syncCompleted peer n) =
    some { v with syncing := Function.update v.syncing peer none } := if_pos h

lemma shown_emit {e : Effect} (h : Mute e) : (a.emit e).shown v = a.shown v := by
  have hfollow : v.follow (a.outbox ++ [e]) = v.follow a.outbox := by
    rw [follow_append]
    rcases v.follow a.outbox with _ | w
    · rfl
    · unfold View.follow
      rw [Option.bind_some, List.foldlM_cons, h w]
      rfl
  exact Prod.ext hfollow rfl

@[simp] lemma shown_violation (peer : Option PeerId) (reason : String) :
    (a.violation peer reason).shown v = a.shown v := shown_emit fun _ => rfl

@[simp] lemma shown_reportGossip (messageId : RecordId) (source : PeerId)
    (acceptance : MessageAcceptance) :
    (a.reportGossip messageId source acceptance).shown v = a.shown v := shown_emit fun _ => rfl

@[simp] lemma shown_reportValidation (gossipValidation : Option (RecordId × PeerId))
    (acceptance : MessageAcceptance) :
    (a.reportValidation gossipValidation acceptance).shown v = a.shown v := by
  cases gossipValidation with
  | none => rfl
  | some validation => exact shown_reportGossip ..

@[simp] lemma shown_block (duration now : ℕ) : (a.block peer duration now).shown v = a.shown v :=
  @shown_emit { a with blocked := a.blocked.put peer (now + duration) } v _ fun _ => rfl

lemma shown_isBlocked (now : ℕ) : (a.isBlocked peer now).2.shown v = a.shown v := by
  unfold Actor.isBlocked
  split
  · rfl
  · split_ifs <;> rfl

lemma shown_allowIngestionSource (now : ℕ) :
    (a.allowIngestionSource peer now).2.shown v = a.shown v := by
  unfold Actor.allowIngestionSource
  split <;> rfl

lemma shown_tryEnqueue (request : PersistRequest) :
    (a.tryEnqueue request).2.shown v = a.shown v := by
  unfold Actor.tryEnqueue
  split_ifs <;> rfl

lemma shown_updateSession {f : SyncSession → SyncSession}
    (hf : ∀ session, (f session).received = session.received) :
    (a.updateSession peer f).shown v = a.shown v := by
  unfold Actor.updateSession
  rcases hlookup : a.syncSessions.lookup peer with _ | session
  · rfl
  · refine Prod.ext rfl ?_
    change View.mk _ _ _ = View.mk _ _ _
    congr 1
    funext other
    dsimp only
    by_cases hother : other = peer
    · rw [hother, AList.lookup_insert, hlookup, Option.map_some, hf]
      rfl
    · rw [AList.lookup_insert_ne hother]

lemma shown_sendRequest (request : SyncRequest) (pending : PendingSync) :
    (a.sendRequest peer request pending).shown v = a.shown v :=
  @shown_emit { a with
    pendingSync := a.pendingSync.insert a.nextRequest pending
    nextRequest := a.nextRequest + 1 } v _ fun _ => rfl

lemma shown_requestFor (request : SyncRequest) (pending : PendingSync) :
    (a.requestFor peer request pending).shown v = a.shown v := by
  rw [Actor.requestFor, shown_updateSession (f := .await a.nextRequest) fun _ => rfl,
    shown_sendRequest]

lemma shown_acceptReplay (record : FlaggedFileRecord) (now : ℕ) :
    (a.acceptReplay K record now).shown v = a.shown v := by
  unfold Actor.acceptReplay
  split <;> rfl

lemma shown_publishOwn (record : FlaggedFileRecord) (publication : Option String) :
    (a.publishOwn K record publication).shown v = a.shown v := by
  have hemit : (a.emit (.publish record.encode)).shown v = a.shown v := shown_emit fun _ => rfl
  unfold Actor.publishOwn
  split_ifs
  · cases publication with
    | none => exact (shown_emit fun _ => rfl).trans hemit
    | some error => exact (shown_violation ..).trans hemit
  · rfl

lemma shown_continueBucket (bucket : Int64) (cursor : RecordId) :
    (a.continueBucket peer bucket cursor).shown v = a.shown v := by
  unfold Actor.continueBucket
  split
  · rfl
  · split_ifs
    · exact shown_requestFor ..
    · exact shown_updateSession fun _ => rfl

lemma shown_handleSignedRecord (result : Except String FlaggedFileRecord) :
    (a.handleSignedRecord result c).shown v = a.shown v := by
  unfold Actor.handleSignedRecord
  split_ifs
  · exact shown_violation ..
  · rcases result with error | record
    · exact shown_violation ..
    · have henqueue := @shown_tryEnqueue a v ⟨record, none, c.instant 0, none⟩
      dsimp only
      rcases hq : a.tryEnqueue ⟨record, none, c.instant 0, none⟩ with ⟨_ | _, b⟩
      all_goals rw [hq] at henqueue
      · exact (shown_violation ..).trans henqueue
      · exact henqueue

lemma indifferent_shown : Indifferent (Actor.shown v) :=
  ⟨fun _ => shown_violation, fun _ _ => shown_block, fun _ _ => shown_allowIngestionSource,
    fun _ => shown_tryEnqueue, fun _ _ => rfl⟩

/-- An observation that no part of the handling of a gossip message changes. -/
structure Heedless {β : Type*} (obs : Actor → β) : Prop extends Indifferent obs where
  reportGossip : ∀ a messageId source acceptance,
    obs (Actor.reportGossip a messageId source acceptance) = obs a
  disconnectPeer : ∀ a peer, obs (Actor.emit a (.disconnectPeer peer)) = obs a
  isBlocked : ∀ a peer now, obs (Actor.isBlocked a peer now).2 = obs a
  limits : ∀ (a : Actor) rateLimiter globalRecords,
    obs { a with rateLimiter, globalRecords } = obs a

namespace Heedless
variable {β : Type*} {obs : Actor → β} {source : PeerId} {messageId : RecordId}

lemma gossipRefused (h : Heedless obs) (bytes : ℕ) :
    obs (a.gossipRefused source bytes c).2 = obs a := by
  unfold Actor.gossipRefused
  split_ifs
  · rfl
  · have hasked := h.isBlocked a source (c.instant 1)
    rcases hq : a.isBlocked source (c.instant 1) with ⟨_ | _, b⟩
    all_goals rw [hq] at hasked
    · dsimp only
      rcases b.rateLimiter.allowGossip source bytes (c.instant 0) with ⟨_ | _, l⟩
      · exact (h.limits ..).trans hasked
      · exact (h.limits ..).trans hasked
    · exact hasked

lemma rejectInvalid (h : Heedless obs) (error : RecordValidation) :
    obs (a.rejectInvalid source messageId error c) = obs a := by
  unfold Actor.rejectInvalid
  dsimp only
  rw [h.violation]
  generalize (if error = .invalidSignature then INVALID_SIGNATURE_BLOCK
    else MALFORMED_BLOCK) = duration
  have hlimits (l : RateLimiter) :
      obs { a.reportGossip messageId source .reject with rateLimiter := l } = obs a :=
    (h.limits _ l a.globalRecords).trans (h.reportGossip ..)
  split_ifs
  · exact (h.disconnectPeer ..).trans ((h.block ..).trans (hlimits _))
  · exact hlimits _

lemma ingestGossip (h : Heedless obs) (record : FlaggedFileRecord) :
    obs (a.ingestGossip source messageId record c) = obs a := by
  have hallow := h.allowIngestionSource a source (c.instant 0)
  unfold Actor.ingestGossip
  rcases hq : a.allowIngestionSource source (c.instant 0) with ⟨_ | _, b⟩
  all_goals
    rw [hq] at hallow
    dsimp only at hallow ⊢
  · exact (h.block ..).trans ((h.reportGossip ..).trans hallow)
  · have hqueue := h.tryEnqueue b ⟨record, some source, c.instant 2, some (messageId, source)⟩
    rcases he : b.tryEnqueue ⟨record, some source, c.instant 2, some (messageId, source)⟩
      with ⟨_ | _, d⟩
    all_goals rw [he] at hqueue
    · exact (h.reportGossip ..).trans (hqueue.trans hallow)
    · exact (h.replay ..).trans (hqueue.trans hallow)

lemma validateGossip (h : Heedless obs) (data : Bytes) :
    obs (a.validateGossip K source messageId data c) = obs a := by
  have hrefused := @gossipRefused a c β obs source h data.length
  unfold Actor.validateGossip
  rcases hr : a.gossipRefused source data.length c with ⟨_ | _, b⟩
  all_goals
    rw [hr] at hrefused
    dsimp only at hrefused ⊢
  · rcases RecordValidator.default.validateBytes K data (c.unixMs 0) with error | record
    · exact (h.rejectInvalid error).trans hrefused
    · dsimp only
      rcases record.origin K with error | origin
      · exact (h.violation ..).trans ((h.reportGossip ..).trans hrefused)
      · dsimp only
        rcases b.replay.check record.recordId origin record.sequence (c.instant 0) with
          ⟨_ | _ | _, replay⟩
        · exact (h.ingestGossip record).trans ((h.replay b replay).trans hrefused)
        · exact (h.reportGossip ..).trans ((h.replay b replay).trans hrefused)
        · exact (h.violation ..).trans ((h.reportGossip ..).trans ((h.replay b replay).trans
            hrefused))
  · exact (h.disconnectPeer ..).trans ((h.block ..).trans ((h.reportGossip ..).trans hrefused))

end Heedless

lemma heedless_shown : Heedless (Actor.shown v) where
  toIndifferent := indifferent_shown
  reportGossip _ := shown_reportGossip
  disconnectPeer _ _ := shown_emit fun _ => rfl
  isBlocked _ _ := shown_isBlocked
  limits _ _ _ := rfl

lemma view_ext {w : View} (hconnected : b.view.connected = w.connected)
    (hsyncing : ∀ other, (b.syncSessions.lookup other).map SyncSession.received = w.syncing other)
    (hsafety : b.view.safety = w.safety) : w = b.view := by
  obtain ⟨connected, syncing, safety⟩ := w
  obtain rfl : b.view.syncing = syncing := funext hsyncing
  obtain rfl : b.view.connected = connected := hconnected
  obtain rfl : b.view.safety = safety := hsafety
  rfl

lemma view_syncing {session : Option SyncSession} (h : a.syncSessions.lookup peer = session) :
    a.view.syncing peer = session.map SyncSession.received := by rw [← h, Actor.view]

lemma received_insert (session : SyncSession) (other : PeerId) :
    ((a.syncSessions.insert peer session).lookup other).map SyncSession.received =
      Function.update a.view.syncing peer (some session.received) other := by
  by_cases hother : other = peer
  · rw [hother, AList.lookup_insert, Function.update_self]
    rfl
  · rw [AList.lookup_insert_ne hother, Function.update_of_ne hother]
    rfl

lemma received_erase (other : PeerId) :
    ((a.syncSessions.erase peer).lookup other).map SyncSession.received =
      Function.update a.view.syncing peer none other := by
  by_cases hother : other = peer
  · rw [hother, AList.lookup_erase, Function.update_self]
    rfl
  · rw [AList.lookup_erase_ne hother, Function.update_of_ne hother]
    rfl

lemma tells_finishSync (h : Tells v a) : Tells v (a.finishSync peer) := by
  unfold Actor.finishSync
  rcases hlookup : a.syncSessions.lookup peer with _ | session
  · exact h
  · refine tells_notify h ((read_completed (view_syncing hlookup)).trans ?_) rfl
    exact congrArg some (view_ext rfl received_erase rfl)

lemma tells_startSync (h : Tells v a) (now : ℕ) : Tells v (a.startSync peer now) := by
  unfold Actor.startSync
  split_ifs with hrefused
  · exact h
  · have hclosed : a.syncSessions.lookup peer = none := by
      simpa using (not_or.mp hrefused).1
    have hsent : Tells v (a.sendRequest peer .getInventory (.inventory peer)) :=
      h.congr (shown_sendRequest ..)
    refine tells_notify hsent ((read_started (view_syncing hclosed)).trans ?_) rfl
    exact congrArg some (view_ext rfl (received_insert _) rfl)

lemma tells_startBestSyncPeer (h : Tells v a) (pick : Option PeerId) (now : ℕ) :
    Tells v (a.startBestSyncPeer pick now) := by
  unfold Actor.startBestSyncPeer
  split_ifs
  · exact h
  · cases pick with
    | none => exact h
    | some peer =>
      dsimp only
      split_ifs
      · exact tells_startSync h now
      · exact h

lemma tells_pumpBuckets (h : Tells v a) (buckets : List Int64) :
    Tells v (a.pumpBuckets peer buckets) := by
  induction buckets generalizing a with
  | nil =>
    rw [Actor.pumpBuckets]
    split
    · exact h
    · split_ifs
      · exact h
      · exact tells_finishSync h
      · exact h
  | cons bucket rest ih =>
    rw [Actor.pumpBuckets]
    split
    · exact h
    · split_ifs
      · exact h
      all_goals
        exact ih (h.congr ((shown_requestFor ..).trans (shown_updateSession fun _ => rfl)))

lemma tells_pumpSync (h : Tells v a) : Tells v (a.pumpSync peer) := by
  unfold Actor.pumpSync
  split
  · exact h
  · exact tells_pumpBuckets h _

lemma tells_noteReceived (h : Tells v a) (record : FlaggedFileRecord) :
    Tells v (a.noteReceived peer record) := by
  have hnoted : Tells v (a.notify (.recordReceived record.recordId peer record.fileName)) :=
    h.congr (shown_emit fun _ => rfl)
  unfold Actor.noteReceived Actor.updateSession
  dsimp only
  rcases hlookup : (a.notify (.recordReceived record.recordId peer
    record.fileName)).syncSessions.lookup peer with _ | session
  · exact hnoted
  · refine tells_notify hnoted ((read_progress (view_syncing hlookup)).trans ?_) rfl
    exact congrArg some (view_ext rfl (received_insert _) rfl)

lemma tells_handlePersisted (h : Tells v a) (event : PersistEvent) (publication : Option String) :
    Tells v (a.handlePersisted K event publication c) := by
  cases event with
  | stored request =>
    unfold Actor.handlePersisted
    dsimp only
    have haccepted : Tells v ((a.acceptReplay K request.record (c.instant 0)).reportValidation
        request.gossipValidation .accept) :=
      h.congr ((shown_reportValidation ..).trans (shown_acceptReplay ..))
    split
    · exact tells_noteReceived haccepted _
    · exact haccepted.congr (shown_publishOwn ..)
  | duplicate recordId origin sequence validation =>
    exact h.congr ((shown_reportValidation ..).trans rfl)
  | failed recordId error validation =>
    unfold Actor.handlePersisted
    dsimp only
    refine Tells.congr ?_ ((shown_reportValidation ..).trans (shown_violation ..))
    exact @tells_notify _ _ v h
      (.storageSafetyChanged true (some (PersistError.reason error))) rfl rfl

lemma connected_insert {m : ConnectionManager} (state : PeerConnectionState) :
    (m.peers.insert peer state).keys.toFinset = insert peer m.peers.keys.toFinset := by
  ext other
  rw [Finset.mem_insert, List.mem_toFinset, List.mem_toFinset, ← AList.mem_keys, ← AList.mem_keys,
    AList.mem_insert]

lemma connected_again {m : ConnectionManager} {old : PeerConnectionState}
    (h : m.peers.lookup peer = some old) (state : PeerConnectionState) :
    (m.peers.insert peer state).keys.toFinset = m.peers.keys.toFinset := by
  have hin : peer ∈ m.peers.keys.toFinset := by
    rw [List.mem_toFinset, ← AList.mem_keys, ← AList.lookup_isSome, h]
    rfl
  rw [connected_insert, Finset.insert_eq_of_mem hin]

lemma shown_amended {old : PeerConnectionState}
    (hlookup : a.connections.peers.lookup peer = some old) (state : PeerConnectionState) :
    ({ a with connections := ⟨a.connections.peers.insert peer state⟩ } : Actor).shown v =
      a.shown v := by
  have hview : a.view =
      ({ a with connections := ⟨a.connections.peers.insert peer state⟩ } : Actor).view :=
    view_ext (connected_again hlookup state) (fun _ => rfl) rfl
  exact Prod.ext rfl hview.symm

lemma tells_letIn (h : Tells v a) (endpoint : ConnectedPoint) :
    Tells v (a.letIn peer endpoint c) := by
  have htold (state : PeerConnectionState) : Tells v (({ a with
      connections := ⟨a.connections.peers.insert peer state⟩ } : Actor).notify
        (.peerConnected peer state.address state.directness state.transport)) := by
    refine tells_notify h ?_ rfl
    unfold View.read Actor.view
    dsimp only
    rw [← connected_insert state]
    rfl
  unfold Actor.letIn ConnectionManager.connected
  dsimp only
  rw [AList.lookup_insert]
  dsimp only
  split_ifs
  · exact tells_startSync (htold _) _
  · exact htold _

lemma tells_connectionEstablished (h : Tells v a) (endpoint : ConnectedPoint)
    (connection : ConnectionId) (numEstablished : ℕ) :
    Tells v (a.connectionEstablished peer endpoint connection numEstablished c) := by
  have hmute (b : Actor) : (b.emit (.closeConnection connection)).shown v = b.shown v :=
    shown_emit fun _ => rfl
  unfold Actor.connectionEstablished
  dsimp only
  split_ifs
  · exact h.congr ((shown_violation ..).trans (hmute _))
  · have hasked := @shown_isBlocked { a with
      deniedConnections := a.deniedConnections.pop connection } peer v (c.instant 0)
    rcases hq : Actor.isBlocked { a with
      deniedConnections := a.deniedConnections.pop connection } peer (c.instant 0) with ⟨_ | _, b⟩
    all_goals
      rw [hq] at hasked
      have hb : Tells v b := h.congr hasked
      dsimp only
    · split_ifs
      · exact hb.congr ((shown_violation ..).trans (hmute _))
      · exact hb.congr (hmute _)
      · exact tells_letIn hb endpoint
    · exact hb.congr (shown_emit fun _ => rfl)

lemma tells_connectionClosed (h : Tells v a) (connection : ConnectionId) :
    Tells v (a.connectionClosed peer connection) := by
  unfold Actor.connectionClosed ConnectionManager.disconnected
  dsimp only
  rcases hlookup : a.connections.peers.lookup peer with _ | state
  · exact h
  · have hin : peer ∈ a.view.connected := by
      unfold Actor.view
      rw [List.mem_toFinset, ← AList.mem_keys, ← AList.lookup_isSome, hlookup]
      rfl
    dsimp only
    split_ifs
    · refine tells_notify h ((read_disconnected hin).trans ?_) rfl
      have hgone : (a.connections.peers.erase peer).keys.toFinset =
          a.connections.peers.keys.toFinset.erase peer := by
        ext other
        rw [Finset.mem_erase, List.mem_toFinset, List.mem_toFinset, ← AList.mem_keys,
          ← AList.mem_keys, AList.mem_erase]
      exact congrArg some (view_ext hgone received_erase rfl)
    · exact h.congr (shown_amended (a := { a with
        deniedConnections := a.deniedConnections.pop connection }) hlookup _)

lemma tells_handleSyncResponse (h : Tells v a) (id : RequestId) (response : SyncResponse) :
    Tells v (a.handleSyncResponse K peer id response c) := by
  unfold Actor.handleSyncResponse
  rcases a.pendingSync.lookup id with _ | pending
  · exact h
  · have hsettled (b : Actor) : (b.updateSession peer (.settle id)).shown v = b.shown v :=
      shown_updateSession fun _ => rfl
    dsimp only
    split
    · exact h.congr ((shown_emit fun _ => rfl).trans ((shown_block ..).trans
        ((shown_violation ..).trans (hsettled _))))
    · split
      · exact h.congr (shown_emit fun _ => rfl)
      · exact h.congr (shown_emit fun _ => rfl)
      · exact tells_pumpSync (h.congr ((indifferent_shown.acceptSyncRecords _).trans
          (shown_updateSession fun _ => rfl)))
      · exact tells_pumpSync (h.congr ((hsettled _).trans (shown_violation ..)))

lemma tells_handleDbAction (h : Tells v a) (action : DbAction) :
    Tells v (a.handleDbAction action c) := by
  cases action with
  | sendResponse peer channel response =>
    unfold Actor.handleDbAction
    dsimp only
    split_ifs
    · exact h.congr (shown_emit fun _ => rfl)
    · exact h
  | inventoryCompared peer id differingBuckets =>
    exact tells_pumpSync (h.congr (shown_updateSession fun _ => rfl))
  | idsCompared peer id bucket missing nextCursor =>
    have hsettled : Tells v (a.updateSession peer (.settle id)) :=
      h.congr (shown_updateSession fun _ => rfl)
    have hasked : Tells v (if missing ≠ [] then (a.updateSession peer (.settle id)).requestFor peer
        (.getRecords missing) (.records peer) else a.updateSession peer (.settle id)) := by
      split_ifs
      · exact hsettled.congr (shown_requestFor ..)
      · exact hsettled
    unfold Actor.handleDbAction
    dsimp only
    refine tells_pumpSync ?_
    cases nextCursor with
    | none => exact hasked
    | some cursor => exact hasked.congr (shown_continueBucket ..)
  | maintenance storageSafe storageReason =>
    unfold Actor.handleDbAction
    dsimp only
    split_ifs
    · exact @tells_notify _ _ v h (.storageSafetyChanged (!storageSafe) storageReason) rfl rfl
    · exact h

lemma tells_snapshotTick (h : Tells v a) : Tells v (a.snapshotTick c) := by
  have hdropped (peers : List PeerId) (b : Actor) :
      (peers.foldl Actor.dropUnverified b).shown v = b.shown v := by
    induction peers generalizing b with
    | nil => rfl
    | cons peer peers ih =>
      exact (ih _).trans ((shown_emit fun _ => rfl).trans (shown_violation ..))
  have hfinished (peers : List PeerId) (b : Actor) (hb : Tells v b) :
      Tells v (peers.foldl (fun a peer => (a.dropPending peer).finishSync peer) b) := by
    induction peers generalizing b with
    | nil => exact hb
    | cons peer peers ih => exact ih _ (tells_finishSync hb)
  unfold Actor.snapshotTick
  dsimp only
  exact hfinished _ _ (h.congr (hdropped _ _))

lemma shown_identified (protocolVersion : String) :
    (a.identified peer protocolVersion c).shown v = a.shown v := by
  unfold Actor.identified ConnectionManager.setProtocol
  split_ifs
  · exact (shown_emit fun _ => rfl).trans ((shown_violation ..).trans (shown_block ..))
  · rcases hlookup : a.connections.peers.lookup peer with _ | state
    · rfl
    · exact shown_amended hlookup _

lemma shown_pinged (rtt : ℕ) : (a.pinged peer rtt).shown v = a.shown v := by
  unfold Actor.pinged ConnectionManager.setRtt
  rcases hlookup : a.connections.peers.lookup peer with _ | state
  · rfl
  · exact shown_amended hlookup _

lemma tells_handle (h : Tells v a) (e : Event) : Tells v (a.handle K c e) := by
  cases e with
  | command command signerFull =>
    cases command with
    | publishFile sha256 blake3 fileSize fileName =>
      unfold Actor.handle Actor.handleCommand
      dsimp only
      split_ifs
      · exact h.congr (shown_violation ..)
      · exact h.congr (shown_violation ..)
      · exact h.congr (shown_emit fun _ => rfl)
    | disconnect peer => exact h.congr (shown_emit fun _ => rfl)
    | requestSync peer => exact tells_startSync h _
    | requestSyncAny pick => exact tells_startBestSyncPeer h pick _
  | signedRecord result => exact h.congr (shown_handleSignedRecord result)
  | persisted event publication => exact tells_handlePersisted h event publication
  | connectionEstablished peer endpoint connection n =>
    exact tells_connectionEstablished h endpoint connection n
  | connectionClosed peer connection => exact tells_connectionClosed h connection
  | incomingConnectionError connection error => exact h.congr (shown_violation ..)
  | incomingConnection connection sendBackAddr =>
    unfold Actor.handle Actor.incomingConnection
    dsimp only
    split_ifs
    · exact h
    · exact h.congr (shown_emit fun _ => rfl)
  | identified peer protocolVersion => exact h.congr (shown_identified protocolVersion)
  | pinged peer rtt => exact h.congr (shown_pinged rtt)
  | gossip source messageId data => exact h.congr (heedless_shown.validateGossip data)
  | syncRequest peer request channel =>
    unfold Actor.handle Actor.prepareSyncResponse
    dsimp only
    split_ifs <;> exact h.congr (shown_emit fun _ => rfl)
  | syncResponse peer id response => exact tells_handleSyncResponse h id response
  | outboundFailure peer id => exact tells_pumpSync (h.congr (shown_updateSession fun _ => rfl))
  | inboundFailure peer => exact h.congr (shown_violation ..)
  | dbAction action => exact tells_handleDbAction h action
  | snapshotTick => exact tells_snapshotTick h
  | syncTick pick => exact tells_startBestSyncPeer h pick _
  | cleanupTick => exact h.congr (shown_emit fun _ => rfl)
  | workerTook n => exact h
  | other => exact h

/-- A listener who was right before a turn is right after it. -/
lemma tells_step (e : Clock × Event) : a.view.follow (a.step K e).outbox = some (a.step K e).view :=
  tells_handle (a := a.cleared) rfl e.2

/-- The listener is right about what it has been told. -/
structure View.Agrees (v w : View) : Prop where
  connected : v.connected = w.connected
  syncing : v.syncing = w.syncing
  safety : v.safety = none ∨ v.safety = w.safety

/-- Of two listeners that agree, one that knows less reads the same notices. -/
lemma View.Agrees.read {w w' : View} (h : v.Agrees w) {event : NetworkEvent}
    (hread : w.read event = some w') : ∃ v', v.read event = some v' ∧ v'.Agrees w' := by
  obtain ⟨connected, syncing, safety⟩ := v
  obtain ⟨rfl, rfl, hsafety⟩ := h
  cases event with
  | storageSafetyChanged active reason =>
    obtain rfl := Option.some.inj hread
    exact ⟨_, rfl, rfl, rfl, .inr rfl⟩
  | peerConnected peer address directness transport =>
    obtain rfl := Option.some.inj hread
    exact ⟨_, rfl, rfl, rfl, hsafety⟩
  | peerDisconnected _ | syncStarted _ | syncProgress _ _ | syncCompleted _ _ =>
    unfold View.read at hread ⊢
    dsimp only at hread ⊢
    split_ifs at hread with hfits
    obtain rfl := Option.some.inj hread
    exact ⟨_, if_pos hfits, rfl, rfl, hsafety⟩
  | recordPublished _ _ | recordReceived _ _ _ | protocolViolation _ _ =>
    obtain rfl := Option.some.inj hread
    exact ⟨_, rfl, rfl, rfl, hsafety⟩

def EVENT_CHANNEL_CAPACITY : ℕ := 1024

/-- The engine, the notices its turn has yet to send, those in the channel, and what the window has
made of those it received. A notice without an event tells nothing of this, such as a log message. -/
structure Wire where
  actor : Actor
  outgoing : List (Option NetworkEvent)
  channel : List (Option NetworkEvent)
  heard : Option View

/-- A window that knows nothing listens to a new engine. -/
def Wire.start (actor : Actor) : Wire := ⟨actor, [], [], some ⟨∅, fun _ => none, none⟩⟩

inductive Wire.Move
  | turn (c : Clock) (e : Event)
  | aside
  | send
  | receive

def noticesOf (effects : List Effect) : List (Option NetworkEvent) :=
  effects.filterMap fun
    | .notify event => some (some event)
    | _ => none

def View.hear (v : View) : Option NetworkEvent → Option View
  | some event => v.read event
  | none => some v

def Wire.step (K : Primitives) (w : Wire) : Wire.Move → Wire
  | .turn c e =>
    -- the engine is one task: its next turn begins when all notices of the last one are sent
    if w.outgoing = [] then
      { w with
        actor := w.actor.step K (c, e)
        outgoing := noticesOf (w.actor.step K (c, e)).outbox }
    else w
  | .aside => { w with outgoing := w.outgoing ++ [none] }
  | .send =>
    match w.outgoing with
    | [] => w
    | notice :: outgoing =>
      if w.channel.length < EVENT_CHANNEL_CAPACITY then
        { w with outgoing, channel := w.channel ++ [notice] }
      else { w with outgoing }
  | .receive =>
    match w.channel with
    | [] => w
    | notice :: channel => { w with channel, heard := w.heard.bind fun v => v.hear notice }

/-- A notice that is sent finds room. -/
def Wire.Delivers (w : Wire) : Wire.Move → Prop
  | .send => w.outgoing = [] ∨ w.channel.length < EVENT_CHANNEL_CAPACITY
  | _ => True

instance (w : Wire) (m : Wire.Move) : Decidable (w.Delivers m) := by
  cases m <;> unfold Wire.Delivers <;> infer_instance

/-- The listener has read nothing that did not fit, and with the notices on their way will be right
about the engine. -/
def Wire.Informed (w : Wire) : Prop :=
  ∃ v ∈ w.heard, ∃ v', (w.channel ++ w.outgoing).foldlM View.hear v = some v' ∧
    v'.Agrees w.actor.view

lemma foldlM_noticesOf (effects : List Effect) (v : View) :
    (noticesOf effects).foldlM View.hear v = v.follow effects := by
  induction effects generalizing v with
  | nil => rfl
  | cons effect effects ih =>
    unfold View.follow at ih ⊢
    cases effect with
    | notify event =>
      rw [show noticesOf (.notify event :: effects) = some event :: noticesOf effects from rfl,
        List.foldlM_cons, List.foldlM_cons]
      exact congrArg _ (funext ih)
    | _ => exact ih v

lemma View.Agrees.follow {w w' : View} {effects : List Effect} (h : v.Agrees w)
    (hfollow : w.follow effects = some w') : ∃ v', v.follow effects = some v' ∧ v'.Agrees w' := by
  induction effects generalizing v w with
  | nil =>
    obtain rfl := Option.some.inj hfollow
    exact ⟨v, rfl, h⟩
  | cons effect effects ih =>
    unfold View.follow at hfollow ih ⊢
    rw [List.foldlM_cons] at hfollow
    obtain ⟨w₁, hw₁, hrest⟩ := Option.bind_eq_some_iff.mp hfollow
    have hone : ∃ v₁, v.see effect = some v₁ ∧ v₁.Agrees w₁ := by
      cases effect with
      | notify event => exact h.read hw₁
      | _ =>
        obtain rfl := Option.some.inj hw₁
        exact ⟨v, rfl, h⟩
    obtain ⟨v₁, hv₁, hagrees⟩ := hone
    obtain ⟨v', hv', hlast⟩ := ih hagrees hrest
    refine ⟨v', ?_, hlast⟩
    rw [List.foldlM_cons, hv₁]
    exact hv'

lemma informed_step {w : Wire} (h : w.Informed) {m : Wire.Move} (hroom : w.Delivers m) :
    (w.step K m).Informed := by
  obtain ⟨v, hv, v', hfollow, hagrees⟩ := h
  cases m with
  | turn c e =>
    unfold Wire.step
    dsimp only
    split_ifs with hidle
    · rw [hidle, List.append_nil] at hfollow
      obtain ⟨v₁, hv₁, hnext⟩ := hagrees.follow (tells_step (K := K) (c, e))
      refine ⟨v, hv, v₁, ?_, hnext⟩
      rw [List.foldlM_append, hfollow]
      exact (foldlM_noticesOf ..).trans hv₁
    · exact ⟨v, hv, v', hfollow, hagrees⟩
  | aside =>
    refine ⟨v, hv, v', ?_, hagrees⟩
    unfold Wire.step
    dsimp only
    rw [← List.append_assoc, List.foldlM_append, hfollow]
    rfl
  | send =>
    unfold Wire.step
    rcases hout : w.outgoing with _ | ⟨notice, outgoing⟩
    · exact ⟨v, hv, v', hfollow, hagrees⟩
    · have hfree : w.channel.length < EVENT_CHANNEL_CAPACITY :=
        hroom.resolve_left (by rw [hout]; exact List.cons_ne_nil _ _)
      refine ⟨v, by simpa [hfree] using hv, v', ?_, by simpa [hfree] using hagrees⟩
      rw [hout] at hfollow
      simpa [hfree] using hfollow
  | receive =>
    unfold Wire.step
    rcases hchannel : w.channel with _ | ⟨notice, channel⟩
    · exact ⟨v, hv, v', hfollow, hagrees⟩
    · rw [hchannel, List.cons_append, List.foldlM_cons] at hfollow
      obtain ⟨v₁, hv₁, hrest⟩ := Option.bind_eq_some_iff.mp hfollow
      refine ⟨v₁, ?_, v', hrest, hagrees⟩
      rw [Option.mem_def.mp hv]
      exact hv₁

/-- A peer connects, and the window hears of it and of the session. -/
def sampleMoves : List Wire.Move :=
  [.turn (.still 0 0) (.connectionEstablished ⟨[2]⟩ (.listener [.ip4 ⟨1, 2, 3, 4⟩, .tcp 4001]) 1 1),
    .aside, .send, .send, .receive, .send, .receive, .receive]

end Protonet.Swarm
