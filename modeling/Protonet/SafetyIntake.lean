import Protonet.Blocking
import Protonet.Queries
import Protonet.SwarmEffects

namespace Protonet.SafetyIntake
open StepRun Postcard Record RecordIdentity Sync Worker Swarm Blocking

variable {K : Primitives} {a : Actor} {c : Clock} {e : Clock × Event}

/-- The event tells of a failed insertion or of a store that is not safe. -/
def Alarms (e : Clock × Event) : Prop :=
  (∃ event publication, e.2 = .persisted event publication ∧ event.isFailed = true) ∨
    ∃ reason, e.2 = .dbAction (.maintenance false reason)

/-- Maintenance tells of a safe store. -/
def Clears (e : Clock × Event) : Prop := ∃ reason, e.2 = .dbAction (.maintenance true reason)

/-- An alarm was raised in the run, or stood before it, and was not cleared since. -/
def Alarmed (a : Actor) (es : List (Clock × Event)) : Prop :=
  (∃ xs e ys, es = xs ++ e :: ys ∧ Alarms e ∧ ∀ d ∈ ys, ¬Clears d) ∨
    a.storageSafetyMode = true ∧ ∀ d ∈ es, ¬Clears d

/-- The step takes nothing new in, and turns the source of a gossip message away. -/
structure Closed (K : Primitives) (a : Actor) (e : Clock × Event) : Prop where
  queue : (a.step K e).queue <:+ a.queue
  unsigned : ∀ sha256 blake3 fileSize fileName,
    .sign sha256 blake3 fileSize fileName ∉ (a.step K e).outbox
  gossip : ∀ source messageId data, e.2 = .gossip source messageId data →
    (a.step K e).outbox = [.reportGossip messageId source .reject,
      .block source (e.1.instant 2) MINOR_BLOCK, .disconnectPeer source]

lemma mode_maintenance (storageSafe : Bool) (reason : Option String) :
    (a.handleDbAction (.maintenance storageSafe reason) c).storageSafetyMode = !storageSafe := by
  unfold Actor.handleDbAction
  dsimp only
  split_ifs with hchanged
  · rfl
  · obtain ⟨hmode, -⟩ := not_or.mp hchanged
    exact (not_not.mp hmode).symm

lemma mode_handle (e : Event) : (a.handle K c e).storageSafetyMode =
    match e with
    | .persisted event _ => event.isFailed || a.storageSafetyMode
    | .dbAction (.maintenance storageSafe _) => !storageSafe
    | _ => a.storageSafetyMode := by
  have hcore {b : Actor} (h : b.core = a.core) : b.storageSafetyMode = a.storageSafetyMode :=
    congrArg Core.storageSafetyMode h
  cases e with
  | command command signerFull => exact hcore (core_handleCommand command signerFull)
  | signedRecord result =>
    obtain ⟨queue, h, -⟩ := @core_handleSignedRecord a c result
    exact congrArg Core.storageSafetyMode h
  | persisted event publication =>
    obtain ⟨replay, reason, h⟩ := @core_handlePersisted K a c event publication
    exact congrArg Core.storageSafetyMode h
  | connectionEstablished peer endpoint connection n =>
    obtain ⟨ops, -, h⟩ := @core_connectionEstablished a c peer endpoint connection n
    exact congrArg Core.storageSafetyMode h
  | connectionClosed peer connection =>
    exact congrArg Core.storageSafetyMode (core_connectionClosed peer connection)
  | incomingConnectionError connection error =>
    exact congrArg Core.storageSafetyMode (core_incomingConnectionError connection error)
  | incomingConnection connection sendBackAddr =>
    obtain ⟨attempts, denied, h⟩ := @core_incomingConnection a c connection sendBackAddr
    exact congrArg Core.storageSafetyMode h
  | identified peer protocolVersion =>
    refine (congrArg Core.storageSafetyMode (core_identified peer protocolVersion)).trans ?_
    split <;> rfl
  | gossip source messageId data =>
    obtain ⟨_, _, _, _, _, _, h, -⟩ := @core_validateGossip K a c source messageId data
    exact congrArg Core.storageSafetyMode h
  | syncRequest peer request channel =>
    obtain ⟨rateLimiter, h⟩ := @core_prepareSyncResponse a c peer request channel
    exact congrArg Core.storageSafetyMode h
  | syncResponse peer id response =>
    obtain ⟨replay, rateLimiter, h⟩ := @core_handleSyncResponse K a c peer id response
    exact congrArg Core.storageSafetyMode h
  | outboundFailure peer id => exact hcore (core_outboundFailure peer id)
  | inboundFailure peer => exact hcore (core_violation ..)
  | dbAction action =>
    cases action with
    | sendResponse peer channel response =>
      unfold Actor.handle Actor.handleDbAction
      dsimp only
      split_ifs <;> rfl
    | inventoryCompared peer id differing => exact hcore (core_inventoryCompared (c := c) ..)
    | idsCompared peer id bucket missing nextCursor => exact hcore (core_idsCompared (c := c) ..)
    | maintenance storageSafe reason => exact mode_maintenance (c := c) storageSafe reason
  | snapshotTick => exact congrArg Core.storageSafetyMode core_snapshotTick
  | syncTick pick => exact hcore (core_startBestSyncPeer ..)
  | cleanupTick => exact hcore (core_emit ⟨rfl, rfl⟩)
  | _ => rfl

lemma mode_step : (a.step K e).storageSafetyMode = true ↔
    Alarms e ∨ a.storageSafetyMode = true ∧ ¬Clears e := by
  obtain ⟨c, e⟩ := e
  have hmode : (a.step K (c, e)).storageSafetyMode = _ := mode_handle (a := a.cleared) (c := c) e
  rw [hmode]
  cases e with
  | persisted event publication =>
    change (event.isFailed || a.storageSafetyMode) = true ↔ _
    simp [Alarms, Clears]
  | dbAction action =>
    cases action with
    | maintenance storageSafe reason => cases storageSafe <;> simp [Alarms, Clears]
    | _ => simp [Alarms, Clears, Actor.cleared]
  | _ => simp [Alarms, Clears, Actor.cleared]

/-- The mode is on exactly while an alarm stands. -/
lemma mode_run (es : List (Clock × Event)) :
    (run (Actor.step K) a es).storageSafetyMode = true ↔ Alarmed a es := by
  have hsince := @since_iff _ _ (Actor.step K) a es (fun a => a.storageSafetyMode = true)
    (fun _ e => Alarms e) (fun _ e => Clears e) (along_of_forall fun _ _ => mode_step)
  simp only [along_forall] at hsince
  exact hsince

lemma gossip_closed (hmode : a.storageSafetyMode = true) (source : PeerId) (messageId : RecordId)
    (data : Bytes) : a.validateGossip K source messageId data c =
      ((a.reportGossip messageId source .reject).block source MINOR_BLOCK (c.instant 2)).emit
        (.disconnectPeer source) := by
  have hrefused : a.gossipRefused source data.length c = (true, a) := if_pos hmode
  rw [Actor.validateGossip, hrefused]

lemma signed_closed (hmode : a.storageSafetyMode = true)
    (result : Except String FlaggedFileRecord) :
    a.handleSignedRecord result c = a.violation none "storage safety mode blocks new records" :=
  if_pos hmode

lemma turns_closed (hmode : a.storageSafetyMode = true) (id : RequestId)
    (response : SyncResponse) : a.responseTurns K id response c = [] := by
  unfold Actor.responseTurns
  split
  · rw [hmode, Bool.or_true, if_pos rfl]
  · rfl

lemma queue_closed (hmode : a.storageSafetyMode = true) (e : Event) :
    (a.handle K c e).queue <:+ a.queue := by
  obtain ⟨⟨ops, hdeed, -⟩, -, -⟩ := @handle_does K a c e
  generalize hqueue : (a.handle K c e).core.queue = queue at hdeed
  change (a.handle K c e).core.queue <:+ a.queue
  cases hdeed with
  | @gossip source messageId data =>
    rw [Actor.handle, gossip_closed hmode]
    exact List.suffix_rfl
  | @signed result =>
    rw [Actor.handle, signed_closed hmode]
    exact List.suffix_rfl
  | response =>
    rw [hqueue, turns_closed hmode]
    exact (List.append_nil a.queue).symm ▸ List.suffix_rfl
  | @took n => exact List.drop_suffix n a.queue
  | _ => rw [hqueue]

lemma closed_step (hmode : a.storageSafetyMode = true) : Closed K a e := by
  obtain ⟨c, e⟩ := e
  refine ⟨queue_closed (a := a.cleared) hmode e, fun sha256 blake3 fileSize fileName hsign => ?_,
    fun source messageId data he => ?_⟩
  · obtain ⟨signerFull, rfl⟩ := outbox_caused hsign
    have hrefused : a.step K (c, .command (.publishFile sha256 blake3 fileSize fileName) signerFull) =
        a.cleared.violation none "storage safety mode blocks new records" := if_pos hmode
    rw [hrefused] at hsign
    simp [Actor.violation, Actor.notify, Actor.emit, Actor.cleared] at hsign
  · obtain rfl : e = .gossip source messageId data := he
    change (a.cleared.validateGossip K source messageId data c).outbox = _
    rw [gossip_closed (a := a.cleared) hmode]
    rfl

/-- In every run: the safety mode is on exactly while an alarm stands, and while one does the signer
is sent nothing new, nothing is handed to the writer, and whoever gossips is turned away and
blocked. -/
theorem intake_stopped (K : Primitives) (a : Actor) (xs : List (Clock × Event))
    (e : Clock × Event) :
    ((run (Actor.step K) a xs).storageSafetyMode = true ↔ Alarmed a xs) ∧
      (Alarmed a xs → Closed K (run (Actor.step K) a xs) e) :=
  ⟨mode_run xs, fun h => closed_step ((mode_run xs).mpr h)⟩

def sampleFailure : List (Clock × Event) :=
  atOnce [.persisted (.failed Queries.zeroId (.database "disk I/O error") none) none]

theorem intake_stopped_sample :
    Closed samplePrimitives (run (Actor.step samplePrimitives) sampleNode sampleFailure)
      (.still 1 1, .gossip samplePeer Queries.zeroId []) :=
  (intake_stopped samplePrimitives sampleNode sampleFailure _).2
    (.inl ⟨[], _, [], rfl, .inl ⟨_, none, rfl, rfl⟩, nofun⟩)

end Protonet.SafetyIntake
