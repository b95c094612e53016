import Protonet.SyncTurns

namespace Protonet.Swarm
open Lru MachineInt StepRun DeadlineTable Postcard Record Replay RateLimit Address Connections
  Sync Worker

variable {K : Primitives} {a b : Actor} {c : Clock} {peer : PeerId}

/-- What handling an event does to the table of blocked peers and to the writer's queue. -/
inductive Deed (K : Primitives) (a : Actor) (c : Clock) :
    Event → List (Op PeerId) → List PersistRequest → Prop
  | quiet {e : Event} : Deed K a c e [] a.queue
  | asked {peer : PeerId} {endpoint : ConnectedPoint} {connection : ConnectionId} {n : ℕ} :
      Deed K a c (.connectionEstablished peer endpoint connection n)
        [.query peer (c.instant 0)] a.queue
  | unsupported {peer : PeerId} {protocolVersion : String}
      (h : supported protocolVersion = false) : Deed K a c (.identified peer protocolVersion)
        [.call ⟨peer, c.instant 0, MALFORMED_BLOCK⟩] a.queue
  | gossip {source : PeerId} {messageId : RecordId} {data : Bytes} {asked ops : List (Op PeerId)}
      {queue : List PersistRequest}
      (hasked : asked = [] ∨ asked = [.query source (c.instant 1)])
      (hops : OneBlock source (c.instant 2) ops)
      (hqueue : queue = a.queue ∨ (∀ d ∈ a.blocked.peek source, d ≤ c.instant 1) ∧
        ∃ record, queue = a.queue ++ [gossipRequest source messageId c record]) :
      Deed K a c (.gossip source messageId data) (asked ++ ops) queue
  | response {peer : PeerId} {id : RequestId} {response : SyncResponse} :
      Deed K a c (.syncResponse peer id response) (a.responseOps K peer id response c)
        (a.queue ++ (a.responseTurns K id response c).flatMap (SyncTurn.requests K c))
  | signed {result : Except String FlaggedFileRecord} {q : PersistRequest}
      (h : q.source = none) : Deed K a c (.signedRecord result) [] (a.queue ++ [q])
  | took {n : ℕ} : Deed K a c (.workerTook n) [] (a.queue.drop n)

def Actor.tracked (a : Actor) (c : Clock) : Event → ConnectionManager
  | .connectionEstablished peer endpoint connection numEstablished =>
    if a.admits peer endpoint connection numEstablished (c.instant 0) then
      a.connections.connected peer endpoint (c.instant 1)
    else a.connections
  | .connectionClosed peer _ => (a.connections.disconnected peer).2
  | .identified peer protocolVersion =>
    if supported protocolVersion then a.connections.setProtocol peer protocolVersion
    else a.connections
  | .pinged peer rtt => a.connections.setRtt peer rtt
  | _ => a.connections

def Actor.departed (a : Actor) : Event → List PeerId
  | .connectionClosed peer _ => if (a.connections.disconnected peer).1 then [peer] else []
  | _ => []

/-- The deed of an event, with the table and the connections it leaves and what it calls for. -/
structure Actor.Does (K : Primitives) (a : Actor) (c : Clock) (e : Event) (b : Core) : Prop where
  deed : ∃ ops, Deed K a c e ops b.queue ∧ b.blocked = run apply a.blocked ops ∧
    b.calls = blockCalls a.outbox ++ callsOf ops
  connections : b.connections = a.tracked c e
  gone : b.gone = departures a.outbox ++ a.departed e

lemma does_of {e : Event} {b : Core} {ops : List (Op PeerId)} (hdeed : Deed K a c e ops b.queue)
    (hb : b.blocked = run apply a.blocked ops) (hc : b.calls = blockCalls a.outbox ++ callsOf ops)
    (hm : b.connections = a.tracked c e) (hg : b.gone = departures a.outbox)
    (hd : a.departed e = []) : a.Does K c e b where
  deed := ⟨ops, hdeed, hb, hc⟩
  connections := hm
  gone := by rw [hg, hd, List.append_nil]

lemma does_quiet {e : Event} {b : Core} (hq : b.queue = a.queue) (hb : b.blocked = a.blocked)
    (hc : b.calls = blockCalls a.outbox) (hm : b.connections = a.tracked c e)
    (hg : b.gone = departures a.outbox) (hd : a.departed e = []) : a.Does K c e b :=
  @does_of K a c e b [] (hq ▸ .quiet) hb (by simpa [callsOf] using hc) hm hg hd

lemma handle_does (e : Event) : a.Does K c e (a.handle K c e).core := by
  cases e with
  | command command signerFull =>
    rw [Actor.handle, core_handleCommand]
    exact does_quiet rfl rfl rfl rfl rfl rfl
  | signedRecord result =>
    obtain ⟨queue, h, hq⟩ := @core_handleSignedRecord a c result
    rw [Actor.handle, h]
    rcases hq with rfl | ⟨record, now, -, rfl⟩
    · exact does_quiet rfl rfl rfl rfl rfl rfl
    · exact does_of (.signed rfl) rfl (by simp [callsOf, Actor.core]) rfl rfl rfl
  | persisted event publication =>
    obtain ⟨replay, reason, h⟩ := @core_handlePersisted K a c event publication
    rw [Actor.handle, h]
    exact does_quiet rfl rfl rfl rfl rfl rfl
  | connectionEstablished peer endpoint connection n =>
    obtain ⟨ops, hops, h⟩ := @core_connectionEstablished a c peer endpoint connection n
    rw [Actor.handle, h]
    rcases hops with rfl | rfl
    · rw [Core.blocking_nil]
      exact does_quiet rfl rfl rfl rfl rfl rfl
    · exact does_of .asked rfl rfl rfl rfl rfl
  | connectionClosed peer connection =>
    rw [Actor.handle, core_connectionClosed]
    exact ⟨⟨[], .quiet, rfl, by simp [callsOf, Actor.core]⟩, rfl, rfl⟩
  | incomingConnectionError connection error =>
    rw [Actor.handle, core_incomingConnectionError]
    exact does_quiet rfl rfl rfl rfl rfl rfl
  | incomingConnection connection sendBackAddr =>
    obtain ⟨attempts, denied, h⟩ := @core_incomingConnection a c connection sendBackAddr
    rw [Actor.handle, h]
    exact does_quiet rfl rfl rfl rfl rfl rfl
  | identified peer protocolVersion =>
    rw [Actor.handle, core_identified]
    rcases hs : supported protocolVersion with _ | _
    · exact does_of (.unsupported hs) rfl rfl (by simp [Actor.tracked, hs, Core.blocking, Actor.core])
        rfl rfl
    · exact does_quiet rfl rfl rfl (by simp [Actor.tracked, hs]) rfl rfl
  | pinged peer rtt => exact does_quiet rfl rfl rfl rfl rfl rfl
  | gossip source messageId data =>
    obtain ⟨asked, ops, replay, rateLimiter, queue, globalRecords, h, hasked, hops, hq⟩ :=
      @core_validateGossip K a c source messageId data
    rw [Actor.handle, h]
    exact does_of (.gossip hasked hops hq) rfl rfl rfl rfl rfl
  | syncRequest peer request channel =>
    obtain ⟨rateLimiter, h⟩ := @core_prepareSyncResponse a c peer request channel
    rw [Actor.handle, h]
    exact does_quiet rfl rfl rfl rfl rfl rfl
  | syncResponse peer id response =>
    obtain ⟨replay, rateLimiter, h⟩ := @core_handleSyncResponse K a c peer id response
    rw [Actor.handle, h]
    exact does_of .response rfl rfl rfl rfl rfl
  | outboundFailure peer id =>
    rw [Actor.handle, core_outboundFailure]
    exact does_quiet rfl rfl rfl rfl rfl rfl
  | inboundFailure peer =>
    rw [Actor.handle, core_violation]
    exact does_quiet rfl rfl rfl rfl rfl rfl
  | dbAction action =>
    obtain ⟨rateLimiter, mode, reason, h⟩ := @core_handleDbAction a c action
    rw [Actor.handle, h]
    exact does_quiet rfl rfl rfl rfl rfl rfl
  | snapshotTick =>
    rw [Actor.handle, core_snapshotTick]
    exact does_quiet rfl rfl rfl rfl rfl rfl
  | syncTick pick =>
    rw [Actor.handle, core_startBestSyncPeer]
    exact does_quiet rfl rfl rfl rfl rfl rfl
  | cleanupTick =>
    rw [Actor.handle, core_emit ⟨rfl, rfl⟩]
    exact does_quiet rfl rfl rfl rfl rfl rfl
  | workerTook n =>
    exact does_of .took rfl (by simp [callsOf, Actor.core, Actor.handle]) rfl rfl rfl
  | other => exact does_quiet rfl rfl rfl rfl rfl rfl

/-- Delivering the outbox changes nothing the connections depend on. -/
lemma cleared_tracked (e : Event) : a.cleared.tracked c e = a.tracked c e := by
  cases e with
  | connectionEstablished peer endpoint connection n =>
    have hadmits : a.cleared.admits peer endpoint connection n (c.instant 0) =
        a.admits peer endpoint connection n (c.instant 0) := by
      have hfst : (a.cleared.isBlocked peer (c.instant 0)).1 =
          (a.isBlocked peer (c.instant 0)).1 := by
        rw [Bool.eq_iff_iff, isBlocked_fst, isBlocked_fst]
        rfl
      unfold Actor.admits
      rw [hfst]
      rfl
    unfold Actor.tracked
    dsimp only
    rw [hadmits]
    rfl
  | _ => rfl

lemma step_tracked (e : Clock × Event) :
    (a.step K e).connections = a.tracked e.1 e.2 :=
  (@handle_does K a.cleared e.1 e.2).connections.trans (cleared_tracked e.2)

lemma step_departed (e : Clock × Event) : departures (a.step K e).outbox = a.departed e.2 := by
  have h : departures (a.step K e).outbox = [] ++ a.cleared.departed e.2 :=
    (@handle_does K a.cleared e.1 e.2).gone
  rw [h, List.nil_append]
  cases e.2 <;> rfl

end Protonet.Swarm
