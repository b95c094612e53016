import Protonet.Blocking
import Protonet.GossipTurns

namespace Protonet.GossipPenalty
open Lru MachineInt StepRun DeadlineTable Postcard Record Replay RateLimit Address Connections
  Sync Worker Swarm RecordIdentity Blocking

variable {K : Primitives} {a : Actor} {c : Clock} {p source : PeerId} {messageId : RecordId}
  {data : Bytes}

/-- What the peer gossips passes the validator, within the peer's record and byte budgets and the
ingestion budgets of its tracked address. -/
def Mannerly (K : Primitives) (p : PeerId) (a : Actor) (e : Clock × Event) : Prop :=
  match e.2 with
  | .gossip source _ data => source = p →
    (RecordValidator.default.validateBytes K data (e.1.unixMs 0)).isOk = true ∧
      (a.rateLimiter.allowGossip p data.length (e.1.instant 0)).1 = true ∧
      a.core.grants p (e.1.instant 0) = true
  | _ => True

instance (K : Primitives) (p : PeerId) (a : Actor) (e : Clock × Event) :
    Decidable (Mannerly K p a e) :=
  match e with
  | (c, event) => by
    apply Event.casesOn (motive := fun event => Decidable (Mannerly K p a (c, event))) event <;>
      intros <;> dsimp only [Mannerly] <;> infer_instance

/-- Handling a gossip message neither blocks the peer nor disconnects it. -/
def Tolerated (K : Primitives) (p : PeerId) (a : Actor) (e : Clock × Event) : Prop :=
  match e.2 with
  | .gossip _ _ _ => (∀ call ∈ blockCalls (a.step K e).outbox, call.key ≠ p) ∧
      .disconnectPeer p ∉ (a.step K e).outbox
  | _ => True

instance (K : Primitives) (p : PeerId) (a : Actor) (e : Clock × Event) :
    Decidable (Tolerated K p a e) :=
  match e with
  | (c, event) => by
    apply Event.casesOn (motive := fun event => Decidable (Tolerated K p a (c, event))) event <;>
      intros <;> dsimp only [Tolerated] <;> infer_instance

/-- The node takes gossip, the counter shared by all peers has room, and the peer has no deadline
ahead. -/
def Open (p : PeerId) (a : Actor) (e : Clock × Event) : Prop :=
  match e.2 with
  | .gossip source _ _ => source = p → a.storageSafetyMode = false ∧
      (a.globalRecords.take (e.1.instant 0)).1 = true ∧
      ∀ d ∈ a.blocked.peek p, d ≤ e.1.instant 1
  | _ => True

/-- Whatever a message leads to is laid at the door of its source. -/
lemma turn_others {effects : List Effect} {queue : List PersistRequest}
    (h : GossipTurn K a source messageId data c effects queue) (hne : source ≠ p) :
    (∀ call ∈ blockCalls effects, call.key ≠ p) ∧ .disconnectPeer p ∉ effects := by
  cases h with
  | refused h => simp [refusal, blockCalls, Effect.blockCall?, hne, Ne.symm hne]
  | @invalid error rest h hrest =>
    constructor
    · intro call hcall heq
      obtain ⟨e, he, hblock⟩ := List.mem_filterMap.mp hcall
      rcases List.mem_cons.mp he with rfl | he
      · cases hblock
      · have hpunish := hrest e he
        cases e with
        | block peer start duration =>
          obtain rfl := Option.some.inj hblock
          exact hne (hpunish.symm.trans heq)
        | _ => cases hblock
    · intro hmem
      rcases List.mem_cons.mp hmem with he | he
      · cases he
      · exact hne (hrest _ he).symm
  | ignored hopen h => simp [blockCalls, Effect.blockCall?]
  | tooOld hopen h => simp [blockCalls, Effect.blockCall?]
  | denied h hgrants => simp [blockCalls, Effect.blockCall?, hne]
  | queued hopen h => simp [blockCalls]

/-- A valid message within the budgets of its source is punished exactly when it is refused. -/
lemma turn_source {effects : List Effect} {queue : List PersistRequest}
    (h : GossipTurn K a source messageId data c effects queue)
    (hvalid : (RecordValidator.default.validateBytes K data (c.unixMs 0)).isOk = true)
    (hgrants : a.core.grants source (c.instant 0) = true) :
    ((∀ call ∈ blockCalls effects, call.key ≠ source) ∧ .disconnectPeer source ∉ effects) ↔
      ¬ a.refusesGossip source data.length c := by
  cases h with
  | refused h => simp [refusal, h]
  | invalid h hrest =>
    rw [h] at hvalid
    cases hvalid
  | ignored hopen h => simp [blockCalls, Effect.blockCall?, hopen]
  | tooOld hopen h => simp [blockCalls, Effect.blockCall?, hopen]
  | denied h hdenied =>
    rw [hgrants] at hdenied
    cases hdenied
  | queued hopen h => simp [blockCalls, hopen]

lemma tolerated_iff {e : Clock × Event} (h : Mannerly K p a e) :
    Tolerated K p a e ↔ Open p a e := by
  obtain ⟨c, e⟩ := e
  cases e with
  | gossip source messageId data =>
    obtain ⟨effects, hout, hturn⟩ := @validateGossip_turn K a.cleared c source messageId data
    have hstep : (a.step K (c, .gossip source messageId data)).outbox = effects := hout
    unfold Tolerated Open
    dsimp only
    rw [hstep]
    by_cases hsource : source = p
    · obtain ⟨hvalid, hbudget, hgrants⟩ := h hsource
      subst hsource
      have hrefused : a.cleared.refusesGossip source data.length c ↔
          a.storageSafetyMode = true ∨ (∃ d ∈ a.blocked.peek source, c.instant 1 < d) ∨
            (a.globalRecords.take (c.instant 0)).1 = false := by
        have hlimiter : (a.cleared.rateLimiter.allowGossip source data.length (c.instant 0)).1 =
          true := hbudget
        unfold Actor.refusesGossip
        rw [hlimiter, Bool.true_eq_false, false_or]
        rfl
      rw [turn_source hturn hvalid hgrants, hrefused]
      simp only [not_or, Bool.not_eq_true, Bool.not_eq_false, not_exists, not_and, not_lt,
        true_implies]
      tauto
    · exact iff_of_true (turn_others hturn hsource) fun heq => absurd heq hsource
  | _ => exact iff_of_true trivial trivial

/-- In every run, a peer whose gossip is valid and within its own budgets is neither blocked nor
disconnected on the gossip path exactly when each of its messages meets a node out of its safety
mode, with room in the shared counter and no block of the peer in force. -/
theorem gossip_tolerated_iff {K : Primitives} {p : PeerId} {a : Actor}
    {es : List (Clock × Event)} (h : Along (Actor.step K) (Mannerly K p) a es) :
    Along (Actor.step K) (Tolerated K p) a es ↔ Along (Actor.step K) (Open p) a es :=
  along_congr_of h fun _ _ => tolerated_iff

/-- The sample peer connects and gossips the sample record after the given events. -/
def gossipAfter (events : List Event) : List (Clock × Event) :=
  atOnce (.connectionEstablished samplePeer (.listener [.ip4 ⟨1, 2, 3, 4⟩, .tcp 4001]) 1 1 ::
    events ++ [.gossip samplePeer (sampleRecord 1 1 1 0 1000).recordId
      (sampleRecord 1 1 1 0 1000).encode])

theorem idle_node_tolerates :
    Along (Actor.step samplePrimitives) (Tolerated samplePrimitives samplePeer) sampleNode
        (gossipAfter []) ↔
      Along (Actor.step samplePrimitives) (Open samplePeer) sampleNode (gossipAfter []) :=
  gossip_tolerated_iff (by decide +kernel)

/-- Maintenance finds the disk short of space; the next valid message costs its sender a block
and the connection. -/
theorem full_disk_punishes :
    Along (Actor.step samplePrimitives) (Mannerly samplePrimitives samplePeer) sampleNode
        (gossipAfter [.dbAction (.maintenance false (some "free disk reserve reached"))]) ∧
      ¬ Along (Actor.step samplePrimitives) (Tolerated samplePrimitives samplePeer) sampleNode
        (gossipAfter [.dbAction (.maintenance false (some "free disk reserve reached"))]) :=
  ⟨by decide +kernel, by decide +kernel⟩

end Protonet.GossipPenalty
