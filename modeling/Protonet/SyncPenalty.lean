import Protonet.Blocking

namespace Protonet.SyncPenalty
open Lru MachineInt StepRun DeadlineTable Postcard Record Replay RateLimit Address Connections
  Sync Worker Swarm RecordIdentity Blocking

variable {K : Primitives} {a : Actor} {c : Clock} {p peer : PeerId}

/-- The peer sends no gossip and no unsupported version, and its answers come from a tracked
address and are within bounds. Answers come from the peer that was asked. -/
def Honest (p : PeerId) (a : Actor) (e : Clock × Event) : Prop :=
  match e.2 with
  | .gossip source _ _ => source ≠ p
  | .identified peer protocolVersion => peer = p → supported protocolVersion = true
  | .syncResponse peer id response =>
    (∀ pending ∈ a.pendingSync.lookup id, pending.peer = peer) ∧
      (peer = p → response.validateBounds = .ok () ∧ (a.connections.sourceKeys p).isSome)
  | _ => True

instance (p : PeerId) (a : Actor) (e : Clock × Event) : Decidable (Honest p a e) :=
  match e with
  | (c, event) => by
    apply Event.casesOn (motive := fun event => Decidable (Honest p a (c, event))) event <;>
      intros <;> dsimp only [Honest] <;> infer_instance

/-- The step does not put the peer into the table of blocked peers. -/
def Spared (K : Primitives) (p : PeerId) (a : Actor) (e : Clock × Event) : Prop :=
  ∀ call ∈ blockCalls (a.step K e).outbox, call.key ≠ p

instance (K : Primitives) (p : PeerId) (a : Actor) (e : Clock × Event) :
    Decidable (Spared K p a e) := by
  unfold Spared
  infer_instance

/-- Both buckets of the source address hold a token. -/
def HasToken (k : Core) (p : PeerId) (now : ℕ) : Prop :=
  ∀ keys ∈ k.connections.sourceKeys p,
    1 ≤ (k.rateLimiter.ipBucket keys.1 now).refilled k.rateLimiter.arithmetic now ∧
      1 ≤ (k.rateLimiter.prefixBucket keys.2 now).refilled k.rateLimiter.arithmetic now

/-- Every record of the peer's answer that is new when its turn comes finds a token. -/
def TokensLast (K : Primitives) (p : PeerId) (a : Actor) (e : Clock × Event) : Prop :=
  match e.2 with
  | .syncResponse _ id response => ∀ t ∈ a.cleared.responseTurns K id response e.1,
      t.peer = p → t.isNew K e.1 = true → HasToken t.core p (t.now e.1)
  | _ => True

lemma grants_iff {k : Core} {now : ℕ} (h : (k.connections.sourceKeys p).isSome) :
    k.grants p now = true ↔ HasToken k p now := by
  obtain ⟨⟨ip, q⟩, hkeys⟩ := Option.isSome_iff_exists.mp h
  unfold Core.grants HasToken
  rw [hkeys]
  simp [RateLimiter.allowIngestionSource_fst]

lemma mem_callsOf_turns {turns : List SyncTurn} {call : Call PeerId} :
    call ∈ callsOf (turns.flatMap (SyncTurn.ops K c)) ↔
      ∃ t ∈ turns, t.denied K c = true ∧ call = ⟨t.peer, t.blockedAt c, MINOR_BLOCK⟩ := by
  unfold callsOf SyncTurn.ops
  constructor
  · intro h
    obtain ⟨op, hop, hcall⟩ := List.mem_filterMap.mp h
    obtain ⟨t, ht, hmem⟩ := List.mem_flatMap.mp hop
    split_ifs at hmem with hdenied
    · obtain rfl := List.mem_singleton.mp hmem
      exact ⟨t, ht, hdenied, (Option.some.inj hcall).symm⟩
    · simp at hmem
  · rintro ⟨t, ht, hdenied, rfl⟩
    exact List.mem_filterMap.mpr ⟨.call ⟨t.peer, t.blockedAt c, MINOR_BLOCK⟩,
      List.mem_flatMap.mpr ⟨t, ht, by simp [hdenied]⟩, rfl⟩

lemma responseTurns_connections {id : RequestId} {response : SyncResponse} {t : SyncTurn}
    (h : t ∈ a.responseTurns K id response c) : t.core.connections = a.connections := by
  unfold Actor.responseTurns at h
  split at h
  · split_ifs at h
    · simp at h
    · rw [(mem_syncTurns h).2.2]
      exact congrArg Core.connections (core_settled id)
  · simp at h

lemma responseTurns_oversized {id : RequestId} {response : SyncResponse}
    (h : a.oversized id response = true) : a.responseTurns K id response c = [] := by
  unfold Actor.responseTurns
  split
  · simp [h]
  · rfl

lemma spared_response {id : RequestId} {response : SyncResponse}
    (hpeer : ∀ pending ∈ a.pendingSync.lookup id, pending.peer = peer)
    (hok : peer = p → response.validateBounds = .ok () ∧ (a.connections.sourceKeys p).isSome) :
    (∀ call ∈ callsOf (a.responseOps K peer id response c), call.key ≠ p) ↔
      ∀ t ∈ a.responseTurns K id response c, t.peer = p → t.isNew K c = true →
        HasToken t.core p (t.now c) := by
  unfold Actor.responseOps
  by_cases hover : a.oversized id response = true
  · have hne : peer ≠ p := by
      intro heq
      simp [Actor.oversized, (hok heq).1] at hover
    rw [if_pos hover, responseTurns_oversized hover]
    simp [callsOf, Op.call?, hne]
  · rw [if_neg hover]
    have hkeys : ∀ t ∈ a.responseTurns K id response c, t.peer = p →
        (t.core.connections.sourceKeys p).isSome := by
      intro t ht htp
      rw [responseTurns_connections ht]
      exact (hok ((hpeer _ (responseTurns_peer ht)).symm.trans htp)).2
    constructor
    · intro h t ht htp hnew
      by_contra htoken
      have hgrants : t.core.grants t.peer (t.now c) = false := by
        rw [htp, ← Bool.not_eq_true, grants_iff (hkeys t ht htp)]
        exact htoken
      exact h _ (mem_callsOf_turns.mpr ⟨t, ht, by simp [SyncTurn.denied, hnew, hgrants], rfl⟩) htp
    · intro h call hcall htp
      obtain ⟨t, ht, hdenied, rfl⟩ := mem_callsOf_turns.mp hcall
      obtain ⟨hnew, hrefused⟩ := Bool.and_eq_true_iff.mp hdenied
      have hgrants := (grants_iff (hkeys t ht htp)).mpr (h t ht htp hnew)
      rw [← (show t.peer = p from htp)] at hgrants
      simp [hgrants] at hrefused

lemma spared_of_deed {e : Event} {ops : List (Op PeerId)} {queue : List PersistRequest}
    (hdeed : Deed K a.cleared c e ops queue) (h : Honest p a (c, e))
    (he : ∀ peer id response, e ≠ .syncResponse peer id response) :
    ∀ call ∈ callsOf ops, call.key ≠ p := by
  cases hdeed with
  | quiet => simp [callsOf]
  | asked => simp [callsOf, Op.call?]
  | @unsupported peer protocolVersion hs =>
    have hne : peer ≠ p := by
      intro heq
      rw [h heq] at hs
      cases hs
    simp [callsOf, Op.call?, hne]
  | @gossip source _ _ asked ops _ hasked hops hqueue =>
    have hne : source ≠ p := h
    rcases hasked with rfl | rfl <;> rcases hops with rfl | ⟨d, -, rfl⟩ <;>
      simp [callsOf, Op.call?, hne]
  | response => exact absurd rfl (he _ _ _)
  | signed _ => simp [callsOf]
  | took => simp [callsOf]

/-- Only an answer can cost an honest peer a block, and only for want of a token. -/
lemma spared_iff {e : Clock × Event} (h : Honest p a e) : Spared K p a e ↔ TokensLast K p a e := by
  obtain ⟨c, e⟩ := e
  obtain ⟨ops, hdeed, -, hcalls⟩ := (@handle_does K a.cleared c e).deed
  have hcalls' : blockCalls (a.step K (c, e)).outbox = callsOf ops := hcalls
  cases e with
  | syncResponse peer id response =>
    obtain ⟨replay, rateLimiter, hcore⟩ :=
      @core_handleSyncResponse K a.cleared c peer id response
    have hout : blockCalls (a.step K (c, .syncResponse peer id response)).outbox =
        callsOf (a.cleared.responseOps K peer id response c) := congrArg Core.calls hcore
    unfold Spared
    rw [hout]
    exact spared_response (a := a.cleared) h.1 h.2
  | _ =>
    refine ⟨fun _ => trivial, fun _ call hcall => ?_⟩
    exact spared_of_deed hdeed h (fun _ _ _ => Event.noConfusion) call (hcalls' ▸ hcall)

/-- In every run, a peer that only ever answers our requests is never blocked exactly when every
new record of its answers finds a token in both buckets at its turn. -/
theorem answers_spared_iff {K : Primitives} {p : PeerId} {a : Actor} {es : List (Clock × Event)}
    (h : Along (Actor.step K) (Honest p) a es) :
    Along (Actor.step K) (Spared K p) a es ↔ Along (Actor.step K) (TokensLast K p) a es :=
  along_congr_of h fun _ _ => spared_iff

def sampleRecords (n : ℕ) : List FlaggedFileRecord :=
  (List.range n).map fun i => sampleRecord 1 (UInt64.ofNat (i + 1)) 1 0 1000

/-- A session with the sample peer, and its answer to our request for records. -/
def sampleAnswer (n : ℕ) : List (Clock × Event) :=
  atOnce (sampleSession ((sampleRecords n).map FlaggedFileRecord.recordId) ++
    [.syncResponse samplePeer 2 (.records (sampleRecords n))])

theorem one_record_spared :
    Along (Actor.step samplePrimitives) (Spared samplePrimitives samplePeer) sampleNode
        (sampleAnswer 1) ↔
      Along (Actor.step samplePrimitives) (TokensLast samplePrimitives samplePeer) sampleNode
        (sampleAnswer 1) :=
  answers_spared_iff (by decide +kernel)

/-- Sixty-one records that were asked for, all valid, sent at once: the last one finds no token. -/
theorem full_answer_punished : (sampleRecords 61).length ≤ MAX_REQUESTED_RECORDS ∧
    (∀ r ∈ sampleRecords 61,
      RecordValidator.default.validate samplePrimitives r 0 = .ok ()) ∧
    Along (Actor.step samplePrimitives) (Honest samplePeer) sampleNode (sampleAnswer 61) ∧
    ¬ Along (Actor.step samplePrimitives) (Spared samplePrimitives samplePeer) sampleNode
        (sampleAnswer 61) := by
  refine ⟨by decide, fun r hr => ?_, by decide +kernel, by decide +kernel⟩
  obtain ⟨i, -, rfl⟩ := List.mem_map.mp hr
  exact sampleRecord_valid (by decide) (by decide) (by decide) (by decide)

end Protonet.SyncPenalty
