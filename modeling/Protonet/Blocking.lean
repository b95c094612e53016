import Protonet.RecordIdentity
import Protonet.SwarmDeeds

namespace Protonet.Blocking
open Lru MachineInt StepRun DeadlineTable Postcard Record Replay RateLimit Address Connections
  Sync Worker Swarm RecordIdentity

variable {K : Primitives} {a : Actor} {c : Clock} {peer : PeerId}

def enqueued (K : Primitives) (a : Actor) (e : Clock × Event) : List PersistRequest :=
  (a.step K e).queue.drop a.queue.length

/-- No request of a step comes from a peer whose deadline in the table is still ahead. -/
def Enforced (K : Primitives) (a : Actor) (e : Clock × Event) : Prop :=
  ∀ q ∈ enqueued K a e, ∀ p ∈ q.source, ∀ d ∈ a.blocked.peek p, d ≤ q.receivedAt

/-- The first new record of an answer to a record request is not one that could be enqueued while
its peer is blocked. -/
def AnsweredUnblocked (K : Primitives) (a : Actor) (e : Clock × Event) : Prop :=
  match e.2 with
  | .syncResponse _ id response =>
    ∀ t ∈ (a.cleared.responseTurns K id response e.1).find? (SyncTurn.isNew K e.1),
      t.core.grants t.peer (t.now e.1) = true → t.core.hasRoom = true →
        ∀ d ∈ a.blocked.peek t.peer, d ≤ t.now e.1
  | _ => True

/-- The loop gets past a new record only by enqueueing it, so its first one decides. -/
lemma enqueues_iff_first {i D : ℕ} {records : List FlaggedFileRecord} :
    (∀ t ∈ a.syncTurns K peer c i records, t.enqueues K c = true → D ≤ t.now c) ↔
      ∀ t ∈ (a.syncTurns K peer c i records).find? (SyncTurn.isNew K c),
        t.core.grants t.peer (t.now c) = true → t.core.hasRoom = true → D ≤ t.now c := by
  constructor
  · intro h t ht hg hr
    have hnew : t.isNew K c = true := List.find?_some ht
    exact h t (List.mem_of_find?_eq_some ht) (by simp [SyncTurn.enqueues, hnew, hg, hr])
  · intro h
    induction records generalizing a i with
    | nil => simp [Actor.syncTurns]
    | cons record records ih =>
      intro t ht henq
      obtain ⟨head, hhead⟩ : ∃ head : SyncTurn, head = ⟨peer, i, record, a.core⟩ := ⟨_, rfl⟩
      rw [Actor.syncTurns, ← hhead] at h ht
      rcases hnew : head.isNew K c with _ | _
      · rw [List.find?_cons_of_neg (by simp [hnew])] at h
        rcases List.mem_cons.mp ht with rfl | ht
        · simp [SyncTurn.enqueues, hnew] at henq
        · rcases hr : a.acceptSyncRecord K peer record (c.instant (2 * i + 1))
            (c.instant (2 * i + 2)) (c.unixMs i) with ⟨_ | _, b⟩
          · rw [hr] at ht
            simp at ht
          · rw [hr] at h ht
            exact ih h t ht henq
      · rw [List.find?_cons_of_pos hnew] at h
        rcases List.mem_cons.mp ht with rfl | ht
        · obtain ⟨hng, hroom⟩ := Bool.and_eq_true_iff.mp henq
          obtain ⟨-, hgrants⟩ := Bool.and_eq_true_iff.mp hng
          exact h t rfl hgrants hroom
        · obtain ⟨replay, rateLimiter, -, hfst⟩ := @acceptSyncRecord_new K a peer record
            (c.instant (2 * i + 1)) (c.instant (2 * i + 2)) (c.unixMs i) (by rwa [hhead] at hnew)
          rcases hr : a.acceptSyncRecord K peer record (c.instant (2 * i + 1))
            (c.instant (2 * i + 2)) (c.unixMs i) with ⟨_ | _, b⟩
          · rw [hr] at ht
            simp at ht
          · rw [hr] at hfst ht
            obtain ⟨hgrants, hroom⟩ := Bool.and_eq_true_iff.mp hfst.symm
            have hD : D ≤ head.now c := by
              rw [hhead] at h ⊢
              exact h _ rfl hgrants hroom
            refine hD.trans (c.monotone ?_)
            have := (mem_syncTurns ht).1.2
            rw [hhead]
            dsimp only
            omega

lemma responseTurns_peer {id : RequestId} {response : SyncResponse} {t : SyncTurn}
    (h : t ∈ a.responseTurns K id response c) :
    a.pendingSync.lookup id = some (.records t.peer) := by
  unfold Actor.responseTurns at h
  split at h
  · next p records hp =>
    split_ifs at h
    · simp at h
    · rw [(mem_syncTurns h).1.1]
      exact hp
  · simp at h

lemma enqueues_iff_first_of_response {id : RequestId} {response : SyncResponse}
    {blocked : LruCache PeerId ℕ} :
    (∀ t ∈ a.responseTurns K id response c, t.enqueues K c = true →
        ∀ d ∈ blocked.peek t.peer, d ≤ t.now c) ↔
      ∀ t ∈ (a.responseTurns K id response c).find? (SyncTurn.isNew K c),
        t.core.grants t.peer (t.now c) = true → t.core.hasRoom = true →
          ∀ d ∈ blocked.peek t.peer, d ≤ t.now c := by
  unfold Actor.responseTurns
  split
  · next p records hp =>
    split_ifs
    · simp
    · constructor
      · intro h t ht hg hr d hd
        have hmem := List.mem_of_find?_eq_some ht
        have hpeer := (mem_syncTurns hmem).1.1
        refine enqueues_iff_first.mp (fun s hs henq => h s hs henq d ?_) t ht hg hr
        rwa [(mem_syncTurns hs).1.1, ← hpeer]
      · intro h t ht henq d hd
        have hpeer := (mem_syncTurns ht).1.1
        refine enqueues_iff_first.mpr (fun s hs hg hr => h s hs hg hr d ?_) t ht henq
        rwa [(mem_syncTurns (List.mem_of_find?_eq_some hs)).1.1, ← hpeer]
  · simp

/-- Every event but a response asks before it enqueues for a peer. -/
lemma enforced_of_deed {e : Event} {ops : List (Op PeerId)} {queue : List PersistRequest}
    (h : Deed K a c e ops queue) (he : ∀ peer id response, e ≠ .syncResponse peer id response) :
    ∀ q ∈ queue.drop a.queue.length, ∀ p ∈ q.source, ∀ d ∈ a.blocked.peek p, d ≤ q.receivedAt := by
  intro q hq p hp d hd
  cases h with
  | quiet => simp at hq
  | asked => simp at hq
  | unsupported h => simp at hq
  | gossip hasked hops hqueue =>
    rcases hqueue with rfl | ⟨hopen, record, rfl⟩
    · simp at hq
    · rw [List.drop_left, List.mem_singleton] at hq
      subst hq
      obtain rfl := Option.mem_some_iff.mp hp
      exact (hopen d hd).trans (c.monotone (by omega))
  | response => exact absurd rfl (he _ _ _)
  | signed h =>
    rw [List.drop_left, List.mem_singleton] at hq
    subst hq
    simp [h] at hp
  | took =>
    rw [List.drop_drop, List.drop_eq_nil_of_le (Nat.le_add_left _ _)] at hq
    simp at hq

lemma enforced_iff (a : Actor) (e : Clock × Event) :
    Enforced K a e ↔ AnsweredUnblocked K a e := by
  obtain ⟨c, e⟩ := e
  obtain ⟨ops, hdeed, -, -⟩ := (@handle_does K a.cleared c e).deed
  cases e with
  | syncResponse peer id response =>
    obtain ⟨replay, rateLimiter, h⟩ := @core_handleSyncResponse K a.cleared c peer id response
    have hqueue : enqueued K a (c, .syncResponse peer id response) =
        (a.cleared.responseTurns K id response c).flatMap (SyncTurn.requests K c) := by
      have hq : (a.step K (c, .syncResponse peer id response)).queue = a.queue ++
          (a.cleared.responseTurns K id response c).flatMap (SyncTurn.requests K c) :=
        congrArg Core.queue h
      rw [enqueued, hq, List.drop_left]
    unfold Enforced AnsweredUnblocked
    rw [hqueue]
    refine Iff.trans ?_ enqueues_iff_first_of_response
    constructor
    · intro hall t ht henq
      exact hall ⟨t.record, some t.peer, t.now c, none⟩
        (List.mem_flatMap.mpr ⟨t, ht, by simp [SyncTurn.requests, henq]⟩) t.peer rfl
    · intro hall q hq p hp
      obtain ⟨t, ht, hmem⟩ := List.mem_flatMap.mp hq
      unfold SyncTurn.requests at hmem
      split_ifs at hmem with henq
      · obtain rfl := List.mem_singleton.mp hmem
        obtain rfl := Option.mem_some_iff.mp hp
        exact hall t ht henq
      · simp at hmem
  | _ =>
    exact ⟨fun _ => trivial, fun _ => @enforced_of_deed K a.cleared c _ ops _ hdeed
      fun _ _ _ => Event.noConfusion⟩

/-- In every run, no request of a blocked peer is enqueued exactly when no answer to a record
request is taken from a peer that is blocked by then. -/
theorem blocks_enforced_iff (K : Primitives) (a : Actor) (es : List (Clock × Event)) :
    Along (Actor.step K) (Enforced K) a es ↔ Along (Actor.step K) (AnsweredUnblocked K) a es :=
  along_congr enforced_iff

def sampleNode : Actor := .start ⟨[1]⟩ .default false none 0

def samplePeer : PeerId := ⟨[7]⟩

def atOnce (events : List Event) : List (Clock × Event) := events.map fun e => (.still 0 0, e)

/-- A session with the sample peer up to our request for its records. -/
def sampleSession (ids : List RecordId) : List Event :=
  [.connectionEstablished samplePeer (.listener [.ip4 ⟨1, 2, 3, 4⟩, .tcp 4001]) 1 1,
    .syncResponse samplePeer 0 (.inventory .default),
    .dbAction (.inventoryCompared samplePeer 0 [0]),
    .syncResponse samplePeer 1 (.recordIds ids none),
    .dbAction (.idsCompared samplePeer 1 0 ids none)]

/-- The peer is blocked for an unsupported protocol version; its answer is taken all the same. -/
theorem blocked_answer_enqueued : ¬ Along (Actor.step samplePrimitives) (Enforced samplePrimitives)
    sampleNode (atOnce (sampleSession [(sampleRecord 1 1 1 0 1000).recordId] ++
      [.identified samplePeer "/other/1.0.0",
        .syncResponse samplePeer 2 (.records [sampleRecord 1 1 1 0 1000])])) := by
  intro h
  have hlast := along_iff.mp h (atOnce (sampleSession [(sampleRecord 1 1 1 0 1000).recordId] ++
    [.identified samplePeer "/other/1.0.0"])) _ [] rfl
  have hle : MALFORMED_BLOCK ≤ 0 :=
    hlast ⟨sampleRecord 1 1 1 0 1000, some samplePeer, 0, none⟩ (by decide +kernel) samplePeer rfl
      MALFORMED_BLOCK (by decide +kernel)
  exact absurd hle (by decide)

def Timeline : ℕ → List (Clock × Event) → Prop
  | _, [] => True
  | now, e :: es => now ≤ e.1.instant 0 ∧ Timeline e.1.finish es

def endOf : ℕ → List (Clock × Event) → ℕ
  | now, [] => now
  | _, e :: es => endOf e.1.finish es

def calledAlong (K : Primitives) : Actor → List (Clock × Event) → List (Call PeerId)
  | _, [] => []
  | a, e :: es => blockCalls (a.step K e).outbox ++ calledAlong K (a.step K e) es

/-- The step calls for no block that would end before one the table holds for the same peer. -/
def KeepsBlocks (K : Primitives) (a : Actor) (e : Clock × Event) : Prop :=
  match e.2 with
  | .gossip source _ _ => ∀ d ∈ a.blocked.peek source, d ≤ e.1.instant 2 + MINOR_BLOCK
  | .identified peer protocolVersion => supported protocolVersion = false →
      ∀ d ∈ a.blocked.peek peer, d ≤ e.1.instant 0 + MALFORMED_BLOCK
  | .syncResponse peer id response =>
    (a.oversized id response = true →
      ∀ d ∈ a.blocked.peek peer, d ≤ e.1.instant 0 + MALFORMED_BLOCK) ∧
    ∀ t ∈ a.cleared.responseTurns K id response e.1, t.denied K e.1 = true →
      ∀ d ∈ a.blocked.peek t.peer, d ≤ t.blockedAt e.1 + MINOR_BLOCK
  | _ => True

lemma responseOps_timed (id : RequestId) (response : SyncResponse) :
    Timed (c.instant 0) (a.responseOps K peer id response c) c.finish := by
  unfold Actor.responseOps
  split_ifs
  · exact ⟨le_rfl, c.le_finish _⟩
  · unfold Actor.responseTurns
    split
    · split_ifs
      · exact c.le_finish _
      · exact (timed_syncTurns 0 _).weaken (c.monotone (by omega))
    · exact c.le_finish _

lemma timed_of_deed {e : Event} {ops : List (Op PeerId)} {queue : List PersistRequest}
    (h : Deed K a c e ops queue) : Timed (c.instant 0) ops c.finish := by
  cases h with
  | quiet => exact c.le_finish _
  | asked => exact ⟨le_rfl, c.le_finish _⟩
  | unsupported h => exact ⟨le_rfl, c.le_finish _⟩
  | @gossip source _ _ asked ops _ hasked hops hqueue =>
    have h01 : c.instant 0 ≤ c.instant 1 := c.monotone (by omega)
    have h12 : c.instant 1 ≤ c.instant 2 := c.monotone (by omega)
    have hlate : Timed (c.instant 1) ops c.finish := by
      rcases hops with rfl | ⟨d, -, rfl⟩
      · exact c.le_finish _
      · exact ⟨h12, c.le_finish _⟩
    rcases hasked with rfl | rfl
    · exact hlate.weaken h01
    · exact ⟨h01, hlate⟩
  | response => exact responseOps_timed ..
  | signed h => exact c.le_finish _
  | took => exact c.le_finish _

lemma fits_responseOps {id : RequestId} {response : SyncResponse}
    (hover : a.oversized id response = true →
      ∀ d ∈ a.blocked.peek peer, d ≤ c.instant 0 + MALFORMED_BLOCK)
    (hturns : ∀ t ∈ a.responseTurns K id response c, t.denied K c = true →
      ∀ d ∈ a.blocked.peek t.peer, d ≤ t.blockedAt c + MINOR_BLOCK) :
    Along apply Fits a.blocked (a.responseOps K peer id response c) := by
  unfold Actor.responseOps
  split_ifs with h
  · refine ⟨fun call hcall => ?_, along_nil⟩
    obtain rfl := Option.mem_some_iff.mp hcall
    exact hover h
  · unfold Actor.responseTurns at hturns ⊢
    split
    · next p records hp =>
      rw [hp] at hturns
      dsimp only at hturns
      split_ifs
      · exact along_nil
      · next hs =>
        rw [if_neg hs] at hturns
        have hblocked : (a.settled p id).blocked = a.blocked :=
          congrArg Core.blocked (core_settled id)
        rw [← hblocked]
        refine fits_syncTurns fun t ht hdenied d hd => ?_
        refine hturns t ht hdenied d ?_
        rwa [(mem_syncTurns ht).1.1, ← hblocked]
    · exact along_nil

lemma fits_of_deed {e : Event} {ops : List (Op PeerId)} {queue : List PersistRequest}
    (h : Deed K a.cleared c e ops queue) (hkeep : KeepsBlocks K a (c, e)) :
    Along apply Fits a.blocked ops := by
  cases h with
  | quiet => exact along_nil
  | asked => exact ⟨nofun, along_nil⟩
  | unsupported h =>
    refine ⟨fun call hcall => ?_, along_nil⟩
    obtain rfl := Option.mem_some_iff.mp hcall
    exact hkeep h
  | @gossip source _ _ asked ops _ hasked hops hqueue =>
    have hone : ∀ table : LruCache PeerId ℕ, (∀ d ∈ table.peek source, d ∈ a.blocked.peek source) →
        Along apply Fits table ops := by
      intro table hsub
      rcases hops with rfl | ⟨duration, hd, rfl⟩
      · exact along_nil
      · refine ⟨fun call hcall d hmem => ?_, along_nil⟩
        obtain rfl := Option.mem_some_iff.mp hcall
        exact (hkeep d (hsub d hmem)).trans (Nat.add_le_add_left hd _)
    rcases hasked with rfl | rfl
    · exact hone a.blocked fun _ h => h
    · refine ⟨nofun, hone _ fun d hd => ?_⟩
      rw [apply, peek_queried, if_pos rfl] at hd
      exact (Option.mem_filter_iff.mp hd).1
  | response => exact fits_responseOps (a := a.cleared) hkeep.1 hkeep.2
  | signed h => exact along_nil
  | took => exact along_nil

lemma standing_step {keys : Finset PeerId} {calls : List (Call PeerId)} {now : ℕ}
    {e : Clock × Event} (h : Standing a.blocked keys calls now) (hnow : now ≤ e.1.instant 0)
    (hkeys : ∀ call ∈ blockCalls (a.step K e).outbox, call.key ∈ keys)
    (hkeep : KeepsBlocks K a e) :
    Standing (a.step K e).blocked keys (calls ++ blockCalls (a.step K e).outbox) e.1.finish := by
  obtain ⟨ops, hdeed, hblocked, hcalls⟩ := (@handle_does K a.cleared e.1 e.2).deed
  have hcalls' : blockCalls (a.step K e).outbox = callsOf ops := hcalls
  have hblocked' : (a.step K e).blocked = run apply a.blocked ops := hblocked
  rw [hcalls'] at hkeys ⊢
  rw [hblocked']
  exact h.run ((timed_of_deed hdeed).weaken hnow) hkeys (fits_of_deed hdeed hkeep)

lemma standing_run {keys : Finset PeerId} {calls : List (Call PeerId)} {now : ℕ}
    {es : List (Clock × Event)} (h : Standing a.blocked keys calls now) (htime : Timeline now es)
    (hkeys : ∀ call ∈ calledAlong K a es, call.key ∈ keys)
    (hkeep : Along (Actor.step K) (KeepsBlocks K) a es) :
    Standing (run (Actor.step K) a es).blocked keys (calls ++ calledAlong K a es)
      (endOf now es) := by
  induction es generalizing a calls now with
  | nil => simpa [calledAlong, endOf] using h
  | cons e es ih =>
    have hstep := standing_step h htime.1
      (fun call hc => hkeys call (List.mem_append_left _ hc)) hkeep.1
    have hrun := ih hstep htime.2 (fun call hc => hkeys call (List.mem_append_right _ hc)) hkeep.2
    rwa [List.append_assoc] at hrun

/-- In a run whose clock never goes back and that blocks no more peers than the table can hold,
where no step calls for a block that ends before one in force, every block lasts as long as it
was called for. -/
theorem block_lasts {K : Primitives} {a : Actor} {now : ℕ} {es : List (Clock × Event)}
    (hfresh : a.blocked = .new MAX_BLOCKED_PEERS (by decide)) (htime : Timeline now es)
    (hfew : ((calledAlong K a es).map Call.key).toFinset.card ≤ MAX_BLOCKED_PEERS)
    (hkeep : Along (Actor.step K) (KeepsBlocks K) a es) :
    ∀ call ∈ calledAlong K a es, ∀ t, endOf now es ≤ t → t < call.deadline →
      ((run (Actor.step K) a es).isBlocked call.key t).1 = true := by
  intro call hcall t hend ht
  have hstart : Standing a.blocked ((calledAlong K a es).map Call.key).toFinset [] now := by
    rw [hfresh]
    exact standing_new _ hfew
  have hkeys : ∀ call ∈ calledAlong K a es,
      call.key ∈ ((calledAlong K a es).map Call.key).toFinset :=
    fun call hc => List.mem_toFinset.mpr (List.mem_map_of_mem hc)
  exact isBlocked_fst _ t |>.mpr ((standing_run hstart htime hkeys hkeep).live hcall hend ht)

/-- A peer that shows an unsupported version, and what it does a second later. -/
def versionThen (event : Event) : List (Clock × Event) :=
  [(.still 0 0, .identified samplePeer "/other/1.0.0"), (.still second 0, event)]

/-- A peer that shows an unsupported version twice is still blocked when the first hour is over. -/
theorem block_lasts_version : ((run (Actor.step samplePrimitives) sampleNode
    (versionThen (.identified samplePeer "/other/1.0.0"))).isBlocked samplePeer
      MALFORMED_BLOCK).1 = true := by
  have hheld : (sampleNode.step samplePrimitives
      (.still 0 0, .identified samplePeer "/other/1.0.0")).blocked.peek samplePeer =
        some MALFORMED_BLOCK := by
    decide +kernel
  refine @block_lasts samplePrimitives sampleNode 0
    (versionThen (.identified samplePeer "/other/1.0.0")) rfl
    ⟨Nat.zero_le _, Nat.zero_le _, trivial⟩ (by decide +kernel) ?_
    ⟨samplePeer, second, MALFORMED_BLOCK⟩ (by decide +kernel) MALFORMED_BLOCK (by decide +kernel)
    (by decide)
  refine ⟨fun _ d hd => by simp [sampleNode, Actor.start] at hd, fun _ d hd => ?_, along_nil⟩
  rw [hheld, Option.mem_some_iff] at hd
  rw [← hd]
  exact Nat.le_add_left _ _

/-- One more message from a blocked peer turns an hour into five minutes. -/
theorem block_shortened :
    Timeline 0 (versionThen (.gossip samplePeer (sampleRecord 1 1 1 0 1000).recordId [])) ∧
    ((calledAlong samplePrimitives sampleNode (versionThen
      (.gossip samplePeer (sampleRecord 1 1 1 0 1000).recordId []))).map
        Call.key).toFinset.card ≤ MAX_BLOCKED_PEERS ∧
    ⟨samplePeer, 0, MALFORMED_BLOCK⟩ ∈ calledAlong samplePrimitives sampleNode
      (versionThen (.gossip samplePeer (sampleRecord 1 1 1 0 1000).recordId [])) ∧
    600 * second < 0 + MALFORMED_BLOCK ∧
    ((run (Actor.step samplePrimitives) sampleNode (versionThen
      (.gossip samplePeer (sampleRecord 1 1 1 0 1000).recordId []))).isBlocked samplePeer
        (600 * second)).1 = false :=
  ⟨⟨Nat.zero_le _, Nat.zero_le _, trivial⟩, by decide +kernel, by decide +kernel, by decide,
    by decide +kernel⟩

/-- A gossip message always shortens a block that has more than five minutes left. -/
theorem gossip_shortens {source : PeerId} {messageId : RecordId} {data : Bytes} {d : ℕ}
    (hd : d ∈ a.blocked.peek source) (hlong : c.instant 2 + MINOR_BLOCK < d) :
    (a.step K (c, .gossip source messageId data)).blocked.peek source =
      some (c.instant 2 + MINOR_BLOCK) := by
  have hlive : (a.cleared.isBlocked source (c.instant 1)).1 = true := by
    have h12 : c.instant 1 ≤ c.instant 2 := c.monotone (by omega)
    exact (isBlocked_fst _ _).mpr ⟨d, hd, by omega⟩
  have hrefused : (a.cleared.gossipRefused source data.length c).1 = true := by
    unfold Actor.gossipRefused
    split_ifs
    · rfl
    · rcases hb : a.cleared.isBlocked source (c.instant 1) with ⟨refused, b⟩
      rw [hb] at hlive
      obtain rfl : refused = true := hlive
      rfl
  change (a.cleared.validateGossip K source messageId data c).blocked.peek source = _
  unfold Actor.validateGossip
  rcases hb : a.cleared.gossipRefused source data.length c with ⟨refused, b⟩
  rw [hb] at hrefused
  obtain rfl : refused = true := hrefused
  exact LruCache.peek_put_self ..

end Protonet.Blocking
