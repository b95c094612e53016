import Protonet.Blocking
import Protonet.ExpiryTable

namespace Protonet.DeniedConnections
open Lru MachineInt StepRun ExpiryTable Record RateLimit Address Connections Swarm RecordIdentity
  Blocking

variable {K : Primitives} {a : Actor} {es : List (Clock × Event)}

lemma purgeDenied_eq {now rounds : ℕ} {values : LruCache ConnectionId ℕ}
    (h : values.len ≤ rounds) : purgeDenied now rounds values = swept values now := by
  induction rounds generalizing values with
  | zero =>
    have hnil : values.table.entries = [] := List.length_eq_zero_iff.mp (Nat.le_zero.mp h)
    rw [purgeDenied, swept_of_peekLru_none]
    simp [LruCache.peekLru, hnil]
  | succ rounds ih =>
    unfold purgeDenied
    rcases hlast : values.peekLru with _ | ⟨id, expires⟩
    · exact (swept_of_peekLru_none hlast).symm
    · dsimp only
      split_ifs with hover
      · have hlen : values.popLru.len ≤ rounds := by
          have hsplit := congrArg List.length (entries_of_peekLru hlast)
          rw [List.length_append, List.length_singleton] at hsplit
          unfold LruCache.len at h ⊢
          omega
        rw [ih hlen, swept_popLru hlast hover]
      · exact (swept_of_live hlast (not_le.mp hover)).symm

lemma purged_eq (values : LruCache ConnectionId ℕ) (now : ℕ) :
    purged values now = swept values now := purgeDenied_eq le_rfl

/-- The connection whose attempt the counter of its source refuses. -/
def refusal (a : Actor) (e : Clock × Event) : Option ConnectionId :=
  match e.2 with
  | .incomingConnection connection sendBackAddr =>
    let counter := (a.connectionAttempts.peek (sourceAddressKey sendBackAddr)).getD
      (.new 10 (60 * second) (e.1.instant 1))
    if (counter.take (e.1.instant 0)).1 then none else some connection
  | _ => none

def denialOp (a : Actor) (e : Clock × Event) : Option (Op ConnectionId) :=
  match e.2 with
  | .incomingConnection _ _ => (refusal a e).map fun id => .enter id (e.1.instant 0)
  | .connectionEstablished _ _ connection _ => some (.leave connection)
  | .connectionClosed _ connection => some (.leave connection)
  | .incomingConnectionError connection _ => some (.leave connection)
  | .snapshotTick => some (.sweep (e.1.instant 0))
  | _ => none

def denials (table : LruCache ConnectionId ℕ) : Option (Op ConnectionId) → LruCache ConnectionId ℕ
  | none => table
  | some op => apply DENIED_CONNECTION_TTL table op

lemma incomingConnection_denied (c : Clock) (connection : ConnectionId)
    (sendBackAddr : Multiaddr) :
    (a.incomingConnection connection sendBackAddr c).deniedConnections =
      denials a.deniedConnections
        (denialOp a (c, .incomingConnection connection sendBackAddr)) := by
  unfold Actor.incomingConnection denialOp refusal
  dsimp only
  split_ifs
  · rfl
  · simp [Actor.emit, Actor.deny, denials, apply, purged_eq]

/-- Every event does at most one thing to the table. -/
lemma handle_denied (c : Clock) (e : Event) :
    (a.handle K c e).deniedConnections = denials a.deniedConnections (denialOp a (c, e)) := by
  cases e with
  | command command signerFull =>
    exact congrArg Core.deniedConnections (core_handleCommand command signerFull)
  | signedRecord result =>
    obtain ⟨queue, h, -⟩ := @core_handleSignedRecord a c result
    exact congrArg Core.deniedConnections h
  | persisted event publication =>
    obtain ⟨replay, reason, h⟩ := @core_handlePersisted K a c event publication
    exact congrArg Core.deniedConnections h
  | connectionEstablished peer endpoint connection n =>
    obtain ⟨ops, -, h⟩ := @core_connectionEstablished a c peer endpoint connection n
    exact congrArg Core.deniedConnections h
  | connectionClosed peer connection =>
    exact congrArg Core.deniedConnections (core_connectionClosed peer connection)
  | incomingConnectionError connection error =>
    exact congrArg Core.deniedConnections (core_incomingConnectionError connection error)
  | incomingConnection connection sendBackAddr =>
    exact incomingConnection_denied c connection sendBackAddr
  | identified peer protocolVersion =>
    have h := congrArg Core.deniedConnections (@core_identified a c peer protocolVersion)
    split_ifs at h
    · exact h
    · exact h
  | pinged peer rtt => rfl
  | gossip source messageId data =>
    obtain ⟨asked, ops, replay, rateLimiter, queue, globalRecords, h, -⟩ :=
      @core_validateGossip K a c source messageId data
    exact congrArg Core.deniedConnections h
  | syncRequest peer request channel =>
    obtain ⟨rateLimiter, h⟩ := @core_prepareSyncResponse a c peer request channel
    exact congrArg Core.deniedConnections h
  | syncResponse peer id response =>
    obtain ⟨replay, rateLimiter, h⟩ := @core_handleSyncResponse K a c peer id response
    exact congrArg Core.deniedConnections h
  | outboundFailure peer id =>
    exact congrArg Core.deniedConnections (core_outboundFailure peer id)
  | inboundFailure peer => rfl
  | dbAction action =>
    obtain ⟨rateLimiter, mode, reason, h⟩ := @core_handleDbAction a c action
    exact congrArg Core.deniedConnections h
  | snapshotTick =>
    have h := congrArg Core.deniedConnections (@core_snapshotTick a c)
    exact h.trans (purged_eq ..)
  | syncTick pick => exact congrArg Core.deniedConnections (core_startBestSyncPeer pick _)
  | cleanupTick => rfl
  | workerTook n => rfl
  | other => rfl

lemma step_denied (e : Clock × Event) :
    (a.step K e).deniedConnections = denials a.deniedConnections (denialOp a e) :=
  handle_denied e.1 e.2

/-- The connection an event is about, where it bears on the table. -/
def connectionOf : Event → Option ConnectionId
  | .incomingConnection connection _ => some connection
  | .connectionEstablished _ _ connection _ => some connection
  | .incomingConnectionError connection _ => some connection
  | .connectionClosed _ connection => some connection
  | _ => none

/-- A connection arrives, is established or fails, and is closed. -/
def stage : Event → ℕ
  | .incomingConnection _ _ => 0
  | .connectionEstablished _ _ _ _ => 1
  | .incomingConnectionError _ _ => 1
  | _ => 2

/-- No two connections share an id: its events come in the order of one life, each once. -/
def UniqueConnections (es : List (Clock × Event)) : Prop :=
  es.Pairwise fun d e => ∀ id ∈ connectionOf d.2, id ∈ connectionOf e.2 → stage d.2 < stage e.2

def refusals (K : Primitives) : Actor → List (Clock × Event) → List ConnectionId
  | _, [] => []
  | a, e :: es => (refusal a e).toList ++ refusals K (a.step K e) es

/-- The table is within its bound, and a purge leaves of it what is not over. -/
structure Exact (table : LruCache ConnectionId ℕ) : Prop where
  bounded : table.len ≤ MAX_DENIED_CONNECTIONS
  purge : ∀ now id expiry,
    expiry ∈ (purged table now).peek id ↔ expiry ∈ table.peek id ∧ now < expiry

/-- A connection that was denied is not counted when it is established in time, with fewer
denials in between than the table has room for. -/
def KeptOut (K : Primitives) (a : Actor) (es : List (Clock × Event)) : Prop :=
  ∀ xs d mid e ys, es = xs ++ d :: mid ++ e :: ys → ∀ id peer endpoint n,
    refusal (run (Actor.step K) a xs) d = some id →
    e.2 = .connectionEstablished peer endpoint id n →
    e.1.instant 0 < d.1.instant 0 + DENIED_CONNECTION_TTL →
    (refusals K (run (Actor.step K) a (xs ++ [d])) mid).length < MAX_DENIED_CONNECTIONS →
      ((run (Actor.step K) a (xs ++ d :: mid)).step K e).connections =
        (run (Actor.step K) a (xs ++ d :: mid)).connections

lemma refusal_some {e : Clock × Event} {id : ConnectionId} (h : refusal a e = some id) :
    connectionOf e.2 = some id ∧ stage e.2 = 0 ∧
      denialOp a e = some (.enter id (e.1.instant 0)) := by
  obtain ⟨c, e⟩ := e
  cases e with
  | incomingConnection connection sendBackAddr =>
    refine ⟨?_, rfl, by simp [denialOp, h]⟩
    unfold refusal at h
    dsimp only at h
    split_ifs at h
    exact h
  | _ => simp [refusal] at h

lemma denialOp_some {e : Clock × Event} {op : Op ConnectionId} (h : denialOp a e = some op) :
    (∃ id, refusal a e = some id ∧ op = .enter id (e.1.instant 0)) ∨
      refusal a e = none ∧ ((∃ id, connectionOf e.2 = some id ∧ op = .leave id) ∨
        op = .sweep (e.1.instant 0)) := by
  obtain ⟨c, e⟩ := e
  cases e with
  | incomingConnection connection sendBackAddr =>
    obtain ⟨id, hid, rfl⟩ := Option.map_eq_some_iff.mp h
    exact .inl ⟨id, hid, rfl⟩
  | connectionEstablished peer endpoint connection n =>
    exact .inr ⟨rfl, .inl ⟨connection, rfl, (Option.some.inj h).symm⟩⟩
  | connectionClosed peer connection =>
    exact .inr ⟨rfl, .inl ⟨connection, rfl, (Option.some.inj h).symm⟩⟩
  | incomingConnectionError connection error =>
    exact .inr ⟨rfl, .inl ⟨connection, rfl, (Option.some.inj h).symm⟩⟩
  | snapshotTick => exact .inr ⟨rfl, .inr (Option.some.inj h).symm⟩
  | _ => simp [denialOp] at h

/-! The table stays in order. -/

structure InOrder (now : ℕ) (table : LruCache ConnectionId ℕ) : Prop where
  cap : table.cap = MAX_DENIED_CONNECTIONS
  byDeadline : ByDeadline DENIED_CONNECTION_TTL now table

lemma InOrder.exact {now : ℕ} {table : LruCache ConnectionId ℕ} (h : InOrder now table) :
    Exact table where
  bounded := table.bounded.trans h.cap.le
  purge := by
    intro t id expiry
    rw [purged_eq]
    exact h.byDeadline.mem_peek_swept

lemma step_cap (e : Clock × Event) :
    (a.step K e).deniedConnections.cap = a.deniedConnections.cap := by
  rw [step_denied]
  rcases denialOp a e with _ | op
  · rfl
  · exact apply_cap op

lemma run_cap (es : List (Clock × Event)) :
    (run (Actor.step K) a es).deniedConnections.cap = a.deniedConnections.cap := by
  induction es generalizing a with
  | nil => rfl
  | cons e es ih => exact ih.trans (step_cap e)

lemma InOrder.step {now : ℕ} {e : Clock × Event} (h : InOrder now a.deniedConnections)
    (htime : now ≤ e.1.instant 0) : InOrder e.1.finish (a.step K e).deniedConnections := by
  have hle : e.1.instant 0 ≤ e.1.finish := e.1.le_finish 0
  refine ⟨(step_cap e).trans h.cap, ?_⟩
  rw [step_denied]
  rcases hop : denialOp a e with _ | op
  · exact h.byDeadline.mono (htime.trans hle)
  · refine h.byDeadline.apply ?_
    rcases denialOp_some hop with ⟨id, -, rfl⟩ | ⟨-, ⟨id, -, rfl⟩ | rfl⟩
    · exact ⟨htime, hle⟩
    · exact htime.trans hle
    · exact ⟨htime, hle⟩

lemma InOrder.run {now : ℕ} (h : InOrder now a.deniedConnections) (htime : Timeline now es) :
    InOrder (endOf now es) (run (Actor.step K) a es).deniedConnections := by
  induction es generalizing a now with
  | nil => exact h
  | cons e es ih => exact ih (h.step htime.1) htime.2

/-! An entry that is not over stays in its place. -/

lemma held_step {e : Clock × Event} {id : ConnectionId} {expiry r : ℕ}
    (h : Held a.deniedConnections id expiry r) (hid : connectionOf e.2 ≠ some id)
    (htime : e.1.instant 0 < expiry)
    (hroom : r + (refusal a e).toList.length < a.deniedConnections.cap) :
    Held (a.step K e).deniedConnections id expiry (r + (refusal a e).toList.length) := by
  rw [step_denied]
  rcases hop : denialOp a e with _ | op
  · obtain ⟨newer, older, he, hr⟩ := h
    exact ⟨newer, older, he, hr.trans (Nat.le_add_right _ _)⟩
  · rcases denialOp_some hop with ⟨k, hk, rfl⟩ | ⟨hk, ⟨k, hc, rfl⟩ | rfl⟩
    · rw [hk] at hroom ⊢
      refine h.apply ⟨?_, htime⟩ hroom
      rintro rfl
      exact hid (refusal_some hk).1
    · rw [hk]
      refine h.pop ?_
      rintro rfl
      exact hid hc
    · rw [hk]
      exact h.swept htime

lemma held_run {id : ConnectionId} {expiry r : ℕ} (h : Held a.deniedConnections id expiry r)
    (hcap : a.deniedConnections.cap = MAX_DENIED_CONNECTIONS)
    (hothers : ∀ e ∈ es, connectionOf e.2 ≠ some id ∧ e.1.instant 0 < expiry)
    (hroom : r + (refusals K a es).length < MAX_DENIED_CONNECTIONS) :
    Held (run (Actor.step K) a es).deniedConnections id expiry
      (r + (refusals K a es).length) := by
  induction es generalizing a r with
  | nil => exact h
  | cons e es ih =>
    obtain ⟨⟨hid, htime⟩, hrest⟩ := List.forall_mem_cons.mp hothers
    have hlen : r + (refusals K a (e :: es)).length =
        r + (refusal a e).toList.length + (refusals K (a.step K e) es).length := by
      rw [refusals, List.length_append, Nat.add_assoc]
    rw [hlen] at hroom ⊢
    exact ih (held_step h hid htime (by omega)) ((step_cap e).trans hcap) hrest hroom

lemma Timeline.start_le {now : ℕ} (h : Timeline now es) : ∀ e ∈ es, now ≤ e.1.instant 0 := by
  induction es generalizing now with
  | nil => simp
  | cons d es ih =>
    intro e he
    rcases List.mem_cons.mp he with rfl | he
    · exact h.1
    · exact (h.1.trans (d.1.le_finish 0)).trans (ih h.2 e he)

lemma Timeline.sorted {now : ℕ} (h : Timeline now es) :
    es.Pairwise fun d e => d.1.instant 0 ≤ e.1.instant 0 := by
  induction es generalizing now with
  | nil => exact .nil
  | cons d es ih =>
    exact List.pairwise_cons.mpr
      ⟨fun e he => (d.1.le_finish 0).trans (Timeline.start_le h.2 e he), ih h.2⟩

lemma Timeline.of_append {now : ℕ} {xs ys : List (Clock × Event)}
    (h : Timeline now (xs ++ ys)) : Timeline now xs := by
  induction xs generalizing now with
  | nil => trivial
  | cons x xs ih => exact ⟨h.1, ih h.2⟩

lemma UniqueConnections.between {xs mid ys : List (Clock × Event)} {d e : Clock × Event}
    (h : UniqueConnections (xs ++ d :: mid ++ e :: ys)) {id : ConnectionId}
    (hd : connectionOf d.2 = some id) (hstage : stage d.2 = 0) (he : connectionOf e.2 = some id)
    (hnext : stage e.2 = 1) : ∀ f ∈ mid, connectionOf f.2 ≠ some id := by
  intro f hf hid
  obtain ⟨hleft, -, hright⟩ := List.pairwise_append.mp h
  have hafter : stage d.2 < stage f.2 := by
    have hmid := (List.pairwise_append.mp hleft).2.1
    exact (List.pairwise_cons.mp hmid).1 f hf id hd hid
  have hbefore : stage f.2 < stage e.2 :=
    hright f (List.mem_append_right _ (List.mem_cons_of_mem _ hf)) e List.mem_cons_self id hid he
  omega

lemma connections_of_denied {e : Clock × Event} {id : ConnectionId} {peer : PeerId}
    {endpoint : ConnectedPoint} {n : ℕ} (he : e.2 = .connectionEstablished peer endpoint id n)
    (hdenied : (a.deniedConnections.peek id).isSome) :
    (a.step K e).connections = a.connections := by
  have hadmits : a.admits peer endpoint id n (e.1.instant 0) = false := by
    simp [Actor.admits, Option.isSome_iff_ne_none.mp hdenied]
  rw [step_tracked, he]
  simp [Actor.tracked, hadmits]

lemma keptOut {now : ℕ} (hfresh : a.deniedConnections.cap = MAX_DENIED_CONNECTIONS)
    (htime : Timeline now es) (hunique : UniqueConnections es) : KeptOut K a es := by
  rintro xs d mid e ys rfl id peer endpoint n hrefused he hsoon hfew
  obtain ⟨hd, hstage, hop⟩ := refusal_some hrefused
  have hothers : ∀ f ∈ mid, connectionOf f.2 ≠ some id ∧
      f.1.instant 0 < d.1.instant 0 + DENIED_CONNECTION_TTL := by
    have hid := UniqueConnections.between hunique hd hstage (by rw [he]; rfl) (by rw [he]; rfl)
    have hle := (List.pairwise_append.mp (Timeline.sorted htime)).2.2
    intro f hf
    refine ⟨hid f hf, lt_of_le_of_lt ?_ hsoon⟩
    exact hle f (List.mem_append_right _ (List.mem_cons_of_mem _ hf)) e List.mem_cons_self
  have hcap : (run (Actor.step K) a (xs ++ [d])).deniedConnections.cap =
      MAX_DENIED_CONNECTIONS := (run_cap _).trans hfresh
  have hheld : Held (run (Actor.step K) a (xs ++ [d])).deniedConnections id
      (d.1.instant 0 + DENIED_CONNECTION_TTL) 0 := by
    rw [run_append, run_cons, run_nil, step_denied, hop]
    exact held_put_self _
  have hlast := held_run hheld hcap hothers (by rwa [Nat.zero_add])
  rw [← run_append, List.append_assoc, List.singleton_append] at hlast
  exact connections_of_denied he (by rw [hlast.peek]; rfl)

/-- In every run from an empty table the table keeps its bound, purging it leaves exactly what is
not over, and no denied connection is counted that is established before its entry is over or
pushed out. -/
theorem denied_kept_out {K : Primitives} {a : Actor} {es : List (Clock × Event)} {now : ℕ}
    (hfresh : a.deniedConnections = .new MAX_DENIED_CONNECTIONS (by decide))
    (htime : Timeline now es) (hunique : UniqueConnections es) :
    (∀ xs, xs <+: es → Exact (run (Actor.step K) a xs).deniedConnections) ∧ KeptOut K a es := by
  have hcap : a.deniedConnections.cap = MAX_DENIED_CONNECTIONS := congrArg LruCache.cap hfresh
  refine ⟨?_, keptOut hcap htime hunique⟩
  rintro xs ⟨ys, rfl⟩
  have hstart : InOrder now a.deniedConnections :=
    ⟨hcap, by rw [hfresh]; exact byDeadline_new (by decide)⟩
  exact (hstart.run (Timeline.of_append htime)).exact

lemma timeline_atOnce (events : List Event) : Timeline 0 (atOnce events) := by
  induction events with
  | nil => trivial
  | cons e events ih => exact ⟨Nat.zero_le _, ih⟩

/-- More attempts from one address than its counter grants, and two of them established. -/
def sampleAttempts : List (Clock × Event) :=
  atOnce ((List.range 12).map (.incomingConnection · [.ip4 ⟨1, 2, 3, 4⟩, .tcp 4001]) ++
    [.connectionEstablished samplePeer (.listener [.ip4 ⟨1, 2, 3, 4⟩, .tcp 4001]) 3 1,
      .snapshotTick,
      .connectionEstablished samplePeer (.listener [.ip4 ⟨1, 2, 3, 4⟩, .tcp 4001]) 11 2])

theorem sampleAttempts_kept_out :
    refusals samplePrimitives sampleNode sampleAttempts = [10, 11] ∧
      (∀ xs, xs <+: sampleAttempts →
        Exact (run (Actor.step samplePrimitives) sampleNode xs).deniedConnections) ∧
      KeptOut samplePrimitives sampleNode sampleAttempts :=
  ⟨by decide +kernel, @denied_kept_out samplePrimitives sampleNode sampleAttempts 0 rfl
    (timeline_atOnce _) (by unfold UniqueConnections; decide +kernel)⟩

end Protonet.DeniedConnections
