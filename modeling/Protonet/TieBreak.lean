import Protonet.Blocking

namespace Protonet.TieBreak
open MachineInt StepRun Postcard Record Address Connections Sync Swarm RecordIdentity Blocking

/-- A connection, with what its two ends know it by. -/
structure Connection where
  dialer : PeerId
  address : Multiaddr
  sendBackAddr : Multiaddr
  dialerId : ConnectionId
  listenerId : ConnectionId
  deriving DecidableEq

def Connection.endpointAt (c : Connection) (me : PeerId) : ConnectedPoint :=
  if me = c.dialer then .dialer c.address else .listener c.sendBackAddr

def Connection.idAt (c : Connection) (me : PeerId) : ConnectionId :=
  if me = c.dialer then c.dialerId else c.listenerId

/-- The peer an event tells a connection change of. -/
def linkOf : Event → Option PeerId
  | .connectionEstablished peer .. => some peer
  | .connectionClosed peer _ => some peer
  | _ => none

/-- What one end meets: the connections with the other peer, and anything else. -/
inductive Sight (peer : PeerId)
  | established (c : Connection)
  | closed (c : Connection)
  | other (e : Event) (h : linkOf e ≠ some peer)

def Sight.opened? {peer : PeerId} : Sight peer → Option Connection
  | .established c => some c
  | _ => none

/-- One end: the open connections with the other peer and all the actor has asked for. -/
structure End where
  actor : Actor
  opened : List Connection
  log : List Effect

def End.start (a : Actor) : End := ⟨a, [], []⟩

/-- The event of a sight; the pool counts the new connection with the open ones. -/
def End.event {peer : PeerId} (s : End) : Sight peer → Event
  | .established c => .connectionEstablished peer (c.endpointAt s.actor.identity)
      (c.idAt s.actor.identity) (s.opened.length + 1)
  | .closed c => .connectionClosed peer (c.idAt s.actor.identity)
  | .other e _ => e

def End.openedAfter {peer : PeerId} (s : End) : Sight peer → List Connection
  | .established c => s.opened ++ [c]
  | .closed c => s.opened.erase c
  | .other .. => s.opened

def End.step (K : Primitives) (peer : PeerId) (s : End) (m : Clock × Sight peer) : End where
  actor := s.actor.step K (m.1, s.event m.2)
  opened := s.openedAfter m.2
  log := s.log ++ (s.actor.step K (m.1, s.event m.2)).outbox

/-- The end has asked to close the connection, or all of the other peer. -/
def End.Cuts (s : End) (peer : PeerId) (c : Connection) : Prop :=
  .closeConnection (c.idAt s.actor.identity) ∈ s.log ∨ .disconnectPeer peer ∈ s.log

instance (s : End) (peer : PeerId) (c : Connection) : Decidable (s.Cuts peer c) := by
  unfold End.Cuts
  infer_instance

def Closes (me peer : PeerId) (cs : List Connection) (e : Effect) : Prop :=
  e = .disconnectPeer peer ∨ ∃ c ∈ cs, e = .closeConnection (c.idAt me)

instance (me peer : PeerId) (cs : List Connection) (e : Effect) :
    Decidable (Closes me peer cs e) := by
  unfold Closes
  infer_instance

/-- Nothing but the tie-break closes: the checks that come before it let the connection pass, and
no other event closes one. -/
def Undisturbed (K : Primitives) (peer : PeerId) (cs : List Connection) (s : End)
    (m : Clock × Sight peer) : Prop :=
  match m.2 with
  | .established c =>
    (s.actor.deniedConnections.peek (c.idAt s.actor.identity)).isNone = true ∧
      (s.actor.isBlocked peer (m.1.instant 0)).1 = false ∧
      s.actor.connections.canAccept (c.endpointAt s.actor.identity) = true
  | .closed _ => True
  | .other e _ => ∀ x ∈ (s.actor.step K (m.1, e)).outbox, ¬ Closes s.actor.identity peer cs x

instance (K : Primitives) (peer : PeerId) (cs : List Connection) (s : End)
    (m : Clock × Sight peer) : Decidable (Undisturbed K peer cs s m) := by
  unfold Undisturbed
  split <;> infer_instance

/-- An end sees each of the connections established once, in some order, and closes none but by
the tie-break. -/
structure Sees (K : Primitives) (peer : PeerId) (cs : List Connection) (a : Actor)
    (ms : List (Clock × Sight peer)) : Prop where
  ids : (cs.map fun c => c.idAt a.identity).Nodup
  order : (ms.filterMap fun m => m.2.opened?).Perm cs
  undisturbed : Along (End.step K peer) (Undisturbed K peer cs) (.start a) ms

/-- The connection finds no other one open at this end. -/
def Alone (K : Primitives) (peer : PeerId) (s : End) (ms : List (Clock × Sight peer))
    (c : Connection) : Prop :=
  ∃ xs t ys, ms = xs ++ (t, .established c) :: ys ∧ (run (End.step K peer) s xs).opened = []

variable {K : Primitives} {a b : Actor} {c : Clock} {peer : PeerId}

lemma handle_identity (e : Event) : (a.handle K c e).identity = a.identity := by
  have hcore : ∀ b : Actor, b.core.identity = b.identity := fun _ => rfl
  rw [← hcore, ← hcore a]
  cases e with
  | command command signerFull => rw [Actor.handle, core_handleCommand]
  | signedRecord result =>
    obtain ⟨queue, h, -⟩ := @core_handleSignedRecord a c result
    rw [Actor.handle, h]
  | persisted event publication =>
    obtain ⟨replay, reason, h⟩ := @core_handlePersisted K a c event publication
    rw [Actor.handle, h]
  | connectionEstablished peer endpoint connection n =>
    obtain ⟨ops, -, h⟩ := @core_connectionEstablished a c peer endpoint connection n
    rw [Actor.handle, h]
    rfl
  | connectionClosed peer connection => rw [Actor.handle, core_connectionClosed]
  | incomingConnectionError connection error => rw [Actor.handle, core_incomingConnectionError]
  | incomingConnection connection sendBackAddr =>
    obtain ⟨attempts, denied, h⟩ := @core_incomingConnection a c connection sendBackAddr
    rw [Actor.handle, h]
  | identified peer protocolVersion =>
    rw [Actor.handle, core_identified]
    split_ifs <;> rfl
  | pinged peer rtt => rfl
  | gossip source messageId data =>
    obtain ⟨asked, ops, replay, rateLimiter, queue, globalRecords, h, -⟩ :=
      @core_validateGossip K a c source messageId data
    rw [Actor.handle, h]
    rfl
  | syncRequest peer request channel =>
    obtain ⟨rateLimiter, h⟩ := @core_prepareSyncResponse a c peer request channel
    rw [Actor.handle, h]
  | syncResponse peer id response =>
    obtain ⟨replay, rateLimiter, h⟩ := @core_handleSyncResponse K a c peer id response
    rw [Actor.handle, h]
    rfl
  | outboundFailure peer id => rw [Actor.handle, core_outboundFailure]
  | inboundFailure peer => rw [Actor.handle, core_violation]
  | dbAction action =>
    obtain ⟨rateLimiter, mode, reason, h⟩ := @core_handleDbAction a c action
    rw [Actor.handle, h]
  | snapshotTick => rw [Actor.handle, core_snapshotTick]
  | syncTick pick => rw [Actor.handle, core_startBestSyncPeer]
  | cleanupTick => rfl
  | workerTook n => rfl
  | other => rfl

lemma run_identity (s : End) (ms : List (Clock × Sight peer)) :
    (run (End.step K peer) s ms).actor.identity = s.actor.identity := by
  induction ms generalizing s with
  | nil => rfl
  | cons m ms ih =>
    rw [run_cons, ih]
    exact handle_identity _

def IsClosing : Effect → Prop
  | .closeConnection _ => True
  | .disconnectPeer _ => True
  | _ => False

lemma letIn_open {endpoint : ConnectedPoint} (h : ∀ x ∈ a.outbox, ¬ IsClosing x) :
    ∀ x ∈ (a.letIn peer endpoint c).outbox, ¬ IsClosing x := by
  have hemit : ∀ (b : Actor) (e : Effect), ¬ IsClosing e → (∀ x ∈ b.outbox, ¬ IsClosing x) →
      ∀ x ∈ (b.emit e).outbox, ¬ IsClosing x := by
    intro b e he hb x hx
    rcases List.mem_append.mp hx with hold | hnew
    · exact hb x hold
    · rw [List.mem_singleton.mp hnew]
      exact he
  have hstart : ∀ b : Actor, (∀ x ∈ b.outbox, ¬ IsClosing x) →
      ∀ x ∈ (b.startSync peer (c.instant 2)).outbox, ¬ IsClosing x := by
    intro b hb
    unfold Actor.startSync
    split_ifs
    · exact hb
    · exact hemit _ _ id (hemit _ _ id hb)
  unfold Actor.letIn
  dsimp only
  split_ifs
  · refine hstart _ ?_
    split
    · exact h
    · exact hemit _ _ id h
  · split
    · exact h
    · exact hemit _ _ id h

/-- Past the checks before it, the tie-break decides alone whether a connection is closed. -/
lemma established_closes {endpoint : ConnectedPoint} {id : ConnectionId} {n : ℕ}
    (hdenied : (a.deniedConnections.peek id).isNone = true)
    (hblocked : (a.isBlocked peer (c.instant 0)).1 = false)
    (haccept : a.connections.canAccept endpoint = true) {x : Effect} (hx : IsClosing x) :
    x ∈ (a.step K (c, .connectionEstablished peer endpoint id n)).outbox ↔
      a.losesTieBreak peer endpoint n = true ∧ x = .closeConnection id := by
  obtain ⟨b, hb⟩ : ∃ b : Actor, b =
    { a.cleared with deniedConnections := a.deniedConnections.pop id } := ⟨_, rfl⟩
  have hnone : b.outbox = [] := by
    rw [hb]
    rfl
  have hdenied' : (a.cleared.deniedConnections.peek id).isSome = false := by
    rw [← Option.not_isNone, Bool.not_eq_false']
    exact hdenied
  have hblocked' : (b.isBlocked peer (c.instant 0)).1 = false := by
    rw [← hblocked, Bool.eq_iff_iff, isBlocked_fst, isBlocked_fst, hb]
    rfl
  have hcore := @core_isBlocked b peer (c.instant 0)
  have hout : (b.isBlocked peer (c.instant 0)).2.outbox = [] := by
    rw [← hnone]
    unfold Actor.isBlocked
    split
    · rfl
    · split_ifs <;> rfl
  unfold Actor.step Actor.handle Actor.connectionEstablished
  dsimp only
  rw [hdenied', if_neg Bool.false_ne_true]
  have hcleared : ({ a.cleared with
      deniedConnections := a.cleared.deniedConnections.pop id } : Actor) = b := by
    rw [hb]
    rfl
  rw [hcleared]
  rcases hq : b.isBlocked peer (c.instant 0) with ⟨refused, d⟩
  rw [hq] at hblocked' hcore hout
  dsimp only at hblocked' hout
  subst hblocked'
  have hconn : d.connections = a.connections := by
    rw [show d.connections = b.connections from congrArg Core.connections hcore, hb]
    rfl
  have htie : d.losesTieBreak peer endpoint n = a.losesTieBreak peer endpoint n := by
    unfold Actor.losesTieBreak
    rw [show d.identity = b.identity from congrArg Core.identity hcore, hb]
    rfl
  dsimp only
  rw [hconn, haccept, htie]
  simp only [Bool.not_true, Bool.false_eq_true, if_false]
  cases a.losesTieBreak peer endpoint n with
  | true => simp [Actor.emit, hout]
  | false =>
    rw [if_neg Bool.false_ne_true]
    have hopen : ∀ x ∈ d.outbox, ¬ IsClosing x := by simp [hout]
    exact iff_of_false (fun hmem => letIn_open hopen x hmem hx) (by simp)

lemma closed_keeps {id : ConnectionId} {x : Effect} (hx : IsClosing x) :
    x ∉ (a.step K (c, .connectionClosed peer id)).outbox := by
  unfold Actor.step Actor.handle Actor.connectionClosed
  dsimp only
  split
  · exact List.not_mem_nil
  · intro hmem
    rw [List.mem_singleton.mp hmem] at hx
    exact hx

lemma mem_log {s : End} {ms : List (Clock × Sight peer)} {x : Effect} :
    x ∈ (run (End.step K peer) s ms).log ↔ x ∈ s.log ∨ ∃ xs m ys, ms = xs ++ m :: ys ∧
      x ∈ ((run (End.step K peer) s (xs ++ [m])).actor).outbox := by
  induction ms generalizing s with
  | nil => simp
  | cons m ms ih =>
    rw [run_cons, ih]
    constructor
    · rintro (hlog | ⟨xs, m', ys, rfl, hx⟩)
      · rcases List.mem_append.mp hlog with hold | hnew
        · exact .inl hold
        · exact .inr ⟨[], m, ms, rfl, hnew⟩
      · exact .inr ⟨m :: xs, m', ys, rfl, hx⟩
    · rintro (hold | ⟨xs, m', ys, heq, hx⟩)
      · exact .inl (List.mem_append_left _ hold)
      · cases xs with
        | nil =>
          obtain ⟨rfl, rfl⟩ := List.cons.inj heq
          exact .inl (List.mem_append_right _ hx)
        | cons y xs =>
          obtain ⟨rfl, rfl⟩ := List.cons.inj heq
          exact .inr ⟨xs, m', ys, rfl, hx⟩

/-- Whether the rule prefers the connections this end did not dial, or those it did. -/
def mismatched (me peer : PeerId) (c : Connection) : Bool :=
  decide (me.toBytes < peer.toBytes) != (c.endpointAt me).isDialer

variable {cs : List Connection} {ms : List (Clock × Sight peer)}

lemma idAt_inj {me : PeerId} (h : (cs.map fun c => c.idAt me).Nodup) {c d : Connection}
    (hc : c ∈ cs) (hd : d ∈ cs) (heq : c.idAt me = d.idAt me) : c = d :=
  List.inj_on_of_nodup_map h hc hd heq

/-- An end closes a connection exactly when the connection is of the wrong direction and finds
another one open. -/
lemma cuts_iff (h : Sees K peer cs a ms) {c : Connection} (hc : c ∈ cs) :
    (run (End.step K peer) (.start a) ms).Cuts peer c ↔ ∃ xs t ys,
      ms = xs ++ (t, .established c) :: ys ∧
        (run (End.step K peer) (.start a) xs).opened ≠ [] ∧
          mismatched a.identity peer c = true := by
  have hid : ∀ ms : List (Clock × Sight peer),
      (run (End.step K peer) (.start a) ms).actor.identity = a.identity := run_identity (.start a)
  have hmem : ∀ xs t d ys, ms = xs ++ (t, Sight.established d) :: ys → d ∈ cs := by
    rintro xs t d ys rfl
    refine h.order.mem_iff.mp ?_
    simp [List.filterMap_append, Sight.opened?]
  have hstep : ∀ xs m ys x, ms = xs ++ m :: ys → Closes a.identity peer cs x →
      (x ∈ (run (End.step K peer) (.start a) (xs ++ [m])).actor.outbox ↔ ∃ d,
        m.2 = .established d ∧ (run (End.step K peer) (.start a) xs).opened ≠ [] ∧
          mismatched a.identity peer d = true ∧ x = .closeConnection (d.idAt a.identity)) := by
    rintro xs ⟨t, m⟩ ys x heq hx
    have hquiet := along_iff.mp h.undisturbed xs (t, m) ys heq
    have hclosing : IsClosing x := by
      rcases hx with rfl | ⟨d, -, rfl⟩ <;> trivial
    rw [run_append, run_cons, run_nil]
    cases m with
    | established d =>
      obtain ⟨hdenied, hblocked, haccept⟩ := hquiet
      have hwhen := @established_closes K _ t peer _ _
        ((run (End.step K peer) (.start a) xs).opened.length + 1) hdenied hblocked haccept x
        hclosing
      refine hwhen.trans ?_
      unfold Actor.losesTieBreak mismatched
      rw [hid, Bool.and_eq_true, decide_eq_true_eq, gt_iff_lt, Nat.lt_add_left_iff_pos,
        List.length_pos_iff]
      constructor
      · rintro ⟨⟨hopen, hwrong⟩, rfl⟩
        exact ⟨d, rfl, hopen, hwrong, rfl⟩
      · rintro ⟨d', hd, hopen, hwrong, rfl⟩
        obtain rfl := Sight.established.inj hd
        exact ⟨⟨hopen, hwrong⟩, rfl⟩
    | closed d => exact iff_of_false (@closed_keeps K _ t peer _ x hclosing) (by simp)
    | other e he =>
      refine iff_of_false (fun hout => hquiet x hout ?_) (by simp)
      rwa [hid]
  unfold End.Cuts
  rw [hid, mem_log, mem_log]
  constructor
  · rintro ((hlog | ⟨xs, m, ys, heq, hx⟩) | (hlog | ⟨xs, m, ys, heq, hx⟩))
    · cases hlog
    · obtain ⟨d, hd, hopen, hwrong, hsame⟩ :=
        (hstep xs m ys _ heq (.inr ⟨c, hc, rfl⟩)).mp hx
      obtain ⟨t, m⟩ := m
      obtain rfl : m = .established d := hd
      obtain rfl := idAt_inj h.ids hc (hmem xs t d ys heq) (Effect.closeConnection.inj hsame)
      exact ⟨xs, t, ys, heq, hopen, hwrong⟩
    · cases hlog
    · obtain ⟨d, -, -, -, hsame⟩ := (hstep xs m ys _ heq (.inl rfl)).mp hx
      cases hsame
  · rintro ⟨xs, t, ys, heq, hopen, hwrong⟩
    exact .inl (.inr ⟨xs, _, ys, heq, (hstep xs _ ys _ heq (.inr ⟨c, hc, rfl⟩)).mpr
      ⟨c, rfl, hopen, hwrong, rfl⟩⟩)

lemma seen_once (h : Sees K peer cs a ms) {c : Connection} (hc : c ∈ cs) :
    ∃ xs t ys, ms = xs ++ (t, .established c) :: ys ∧ ∀ xs' t' ys',
      ms = xs' ++ (t', .established c) :: ys' → xs' = xs := by
  have hcount : (ms.filterMap fun m => m.2.opened?).count c = 1 := by
    rw [h.order.count_eq, List.count_eq_one_of_mem h.ids.of_map hc]
  obtain ⟨⟨t, m⟩, hm, hopened⟩ := List.mem_filterMap.mp (h.order.mem_iff.mpr hc)
  obtain ⟨xs, ys, rfl⟩ := List.append_of_mem hm
  obtain rfl : m = .established c := by
    cases m with
    | established d => rw [Option.some.inj hopened]
    | closed d => cases hopened
    | other e he => cases hopened
  -- a second sight, before the first or after it, is counted too
  have htwice : ∀ (zs : List (Clock × Sight peer)) (x : Clock × Sight peer) us vs,
      zs = us ++ x :: vs → x.2.opened? = some c →
        1 ≤ (zs.filterMap fun m => m.2.opened?).count c := by
    rintro zs x us vs rfl hx
    exact List.count_pos_iff.mpr (List.mem_filterMap.mpr ⟨x, by simp, hx⟩)
  refine ⟨xs, t, ys, rfl, fun xs' t' ys' heq => ?_⟩
  rw [List.filterMap_append, List.count_append,
    @List.filterMap_cons_some _ _ (fun m : Clock × Sight peer => m.2.opened?) _ _ _ hopened,
    List.count_cons_self] at hcount
  rcases List.append_eq_append_iff.mp heq with ⟨as, rfl, has⟩ | ⟨as, rfl, has⟩
  · cases as with
    | nil => simp
    | cons x as =>
      rw [List.cons_append] at has
      obtain ⟨rfl, rfl⟩ := List.cons.inj has
      have hys := htwice (as ++ (t', .established c) :: ys') _ as ys' rfl rfl
      omega
  · cases as with
    | nil => simp
    | cons x as =>
      obtain ⟨rfl, rfl⟩ := List.cons.inj has
      have hxs := htwice (xs' ++ (t', .established c) :: as) _ xs' as rfl rfl
      omega

lemma cuts_iff_alone (h : Sees K peer cs a ms) {c : Connection} (hc : c ∈ cs) :
    (run (End.step K peer) (.start a) ms).Cuts peer c ↔
      mismatched a.identity peer c = true ∧ ¬ Alone K peer (.start a) ms c := by
  obtain ⟨xs, t, ys, heq, honce⟩ := seen_once h hc
  rw [cuts_iff h hc]
  constructor
  · rintro ⟨xs₁, t₁, ys₁, heq₁, hopen, hwrong⟩
    refine ⟨hwrong, ?_⟩
    rintro ⟨xs₂, t₂, ys₂, heq₂, hnone⟩
    rw [honce xs₂ t₂ ys₂ heq₂, ← honce xs₁ t₁ ys₁ heq₁] at hnone
    exact hopen hnone
  · rintro ⟨hwrong, halone⟩
    exact ⟨xs, t, ys, heq, fun hnone => halone ⟨xs, t, ys, heq, hnone⟩, hwrong⟩

/-- Of two peers, named in the order of their ids, some connection is closed by neither exactly
when one was dialed by the first, or one found no other connection open at either end. -/
theorem stays_connected_iff {as : List (Clock × Sight b.identity)}
    {bs : List (Clock × Sight a.identity)} (hab : a.identity.toBytes < b.identity.toBytes)
    (hdialer : ∀ c ∈ cs, c.dialer = a.identity ∨ c.dialer = b.identity)
    (ha : Sees K b.identity cs a as) (hb : Sees K a.identity cs b bs) :
    (∃ c ∈ cs, ¬ (run (End.step K b.identity) (.start a) as).Cuts b.identity c ∧
        ¬ (run (End.step K a.identity) (.start b) bs).Cuts a.identity c) ↔
      (∃ c ∈ cs, c.dialer = a.identity) ∨
        ∃ c ∈ cs, Alone K b.identity (.start a) as c ∧ Alone K a.identity (.start b) bs c := by
  have hne : a.identity ≠ b.identity := fun heq => List.lt_irrefl _ (heq ▸ hab)
  have hsmall : ∀ c : Connection, mismatched a.identity b.identity c = true ↔
      c.dialer ≠ a.identity := by
    intro c
    unfold mismatched Connection.endpointAt
    rw [decide_eq_true hab]
    split_ifs with hd
    · simp [ConnectedPoint.isDialer, hd]
    · simp [ConnectedPoint.isDialer, Ne.symm hd]
  have hlarge : ∀ c ∈ cs, mismatched b.identity a.identity c = true ↔
      c.dialer ≠ a.identity := by
    intro c hc
    unfold mismatched Connection.endpointAt
    rw [decide_eq_false (List.lt_asymm hab)]
    split_ifs with hd
    · simp [ConnectedPoint.isDialer, ← hd, hne.symm]
    · have hd' : c.dialer = a.identity := (hdialer c hc).resolve_right (Ne.symm hd)
      simp [ConnectedPoint.isDialer, hd']
  constructor
  · rintro ⟨c, hc, hcut, hcut'⟩
    rw [cuts_iff_alone ha hc, hsmall] at hcut
    rw [cuts_iff_alone hb hc, hlarge c hc] at hcut'
    by_cases hd : c.dialer = a.identity
    · exact .inl ⟨c, hc, hd⟩
    · refine .inr ⟨c, hc, ?_, ?_⟩
      · by_contra halone
        exact hcut ⟨hd, halone⟩
      · by_contra halone
        exact hcut' ⟨hd, halone⟩
  · rintro (⟨c, hc, hd⟩ | ⟨c, hc, halone, halone'⟩)
    · refine ⟨c, hc, ?_, ?_⟩
      · rw [cuts_iff_alone ha hc, hsmall]
        exact fun h => h.1 hd
      · rw [cuts_iff_alone hb hc, hlarge c hc]
        exact fun h => h.1 hd
    · refine ⟨c, hc, ?_, ?_⟩
      · rw [cuts_iff_alone ha hc]
        exact fun h => h.2 halone
      · rw [cuts_iff_alone hb hc]
        exact fun h => h.2 halone'

def sampleLarge : Actor := .start samplePeer .default false none 0

/-- The address a peer with the larger id dials, over TCP and over QUIC. -/
def overTcp : Connection :=
  ⟨samplePeer, [.ip4 ⟨192, 168, 1, 1⟩, .tcp 4001], [.ip4 ⟨192, 168, 1, 7⟩, .tcp 50000], 0, 0⟩

def overQuic : Connection :=
  ⟨samplePeer, [.ip4 ⟨192, 168, 1, 1⟩, .udp 4001, .quicV1],
    [.ip4 ⟨192, 168, 1, 7⟩, .udp 50001, .quicV1], 1, 1⟩

def seenInOrder {peer : PeerId} (cs : List Connection) : List (Clock × Sight peer) :=
  cs.map fun c => (.still 0 0, .established c)

theorem same_order_stays : ∃ c ∈ [overTcp, overQuic],
    ¬ (run (End.step samplePrimitives sampleLarge.identity) (.start sampleNode)
      (seenInOrder [overTcp, overQuic])).Cuts sampleLarge.identity c ∧
    ¬ (run (End.step samplePrimitives sampleNode.identity) (.start sampleLarge)
      (seenInOrder [overTcp, overQuic])).Cuts sampleNode.identity c := by
  have ha : Sees samplePrimitives sampleLarge.identity [overTcp, overQuic] sampleNode
      (seenInOrder [overTcp, overQuic]) := ⟨by decide, .refl _, by decide +kernel⟩
  have hb : Sees samplePrimitives sampleNode.identity [overTcp, overQuic] sampleLarge
      (seenInOrder [overTcp, overQuic]) := ⟨by decide, .refl _, by decide +kernel⟩
  exact (stays_connected_iff (by decide) (by decide) ha hb).mpr (.inr ⟨overTcp, List.mem_cons_self,
    ⟨[], .still 0 0, seenInOrder [overQuic], rfl, rfl⟩,
    [], .still 0 0, seenInOrder [overQuic], rfl, rfl⟩)

/-- The ends see the two connections in different orders, and each closes its second one. -/
theorem crossed_orders_cut :
    Sees samplePrimitives sampleLarge.identity [overTcp, overQuic] sampleNode
      (seenInOrder [overTcp, overQuic]) ∧
    Sees samplePrimitives sampleNode.identity [overTcp, overQuic] sampleLarge
      (seenInOrder [overQuic, overTcp]) ∧
    ¬ ∃ c ∈ [overTcp, overQuic],
      ¬ (run (End.step samplePrimitives sampleLarge.identity) (.start sampleNode)
        (seenInOrder [overTcp, overQuic])).Cuts sampleLarge.identity c ∧
      ¬ (run (End.step samplePrimitives sampleNode.identity) (.start sampleLarge)
        (seenInOrder [overQuic, overTcp])).Cuts sampleNode.identity c :=
  ⟨⟨by decide, .refl _, by decide +kernel⟩, ⟨by decide, .swap .., by decide +kernel⟩,
    by decide +kernel⟩

end Protonet.TieBreak
