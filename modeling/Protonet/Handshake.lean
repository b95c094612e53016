import Protonet.ConnectionTracking
import Protonet.SwarmDeeds

namespace Protonet.Handshake
open StepRun Record RecordIdentity RateLimit Address Connections Swarm Blocking ConnectionTracking

variable {K : Primitives} {a : Actor} {w : Tracked} {e : Clock × Event} {p peer : PeerId} {t : ℕ}
  {m : ConnectionManager}

/-- The manager has met the peer at an instant and does not know its protocol. -/
def Waiting (m : ConnectionManager) (p : PeerId) (t : ℕ) : Prop :=
  ∃ state ∈ m.peers.lookup p, state.protocolVersion = none ∧ state.connectedAt = t

/-- A connection of the peer is let in, and no other that was let in is open. -/
def Meets (p : PeerId) (t : ℕ) (w : Tracked) (e : Clock × Event) : Prop :=
  ∃ endpoint connection n, e.2 = .connectionEstablished p endpoint connection n ∧
    w.actor.admits p endpoint connection n (e.1.instant 0) = true ∧
    linksOf w.counted p = ∅ ∧ e.1.instant 1 = t

/-- The peer tells a supported protocol, or the last of its connections that were let in closes. -/
def Settles (p : PeerId) (w : Tracked) (e : Clock × Event) : Prop :=
  (∃ protocolVersion, e.2 = .identified p protocolVersion ∧ supported protocolVersion = true) ∨
    LastCloses w e p

/-- The peer was met at an instant of the run and has settled nothing since. -/
def Unverified (K : Primitives) (a : Actor) (es : List (Clock × Event)) (p : PeerId) (t : ℕ) :
    Prop :=
  ∃ xs e ys, es = xs ++ e :: ys ∧ Meets p t (run (Tracked.step K) (.start a) xs) e ∧
    Along (Tracked.step K) (fun w e => ¬Settles p w e)
      (Tracked.step K (run (Tracked.step K) (.start a) xs) e) ys

/-- The connections are established once and closed at most once, and no refused one closes while
its peer has others that were let in. -/
def Regular (w : Tracked) (e : Clock × Event) : Prop := WellFormed w e ∧ ClosesCounted w e

instance (w : Tracked) (e : Clock × Event) : Decidable (ClosesCounted w e) :=
  match e with
  | (c, event) => by
    apply Event.casesOn (motive := fun event => Decidable (ClosesCounted w (c, event))) event <;>
      intros <;> dsimp only [ClosesCounted] <;> infer_instance

instance (w : Tracked) (e : Clock × Event) : Decidable (Regular w e) :=
  inferInstanceAs (Decidable (WellFormed w e ∧ ClosesCounted w e))

lemma waiting_of_lookup (h : m.peers.lookup p = none) : ¬Waiting m p t := by
  rintro ⟨state, hstate, -⟩
  rw [h] at hstate
  cases hstate

lemma waiting_insert {state : PeerConnectionState} : Waiting ⟨m.peers.insert p state⟩ p t ↔
    state.protocolVersion = none ∧ state.connectedAt = t := by
  simp [Waiting]

lemma waiting_insert_ne {state : PeerConnectionState} (h : p ≠ peer) :
    Waiting ⟨m.peers.insert peer state⟩ p t ↔ Waiting m p t := by
  simp [Waiting, AList.lookup_insert_ne h]

lemma waiting_some {state : PeerConnectionState} (h : m.peers.lookup p = some state) :
    Waiting m p t ↔ state.protocolVersion = none ∧ state.connectedAt = t := by
  simp [Waiting, h]

lemma waiting_connected (endpoint : ConnectedPoint) (now : ℕ) :
    Waiting (m.connected peer endpoint now) p t ↔
      p = peer ∧ m.peers.lookup p = none ∧ now = t ∨ Waiting m p t := by
  unfold ConnectionManager.connected
  by_cases hp : p = peer
  · subst hp
    rw [waiting_insert]
    rcases hl : m.peers.lookup p with _ | state
    · simp [waiting_of_lookup hl, PeerConnectionState.first]
    · simp [waiting_some hl]
  · rw [waiting_insert_ne hp]
    simp [hp]

lemma waiting_disconnected : Waiting (m.disconnected peer).2 p t ↔
    Waiting m p t ∧ ¬(p = peer ∧ (m.disconnected peer).1 = true) := by
  unfold ConnectionManager.disconnected
  rcases hl : m.peers.lookup peer with _ | state
  · simp
  · dsimp only
    by_cases hp : p = peer
    · subst hp
      split_ifs with hlast
      · have hnone : ¬Waiting ⟨m.peers.erase p⟩ p t := waiting_of_lookup (by simp)
        simp [hnone]
      · simp [waiting_insert, waiting_some hl]
    · split_ifs
      · simp [Waiting, AList.lookup_erase_ne hp, hp]
      · simp [waiting_insert_ne hp, hp]

lemma waiting_setRtt (rtt : ℕ) : Waiting (m.setRtt peer rtt) p t ↔ Waiting m p t := by
  unfold ConnectionManager.setRtt
  rcases hl : m.peers.lookup peer with _ | state
  · rfl
  · by_cases hp : p = peer
    · subst hp
      rw [waiting_insert, waiting_some hl]
    · exact waiting_insert_ne hp

lemma waiting_setProtocol (protocol : String) :
    Waiting (m.setProtocol peer protocol) p t ↔ Waiting m p t ∧ p ≠ peer := by
  unfold ConnectionManager.setProtocol
  rcases hl : m.peers.lookup peer with _ | state
  · by_cases hp : p = peer
    · subst hp
      simp [waiting_of_lookup hl]
    · simp [hp]
  · by_cases hp : p = peer
    · subst hp
      simp [waiting_insert]
    · simp [waiting_insert_ne hp, hp]

lemma no_links_iff (h : Agree w) :
    linksOf w.counted p = ∅ ↔ w.actor.connections.peers.lookup p = none := by
  rw [← Finset.not_nonempty_iff_eq_empty, ← h.matched.entry p]
  simp

lemma gone_iff (h : Agree w) {c : Clock} {connection : ConnectionId}
    (hregular : Regular w (c, .connectionClosed peer connection)) :
    LastCloses w (c, .connectionClosed peer connection) p ↔
      p = peer ∧ (w.actor.connections.disconnected peer).1 = true := by
  constructor
  · rintro ⟨id, heq, hlinks⟩
    cases heq
    refine ⟨rfl, ?_⟩
    rw [disconnected_fst (matches_iff.mp h.matched).1, h.matched.count, hlinks,
      Finset.card_singleton]
  · rintro ⟨rfl, hgone⟩
    exact lastCloses_of_gone h hregular.2 hgone

lemma waiting_step (h : Agree w) (hregular : Regular w e) :
    Waiting (w.step K e).actor.connections p t ↔
      Meets p t w e ∨ Waiting w.actor.connections p t ∧ ¬Settles p w e := by
  rw [step_connections]
  obtain ⟨c, e⟩ := e
  cases e with
  | connectionEstablished peer endpoint connection n =>
    have hquiet : ¬Settles p w (c, .connectionEstablished peer endpoint connection n) := by
      simp [Settles, LastCloses]
    have hmeets : Meets p t w (c, .connectionEstablished peer endpoint connection n) ↔
        w.actor.admits peer endpoint connection n (c.instant 0) = true ∧ p = peer ∧
          w.actor.connections.peers.lookup p = none ∧ c.instant 1 = t := by
      rw [← no_links_iff h]
      constructor
      · rintro ⟨_, _, _, heq, hadmits, hnone, hnow⟩
        cases heq
        exact ⟨hadmits, rfl, hnone, hnow⟩
      · rintro ⟨hadmits, rfl, hnone, hnow⟩
        exact ⟨endpoint, connection, n, rfl, hadmits, hnone, hnow⟩
    unfold Actor.tracked
    dsimp only
    rw [hmeets]
    split_ifs with hadmits
    · rw [waiting_connected]
      simp [hadmits, hquiet]
    · simp [hadmits, hquiet]
  | connectionClosed peer connection =>
    have hsettles : Settles p w (c, .connectionClosed peer connection) ↔
        p = peer ∧ (w.actor.connections.disconnected peer).1 = true := by
      rw [← gone_iff h hregular]
      simp [Settles]
    have hmeets : ¬Meets p t w (c, .connectionClosed peer connection) := by simp [Meets]
    rw [hsettles]
    exact waiting_disconnected.trans (by simp [hmeets])
  | identified peer protocolVersion =>
    have hsettles : Settles p w (c, .identified peer protocolVersion) ↔
        p = peer ∧ supported protocolVersion = true := by
      constructor
      · rintro (⟨_, heq, hsupported⟩ | ⟨id, heq, -⟩)
        · cases heq
          exact ⟨rfl, hsupported⟩
        · cases heq
      · rintro ⟨rfl, hsupported⟩
        exact .inl ⟨protocolVersion, rfl, hsupported⟩
    have hmeets : ¬Meets p t w (c, .identified peer protocolVersion) := by simp [Meets]
    unfold Actor.tracked
    dsimp only
    rw [hsettles]
    split_ifs with hsupported
    · rw [waiting_setProtocol]
      simp [hmeets, hsupported]
    · simp [hmeets, hsupported]
  | pinged peer rtt =>
    have hmeets : ¬Meets p t w (c, .pinged peer rtt) := by simp [Meets]
    have hquiet : ¬Settles p w (c, .pinged peer rtt) := by simp [Settles, LastCloses]
    exact (waiting_setRtt rtt).trans (by simp [hmeets, hquiet])
  | _ => simp [Actor.tracked, Meets, Settles, LastCloses]

lemma run_actor (es : List (Clock × Event)) :
    (run (Tracked.step K) w es).actor = run (Actor.step K) w.actor es := by
  induction es generalizing w with
  | nil => rfl
  | cons e es ih => rw [run_cons, run_cons, ih, step_actor]

/-- What the manager keeps of a peer that has not told its protocol is what the run says. -/
lemma waiting_run (hstart : a.connections = .empty) {es : List (Clock × Event)}
    (hregular : Along (Tracked.step K) Regular (.start a) es) :
    Waiting (run (Actor.step K) a es).connections p t ↔ Unverified K a es p t := by
  have hnone : ¬Waiting (Tracked.start a).actor.connections p t := by
    change ¬Waiting a.connections p t
    rw [hstart]
    exact waiting_of_lookup (by simp [ConnectionManager.empty])
  have hsteps := along_of_invariant (agree_start hstart) hregular
    (fun _ _ hagree hr => agree_step hagree hr.1 hr.2)
    fun _ _ hagree hr => @waiting_step K _ _ p t hagree hr
  have hsince := since_iff (P := fun w : Tracked => Waiting w.actor.connections p t) hsteps
  have hactor : (run (Tracked.step K) (.start a) es).actor = run (Actor.step K) a es := run_actor es
  rw [← hactor, hsince]
  exact or_iff_left fun h => hnone h.1

def dropped (outbox : List Effect) : List PeerId :=
  outbox.filterMap fun effect =>
    match effect with
    | .disconnectPeer peer => some peer
    | _ => none

lemma dropped_finishSync : dropped (a.finishSync peer).outbox = dropped a.outbox := by
  unfold Actor.finishSync
  split
  · rfl
  · simp [dropped, Actor.notify, Actor.emit]

lemma dropped_sweep (peers : List PeerId) :
    dropped (peers.foldl Actor.dropUnverified a).outbox = dropped a.outbox ++ peers := by
  induction peers generalizing a with
  | nil => simp
  | cons peer peers ih =>
    rw [List.foldl_cons, ih]
    simp [dropped, Actor.dropUnverified, Actor.violation, Actor.notify, Actor.emit]

lemma dropped_snapshotTick (c : Clock) : dropped (a.snapshotTick c).outbox = dropped a.outbox ++
    a.connections.unverifiedPeersOlderThan HANDSHAKE_TIMEOUT (c.instant 0) := by
  have hfinish (peers : List PeerId) (b : Actor) :
      dropped (peers.foldl (fun a peer => (a.dropPending peer).finishSync peer) b).outbox =
        dropped b.outbox := by
    induction peers generalizing b with
    | nil => rfl
    | cons peer peers ih =>
      rw [List.foldl_cons, ih, dropped_finishSync]
      rfl
  unfold Actor.snapshotTick
  dsimp only
  rw [hfinish, dropped_sweep]

lemma mem_unverifiedPeersOlderThan {age now : ℕ} : p ∈ m.unverifiedPeersOlderThan age now ↔
    ∃ t, Waiting m p t ∧ age < now - t := by
  unfold ConnectionManager.unverifiedPeersOlderThan Waiting
  constructor
  · intro hp
    obtain ⟨⟨q, state⟩, hmem, rfl⟩ := List.mem_map.mp hp
    obtain ⟨hentry, hold⟩ := List.mem_filter.mp hmem
    have hlookup := (AList.mem_lookup_iff (s := m.peers)).mpr hentry
    simp only [Bool.and_eq_true, Option.isNone_iff_eq_none, decide_eq_true_eq] at hold
    exact ⟨state.connectedAt, ⟨state, hlookup, hold.1, rfl⟩, hold.2⟩
  · rintro ⟨t, ⟨state, hlookup, hnone, rfl⟩, hold⟩
    have hentry := (AList.mem_lookup_iff (s := m.peers)).mp hlookup
    refine List.mem_map.mpr ⟨⟨p, state⟩, List.mem_filter.mpr ⟨hentry, ?_⟩, rfl⟩
    simp only [Bool.and_eq_true, Option.isNone_iff_eq_none, decide_eq_true_eq]
    exact ⟨hnone, hold⟩

/-- In every regular run from a new engine, a sweep disconnects exactly the peers that were met
longer ago than the timeout and have since neither told a supported protocol nor lost the last of
their connections. -/
theorem handshake_swept (hstart : a.connections = .empty) {es : List (Clock × Event)}
    (hregular : Along (Tracked.step K) Regular (.start a) es) (c : Clock) (p : PeerId) :
    p ∈ dropped ((run (Actor.step K) a es).step K (c, .snapshotTick)).outbox ↔
      ∃ t, Unverified K a es p t ∧ HANDSHAKE_TIMEOUT < c.instant 0 - t := by
  have hsweep : dropped ((run (Actor.step K) a es).step K (c, .snapshotTick)).outbox =
      (run (Actor.step K) a es).connections.unverifiedPeersOlderThan HANDSHAKE_TIMEOUT
        (c.instant 0) := dropped_snapshotTick c
  rw [hsweep, mem_unverifiedPeersOlderThan]
  exact exists_congr fun t => and_congr_left' (waiting_run hstart hregular)

/-- A peer connects twice, the second connection is refused, the first closes, and a third is
opened; it says nothing. -/
def sampleSilent : List (Clock × Event) :=
  sampleLinks [1, 2] ++
    atOnce [.connectionEstablished samplePeer (.listener [.ip4 ⟨1, 2, 3, 4⟩, .tcp 4003]) 3 1]

theorem handshake_swept_sample :
    ∃ t, Unverified samplePrimitives sampleNode sampleSilent samplePeer t ∧
      HANDSHAKE_TIMEOUT < (Clock.still (11 * second) 0).instant 0 - t :=
  (handshake_swept rfl (by decide +kernel) (.still (11 * second) 0) samplePeer).mp
    (by decide +kernel)

end Protonet.Handshake
