import Protonet.Address

/-!
# Connection tracking

One entry for each peer, created by its first connection and removed with its last one. Activity
times and byte counts are kept for display only and are left out.
-/
namespace Protonet.Connections
open Record Address

def MAX_CONNECTIONS_PER_IP_PREFIX : ℕ := 8
def MAX_RELAY_ONLY_CONNECTIONS : ℕ := 25

inductive ConnectedPoint
  | dialer (address : Multiaddr)
  | listener (sendBackAddr : Multiaddr)
  deriving DecidableEq

def ConnectedPoint.address : ConnectedPoint → Multiaddr
  | .dialer address => address
  | .listener sendBackAddr => sendBackAddr

def ConnectedPoint.isDialer : ConnectedPoint → Bool
  | .dialer _ => true
  | .listener _ => false

structure PeerConnectionState where
  connectionCount : ℕ
  transport : TransportKind
  directness : Directness
  address : Multiaddr
  connectedAt : ℕ
  roundTripTime : Option ℕ
  protocolVersion : Option String

structure ConnectionManager where
  peers : AList (fun _ : PeerId => PeerConnectionState)

def ConnectionManager.empty : ConnectionManager := ⟨∅⟩

def ConnectionManager.states (m : ConnectionManager) : List PeerConnectionState :=
  m.peers.entries.map Sigma.snd

def ConnectionManager.canAccept (m : ConnectionManager) (endpoint : ConnectedPoint) : Bool :=
  let (_, directness) := classifyAddress endpoint.address
  if directness = .relayed ∧
      (m.states.filter fun s => s.directness = .relayed).length ≥ MAX_RELAY_ONLY_CONNECTIONS then
    false
  else
    match addressPrefix endpoint.address with
    | none => decide (directness = .relayed)
    | some p => decide ((m.states.filter fun s => addressPrefix s.address = some p).length <
        MAX_CONNECTIONS_PER_IP_PREFIX)

/-- The entry a first connection creates, before it is counted. -/
def PeerConnectionState.first (endpoint : ConnectedPoint) (now : ℕ) : PeerConnectionState :=
  let (transport, directness) := classifyAddress endpoint.address
  ⟨0, transport, directness, endpoint.address, now, none, none⟩

/-- Counts stay far below the word size, so the saturating sum is a plain one. -/
def ConnectionManager.connected (m : ConnectionManager) (peer : PeerId)
    (endpoint : ConnectedPoint) (now : ℕ) : ConnectionManager :=
  let state := (m.peers.lookup peer).getD (.first endpoint now)
  ⟨m.peers.insert peer { state with connectionCount := state.connectionCount + 1 }⟩

def ConnectionManager.disconnected (m : ConnectionManager) (peer : PeerId) :
    Bool × ConnectionManager :=
  match m.peers.lookup peer with
  | none => (false, m)
  | some state =>
    if state.connectionCount - 1 = 0 then (true, ⟨m.peers.erase peer⟩)
    else
      (false, ⟨m.peers.insert peer { state with connectionCount := state.connectionCount - 1 }⟩)

def ConnectionManager.setRtt (m : ConnectionManager) (peer : PeerId) (rtt : ℕ) :
    ConnectionManager :=
  match m.peers.lookup peer with
  | none => m
  | some state => ⟨m.peers.insert peer { state with roundTripTime := some rtt }⟩

def ConnectionManager.setProtocol (m : ConnectionManager) (peer : PeerId) (protocol : String) :
    ConnectionManager :=
  match m.peers.lookup peer with
  | none => m
  | some state => ⟨m.peers.insert peer { state with protocolVersion := some protocol }⟩

def ConnectionManager.sourceKeys (m : ConnectionManager) (peer : PeerId) :
    Option (IpAddr × Prefix) :=
  match m.peers.lookup peer with
  | none => none
  | some state =>
    match addressIp state.address, addressPrefix state.address with
    | some ip, some p => some (ip, p)
    | _, _ => none

def ConnectionManager.unverifiedPeersOlderThan (m : ConnectionManager) (age now : ℕ) :
    List PeerId :=
  (m.peers.entries.filter fun e => e.2.protocolVersion.isNone && now - e.2.connectedAt > age).map
    Sigma.fst

/-- The number of connections an entry counts, zero without an entry. -/
def ConnectionManager.count (m : ConnectionManager) (peer : PeerId) : ℕ :=
  ((m.peers.lookup peer).map PeerConnectionState.connectionCount).getD 0

def ConnectionManager.Positive (m : ConnectionManager) : Prop :=
  ∀ peer, ∀ state ∈ m.peers.lookup peer, 0 < state.connectionCount

lemma empty_positive : ConnectionManager.empty.Positive := by
  intro peer state h
  simp [ConnectionManager.empty] at h

lemma isSome_iff_count {m : ConnectionManager} (h : m.Positive) (peer : PeerId) :
    (m.peers.lookup peer).isSome ↔ 0 < m.count peer := by
  unfold ConnectionManager.count
  rcases hl : m.peers.lookup peer with _ | state
  · simp
  · simpa using h peer state hl

lemma count_insert (m : ConnectionManager) (peer p : PeerId) (state : PeerConnectionState) :
    (⟨m.peers.insert peer state⟩ : ConnectionManager).count p =
      if p = peer then state.connectionCount else m.count p := by
  unfold ConnectionManager.count
  split_ifs with h
  · rw [h, AList.lookup_insert]
    rfl
  · rw [AList.lookup_insert_ne h]

lemma count_of_lookup {m : ConnectionManager} {peer : PeerId} {state : PeerConnectionState}
    (h : m.peers.lookup peer = some state) : m.count peer = state.connectionCount := by
  simp [ConnectionManager.count, h]

lemma positive_insert {m : ConnectionManager} (h : m.Positive) {peer : PeerId}
    {state : PeerConnectionState} (hstate : 0 < state.connectionCount) :
    (⟨m.peers.insert peer state⟩ : ConnectionManager).Positive := by
  intro p s hs
  by_cases hp : p = peer
  · subst hp
    rw [AList.lookup_insert, Option.mem_some_iff] at hs
    exact hs ▸ hstate
  · rw [AList.lookup_insert_ne hp] at hs
    exact h p s hs

lemma connected_count (m : ConnectionManager) (peer p : PeerId) (endpoint : ConnectedPoint)
    (now : ℕ) : (m.connected peer endpoint now).count p =
      if p = peer then m.count p + 1 else m.count p := by
  unfold ConnectionManager.connected
  rw [count_insert]
  split_ifs with h
  · subst h
    unfold ConnectionManager.count
    rcases m.peers.lookup p with _ | state
    · simp [PeerConnectionState.first]
    · simp
  · rfl

lemma connected_positive {m : ConnectionManager} (h : m.Positive) (peer : PeerId)
    (endpoint : ConnectedPoint) (now : ℕ) : (m.connected peer endpoint now).Positive :=
  positive_insert h (Nat.succ_pos _)

lemma disconnected_count (m : ConnectionManager) (peer p : PeerId) :
    (m.disconnected peer).2.count p = if p = peer then m.count p - 1 else m.count p := by
  unfold ConnectionManager.disconnected
  rcases hl : m.peers.lookup peer with _ | state
  · by_cases hp : p = peer
    · subst hp
      simp [ConnectionManager.count, hl]
    · simp [hp]
  · by_cases hz : state.connectionCount - 1 = 0
    · by_cases hp : p = peer
      · subst hp
        simp [ConnectionManager.count, hl, hz]
      · simp [ConnectionManager.count, hz, AList.lookup_erase_ne hp, hp]
    · dsimp only
      rw [if_neg hz, count_insert]
      split_ifs with hp
      · rw [hp, count_of_lookup hl]
      · rfl

lemma disconnected_positive {m : ConnectionManager} (h : m.Positive) (peer : PeerId) :
    (m.disconnected peer).2.Positive := by
  unfold ConnectionManager.disconnected
  rcases hl : m.peers.lookup peer with _ | state
  · exact h
  · by_cases hz : state.connectionCount - 1 = 0
    · intro p s hs
      simp only [hz, if_true] at hs
      by_cases hp : p = peer
      · subst hp
        simp at hs
      · rw [AList.lookup_erase_ne hp] at hs
        exact h p s hs
    · dsimp only
      rw [if_neg hz]
      exact positive_insert h (Nat.pos_of_ne_zero hz)

lemma disconnected_fst {m : ConnectionManager} (h : m.Positive) (peer : PeerId) :
    (m.disconnected peer).1 = true ↔ m.count peer = 1 := by
  unfold ConnectionManager.disconnected ConnectionManager.count
  rcases hl : m.peers.lookup peer with _ | state
  · simp
  · have hpos := h peer state hl
    by_cases hz : state.connectionCount - 1 = 0
    · simp only [hz, if_true, true_iff, Option.map_some, Option.getD_some]
      omega
    · simp only [hz, if_false, Bool.false_eq_true, false_iff, Option.map_some, Option.getD_some]
      omega

lemma count_refresh {m : ConnectionManager} {peer : PeerId} {state state' : PeerConnectionState}
    (hl : m.peers.lookup peer = some state)
    (hsame : state'.connectionCount = state.connectionCount) (p : PeerId) :
    (⟨m.peers.insert peer state'⟩ : ConnectionManager).count p = m.count p := by
  rw [count_insert]
  split_ifs with h
  · rw [h, count_of_lookup hl, hsame]
  · rfl

lemma setRtt_count (m : ConnectionManager) (peer p : PeerId) (rtt : ℕ) :
    (m.setRtt peer rtt).count p = m.count p := by
  unfold ConnectionManager.setRtt
  rcases hl : m.peers.lookup peer with _ | state
  · rfl
  · dsimp only
    exact count_refresh hl (by rfl) p

lemma setProtocol_count (m : ConnectionManager) (peer p : PeerId) (protocol : String) :
    (m.setProtocol peer protocol).count p = m.count p := by
  unfold ConnectionManager.setProtocol
  rcases hl : m.peers.lookup peer with _ | state
  · rfl
  · dsimp only
    exact count_refresh hl (by rfl) p

lemma setRtt_positive {m : ConnectionManager} (h : m.Positive) (peer : PeerId) (rtt : ℕ) :
    (m.setRtt peer rtt).Positive := by
  unfold ConnectionManager.setRtt
  rcases hl : m.peers.lookup peer with _ | state
  · exact h
  · exact positive_insert h (h peer state hl)

lemma setProtocol_positive {m : ConnectionManager} (h : m.Positive) (peer : PeerId)
    (protocol : String) : (m.setProtocol peer protocol).Positive := by
  unfold ConnectionManager.setProtocol
  rcases hl : m.peers.lookup peer with _ | state
  · exact h
  · exact positive_insert h (h peer state hl)

end Protonet.Connections
