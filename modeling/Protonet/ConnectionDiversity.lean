import Protonet.Blocking

/-!
# Connection diversity

The limits on connections of one address prefix and on relayed ones are checked against the
tracked entries, one for each peer with the address of its first connection. Next to them stand
the connections that passed the handler and are still open.
-/
namespace Protonet.ConnectionDiversity
open MachineInt StepRun Record Address Connections Swarm RecordIdentity Blocking

/-- An open connection that passed the handler. -/
structure Guest where
  connection : ConnectionId
  peer : PeerId
  address : Multiaddr
  deriving DecidableEq

def isRelayed (address : Multiaddr) : Bool := decide ((classifyAddress address).2 = .relayed)

/-- How many addresses of a list share a prefix. -/
def inPrefix (addresses : List Multiaddr) (p : Prefix) : ℕ :=
  addresses.countP fun address => decide (addressPrefix address = some p)

def relays (addresses : List Multiaddr) : ℕ := addresses.countP isRelayed

def entriesIn (m : ConnectionManager) (p : Prefix) : ℕ :=
  (m.states.filter fun s => addressPrefix s.address = some p).length

def relayEntries (m : ConnectionManager) : ℕ :=
  (m.states.filter fun s => s.directness = .relayed).length

structure Roster where
  actor : Actor
  guests : List Guest

def Roster.start (a : Actor) : Roster := ⟨a, []⟩

def Roster.addresses (r : Roster) : List Multiaddr := r.guests.map Guest.address

def Roster.step (K : Primitives) (r : Roster) (e : Clock × Event) : Roster :=
  match e.2 with
  | .connectionEstablished peer endpoint connection numEstablished =>
    { actor := r.actor.step K e
      guests := if r.actor.admits peer endpoint connection numEstablished (e.1.instant 0) then
        ⟨connection, peer, endpoint.address⟩ :: r.guests else r.guests }
  | .connectionClosed peer connection =>
    { actor := r.actor.step K e
      guests := r.guests.filter fun g => ¬(g.connection = connection ∧ g.peer = peer) }
  | _ => { r with actor := r.actor.step K e }

/-- The limits hold of the open connections. -/
structure Within (r : Roster) : Prop where
  prefixes : ∀ p, inPrefix r.addresses p ≤ MAX_CONNECTIONS_PER_IP_PREFIX
  relayed : relays r.addresses ≤ MAX_RELAY_ONLY_CONNECTIONS

/-- One of the limits that concern an address is reached. -/
def AtLimit (address : Multiaddr) (inPrefix : Prefix → ℕ) (relays : ℕ) : Prop :=
  (∃ p ∈ addressPrefix address, MAX_CONNECTIONS_PER_IP_PREFIX ≤ inPrefix p) ∨
    isRelayed address = true ∧ MAX_RELAY_ONLY_CONNECTIONS ≤ relays

/-- A peer with an open connection that was let in is refused another one by the earlier checks or
by the tie-break, and a connection that closes was let in, or its peer has none that was. -/
def Single (r : Roster) (e : Clock × Event) : Prop :=
  match e.2 with
  | .connectionEstablished peer endpoint connection numEstablished =>
    (r.actor.deniedConnections.peek connection).isNone = true →
    (∀ d ∈ r.actor.blocked.peek peer, d ≤ e.1.instant 0) →
    r.actor.losesTieBreak peer endpoint numEstablished = false → ∀ g ∈ r.guests, g.peer ≠ peer
  | .connectionClosed peer connection =>
    (∃ g ∈ r.guests, g.connection = connection ∧ g.peer = peer) ∨ ∀ g ∈ r.guests, g.peer ≠ peer
  | _ => True

instance (r : Roster) (e : Clock × Event) : Decidable (Single r e) :=
  match e with
  | (c, event) => by
    apply Event.casesOn (motive := fun event => Decidable (Single r (c, event))) event <;>
      intros <;> dsimp only [Single] <;> infer_instance

variable {K : Primitives} {r : Roster} {e : Clock × Event}

lemma canAccept_iff {m : ConnectionManager} {endpoint : ConnectedPoint} :
    m.canAccept endpoint = true ↔
      ¬ AtLimit endpoint.address (entriesIn m) (relayEntries m) ∧
        ((addressPrefix endpoint.address).isSome ∨ isRelayed endpoint.address = true) := by
  unfold ConnectionManager.canAccept AtLimit isRelayed entriesIn relayEntries
  rcases hc : classifyAddress endpoint.address with ⟨transport, directness⟩
  by_cases hr : directness = .relayed
  · by_cases hfull : MAX_RELAY_ONLY_CONNECTIONS ≤
        (m.states.filter fun s => s.directness = .relayed).length
    · simp [hr, hfull]
    · rcases addressPrefix endpoint.address with _ | p <;> simp [hr, hfull]
  · rcases addressPrefix endpoint.address with _ | p <;> simp [hr]

lemma within_cons_iff {g : Guest} (h : Within r) :
    Within { r with guests := g :: r.guests } ↔
      ¬ AtLimit g.address (inPrefix r.addresses) (relays r.addresses) := by
  have hin : ∀ p, inPrefix (Roster.addresses { r with guests := g :: r.guests }) p =
      inPrefix r.addresses p + if addressPrefix g.address = some p then 1 else 0 := by
    intro p
    simp [inPrefix, Roster.addresses, List.countP_cons]
  have hrelays : relays (Roster.addresses { r with guests := g :: r.guests }) =
      relays r.addresses + if isRelayed g.address then 1 else 0 := by
    simp [relays, Roster.addresses, List.countP_cons]
  constructor
  · rintro hw (⟨p, hp, hfull⟩ | ⟨hrelayed, hfull⟩)
    · have hle := hw.prefixes p
      rw [hin, if_pos (Option.mem_def.mp hp)] at hle
      omega
    · have hle := hw.relayed
      rw [hrelays, if_pos hrelayed] at hle
      omega
  · intro hfree
    rw [AtLimit, not_or] at hfree
    refine ⟨fun p => ?_, ?_⟩
    · rw [hin]
      have hle := h.prefixes p
      split_ifs with hp
      · have hlt : ¬ MAX_CONNECTIONS_PER_IP_PREFIX ≤ inPrefix r.addresses p :=
          fun hfull => hfree.1 ⟨p, hp, hfull⟩
        omega
      · exact hle
    · rw [hrelays]
      have hle := h.relayed
      split_ifs with hr
      · have hlt : ¬ MAX_RELAY_ONLY_CONNECTIONS ≤ relays r.addresses :=
          fun hfull => hfree.2 ⟨hr, hfull⟩
        omega
      · exact hle

lemma within_filter (h : Within r) (keep : Guest → Bool) :
    Within { r with guests := r.guests.filter keep } := by
  have hsub : (Roster.addresses { r with guests := r.guests.filter keep }).Sublist r.addresses :=
    List.filter_sublist.map Guest.address
  exact ⟨fun p => (hsub.countP_le).trans (h.prefixes p), (hsub.countP_le).trans h.relayed⟩

lemma Within.of_guests {s : Roster} (h : Within r) (hs : s.guests = r.guests) : Within s := by
  have haddresses : s.addresses = r.addresses := congrArg (List.map Guest.address) hs
  exact ⟨fun p => haddresses ▸ h.prefixes p, haddresses ▸ h.relayed⟩

lemma admits_iff {a : Actor} {peer : PeerId} {endpoint : ConnectedPoint} {id : ConnectionId}
    {n now : ℕ} : a.admits peer endpoint id n now = true ↔
      (a.deniedConnections.peek id).isNone = true ∧ (∀ d ∈ a.blocked.peek peer, d ≤ now) ∧
        a.connections.canAccept endpoint = true ∧ a.losesTieBreak peer endpoint n = false := by
  have hblocked : (!(a.isBlocked peer now).1) = true ↔ ∀ d ∈ a.blocked.peek peer, d ≤ now := by
    rw [Bool.not_eq_true', ← Bool.not_eq_true, isBlocked_fst]
    push Not
    rfl
  unfold Actor.admits
  rw [Bool.and_eq_true, Bool.and_eq_true, Bool.and_eq_true, hblocked, Bool.not_eq_true', and_assoc,
    and_assoc]

def shown (s : PeerConnectionState) : ℕ × Multiaddr × Directness :=
  (s.connectionCount, s.address, s.directness)

/-- The entry that shows one connection as it is. -/
def Guest.entry (g : Guest) : ℕ × Multiaddr × Directness :=
  (1, g.address, (classifyAddress g.address).2)

/-- The entries are those of the open connections, one for each peer. -/
structure Mirrored (r : Roster) : Prop where
  unique : (r.guests.map Guest.peer).Nodup
  entries : ∀ p v, v ∈ (r.actor.connections.peers.lookup p).map shown ↔
    ∃ g ∈ r.guests, g.peer = p ∧ g.entry = v

lemma Mirrored.countP_le (h : Mirrored r) {q : Guest → Bool} {q' : PeerConnectionState → Bool}
    (hq : ∀ g s, q g = true → shown s = g.entry → q' s = true) :
    r.guests.countP q ≤ (r.actor.connections.states.filter q').length := by
  set m := r.actor.connections with hm
  have hsub : (r.guests.filter q).map Guest.peer ⊆
      (m.peers.entries.filter fun e => q' e.2).map Sigma.fst := by
    intro p hp
    obtain ⟨g, hg, rfl⟩ := List.mem_map.mp hp
    obtain ⟨hguest, hkind⟩ := List.mem_filter.mp hg
    obtain ⟨s, hs, hshown⟩ := Option.mem_map.mp ((h.entries g.peer g.entry).mpr ⟨g, hguest, rfl, rfl⟩)
    exact List.mem_map.mpr ⟨⟨g.peer, s⟩, List.mem_filter.mpr
      ⟨AList.mem_lookup_iff.mp hs, hq g s hkind hshown⟩, rfl⟩
  have hnodup : ((r.guests.filter q).map Guest.peer).Nodup :=
    h.unique.sublist (List.filter_sublist.map Guest.peer)
  have hle := (List.subperm_of_subset hnodup hsub).length_le
  rw [List.length_map, List.length_map] at hle
  rw [List.countP_eq_length_filter, ConnectionManager.states, List.filter_map, List.length_map]
  exact hle

lemma Mirrored.inPrefix_le (h : Mirrored r) (p : Prefix) :
    inPrefix r.addresses p ≤ entriesIn r.actor.connections p := by
  unfold inPrefix Roster.addresses entriesIn
  rw [List.countP_map]
  refine h.countP_le fun g s hg hs => ?_
  have haddress : s.address = g.address := congrArg (fun v => v.2.1) hs
  rw [haddress]
  exact hg

lemma Mirrored.relays_le (h : Mirrored r) :
    relays r.addresses ≤ relayEntries r.actor.connections := by
  unfold relays Roster.addresses relayEntries
  rw [List.countP_map]
  refine h.countP_le fun g s hg hs => ?_
  have hdirectness : s.directness = (classifyAddress g.address).2 := congrArg (fun v => v.2.2) hs
  rw [hdirectness]
  exact hg

/-- An address the open connections leave no room for has none among the entries either. -/
lemma AtLimit.mono {address : Multiaddr} {i j : Prefix → ℕ} {k l : ℕ} (hij : ∀ p, i p ≤ j p)
    (hkl : k ≤ l) (h : AtLimit address i k) : AtLimit address j l := by
  rcases h with ⟨p, hp, hfull⟩ | ⟨hrelayed, hfull⟩
  · exact .inl ⟨p, hp, hfull.trans (hij p)⟩
  · exact .inr ⟨hrelayed, hfull.trans hkl⟩

lemma step_connections : (r.step K e).actor.connections = r.actor.tracked e.1 e.2 := by
  have hactor : (r.step K e).actor = r.actor.step K e := by
    unfold Roster.step
    split <;> rfl
  rw [hactor, step_tracked]

lemma lookup_connected {m : ConnectionManager} {peer : PeerId} {endpoint : ConnectedPoint}
    {now : ℕ} (hnone : m.peers.lookup peer = none) (p : PeerId) :
    ((m.connected peer endpoint now).peers.lookup p).map shown =
      if p = peer then some (1, endpoint.address, (classifyAddress endpoint.address).2)
      else (m.peers.lookup p).map shown := by
  unfold ConnectionManager.connected
  rw [hnone]
  split_ifs with hp
  · rw [hp, AList.lookup_insert]
    rfl
  · rw [AList.lookup_insert_ne hp]

lemma lookup_disconnected {m : ConnectionManager} {peer : PeerId}
    (hsole : ∀ s ∈ m.peers.lookup peer, s.connectionCount = 1) (p : PeerId) :
    (m.disconnected peer).2.peers.lookup p = if p = peer then none else m.peers.lookup p := by
  unfold ConnectionManager.disconnected
  rcases hl : m.peers.lookup peer with _ | s
  · split_ifs with hp
    · rw [hp, hl]
    · rfl
  · have hz : s.connectionCount - 1 = 0 := by rw [hsole s hl]
    simp only [hz, if_true]
    split_ifs with hp
    · rw [hp, AList.lookup_erase]
    · rw [AList.lookup_erase_ne hp]

lemma Mirrored.of_lookup {s : Roster} (h : Mirrored r) (hguests : s.guests = r.guests)
    (hlookup : ∀ p, (s.actor.connections.peers.lookup p).map shown =
      (r.actor.connections.peers.lookup p).map shown) : Mirrored s := by
  refine ⟨by rw [hguests]; exact h.unique, fun p v => ?_⟩
  rw [hlookup, hguests]
  exact h.entries p v

lemma lookup_refresh {m : ConnectionManager} {peer : PeerId} {s s' : PeerConnectionState}
    (hl : m.peers.lookup peer = some s) (hsame : shown s' = shown s) (p : PeerId) :
    ((m.peers.insert peer s').lookup p).map shown = (m.peers.lookup p).map shown := by
  by_cases hp : p = peer
  · rw [hp, AList.lookup_insert, hl]
    exact congrArg some hsame
  · rw [AList.lookup_insert_ne hp]

lemma lookup_setRtt (m : ConnectionManager) (peer p : PeerId) (rtt : ℕ) :
    ((m.setRtt peer rtt).peers.lookup p).map shown = (m.peers.lookup p).map shown := by
  unfold ConnectionManager.setRtt
  rcases hl : m.peers.lookup peer with _ | s
  · rfl
  · exact lookup_refresh hl (by rfl) p

lemma lookup_setProtocol (m : ConnectionManager) (peer p : PeerId) (protocol : String) :
    ((m.setProtocol peer protocol).peers.lookup p).map shown = (m.peers.lookup p).map shown := by
  unfold ConnectionManager.setProtocol
  rcases hl : m.peers.lookup peer with _ | s
  · rfl
  · exact lookup_refresh hl (by rfl) p

lemma Mirrored.lookup_eq_none (h : Mirrored r) {peer : PeerId}
    (hnone : ∀ g ∈ r.guests, g.peer ≠ peer) : r.actor.connections.peers.lookup peer = none := by
  rcases hl : r.actor.connections.peers.lookup peer with _ | s
  · rfl
  · obtain ⟨g, hg, hpeer, -⟩ := (h.entries peer (shown s)).mp (by rw [hl]; rfl)
    exact absurd hpeer (hnone g hg)

lemma Mirrored.connected (h : Mirrored r) {peer : PeerId} {endpoint : ConnectedPoint}
    {id : ConnectionId} {now : ℕ} {a : Actor} (hnone : ∀ g ∈ r.guests, g.peer ≠ peer)
    (ha : a.connections = r.actor.connections.connected peer endpoint now) :
    Mirrored ⟨a, ⟨id, peer, endpoint.address⟩ :: r.guests⟩ := by
  constructor
  · rw [List.map_cons, List.nodup_cons]
    refine ⟨fun hmem => ?_, h.unique⟩
    obtain ⟨g, hg, hpeer⟩ := List.mem_map.mp hmem
    exact hnone g hg hpeer
  · intro p v
    rw [ha, lookup_connected (h.lookup_eq_none hnone), List.exists_mem_cons_iff]
    split_ifs with hp
    · rw [Option.mem_some_iff]
      constructor
      · exact fun hv => .inl ⟨hp.symm, hv⟩
      · rintro (⟨-, hv⟩ | ⟨g, hg, hpeer, -⟩)
        · exact hv
        · exact absurd (hpeer.trans hp) (hnone g hg)
    · rw [h.entries p v]
      refine (or_iff_right ?_).symm
      exact fun hnew => hp hnew.1.symm

/-- A close that the entries account for takes the entry of its peer along. -/
lemma Mirrored.disconnected (h : Mirrored r) {peer : PeerId} {id : ConnectionId} {a : Actor}
    (hclose : (∃ g ∈ r.guests, g.connection = id ∧ g.peer = peer) ∨ ∀ g ∈ r.guests, g.peer ≠ peer)
    (ha : a.connections = (r.actor.connections.disconnected peer).2) :
    Mirrored ⟨a, r.guests.filter fun g => ¬(g.connection = id ∧ g.peer = peer)⟩ := by
  have hsole : ∀ s ∈ r.actor.connections.peers.lookup peer, s.connectionCount = 1 := by
    intro s hs
    obtain ⟨g, -, -, hshown⟩ := (h.entries peer (shown s)).mp (Option.mem_map_of_mem shown hs)
    exact (congrArg Prod.fst hshown).symm
  -- no connection of the peer stays, since it had no other one
  have hstay : ∀ g, g ∈ r.guests.filter (fun g => ¬(g.connection = id ∧ g.peer = peer)) ↔
      g ∈ r.guests ∧ g.peer ≠ peer := by
    intro g
    rw [List.mem_filter, decide_eq_true_eq]
    refine and_congr_right fun hg => ⟨fun hother hpeer => ?_, fun hpeer hsame => hpeer hsame.2⟩
    rcases hclose with ⟨x, hx, hid, hxpeer⟩ | hnone
    · have hsame : g = x := List.inj_on_of_nodup_map h.unique hg hx (hpeer.trans hxpeer.symm)
      exact hother ⟨hsame ▸ hid, hpeer⟩
    · exact hnone g hg hpeer
  constructor
  · exact h.unique.sublist (List.filter_sublist.map Guest.peer)
  · intro p v
    rw [ha, lookup_disconnected hsole]
    simp only [hstay]
    split_ifs with hp
    · refine iff_of_false (Option.not_mem_none v) ?_
      rintro ⟨g, ⟨-, hpeer⟩, hgp, -⟩
      exact hpeer (hgp.trans hp)
    · rw [h.entries p v]
      refine exists_congr fun g => ?_
      constructor
      · rintro ⟨hg, rfl, hv⟩
        exact ⟨⟨hg, hp⟩, rfl, hv⟩
      · rintro ⟨⟨hg, -⟩, hgp, hv⟩
        exact ⟨hg, hgp, hv⟩

/-- One open connection for each peer, shown by the entries, and within the limits. -/
lemma single_step (hm : Mirrored r) (hw : Within r) (hs : Single r e) :
    Mirrored (r.step K e) ∧ Within (r.step K e) := by
  have hconnections := step_connections (K := K) (r := r) (e := e)
  obtain ⟨c, e⟩ := e
  cases e with
  | connectionEstablished peer endpoint id n =>
    have hstep : (r.step K (c, .connectionEstablished peer endpoint id n)).guests =
        if r.actor.admits peer endpoint id n (c.instant 0) then
          ⟨id, peer, endpoint.address⟩ :: r.guests else r.guests := rfl
    unfold Actor.tracked at hconnections
    dsimp only at hconnections
    by_cases hadmits : r.actor.admits peer endpoint id n (c.instant 0) = true
    · obtain ⟨hdenied, hblocked, haccept, htie⟩ := admits_iff.mp hadmits
      rw [if_pos hadmits] at hstep hconnections
      have hroom : ¬ AtLimit endpoint.address (inPrefix r.addresses) (relays r.addresses) :=
        fun hfull => (canAccept_iff.mp haccept).1 (hfull.mono hm.inPrefix_le hm.relays_le)
      have hcons := (within_cons_iff (g := ⟨id, peer, endpoint.address⟩) hw).mpr hroom
      have hmirrored : Mirrored ⟨_, ⟨id, peer, endpoint.address⟩ :: r.guests⟩ :=
        hm.connected (hs hdenied hblocked htie) hconnections
      exact ⟨hmirrored.of_lookup hstep fun _ => rfl, hcons.of_guests hstep⟩
    · rw [if_neg hadmits] at hstep hconnections
      exact ⟨hm.of_lookup hstep fun p => by rw [hconnections], hw.of_guests hstep⟩
  | connectionClosed peer id =>
    exact ⟨(hm.disconnected hs hconnections).of_lookup rfl fun _ => rfl,
      (within_filter hw _).of_guests rfl⟩
  | identified peer protocol =>
    refine ⟨hm.of_lookup rfl fun p => ?_, hw.of_guests rfl⟩
    rw [hconnections]
    unfold Actor.tracked
    dsimp only
    split_ifs
    · exact lookup_setProtocol _ _ p _
    · rfl
  | pinged peer rtt =>
    refine ⟨hm.of_lookup rfl fun p => ?_, hw.of_guests rfl⟩
    rw [hconnections]
    exact lookup_setRtt _ _ p _
  | _ => exact ⟨hm.of_lookup rfl fun p => by rw [hconnections]; rfl, hw.of_guests rfl⟩

lemma within_start (a : Actor) : Within (.start a) :=
  ⟨fun _ => Nat.zero_le _, Nat.zero_le _⟩

lemma mirrored_start {a : Actor} (h : a.connections = .empty) : Mirrored (.start a) := by
  refine ⟨List.nodup_nil, fun p v => ?_⟩
  have hnone : (Roster.start a).actor.connections.peers.lookup p = none := by
    rw [show (Roster.start a).actor.connections = .empty from h]
    rfl
  rw [hnone]
  exact iff_of_false (Option.not_mem_none v) fun ⟨g, hg, _⟩ => absurd hg List.not_mem_nil

/-- From a fresh connection manager on, in a run where no peer gets a second connection next to
one that was let in, and only let-in connections of a peer that has any close, the open
connections are within the limits after every step. -/
theorem source_limits_hold (K : Primitives) {a : Actor} (hstart : a.connections = .empty)
    {es : List (Clock × Event)} (hsingle : Along (Roster.step K) Single (.start a) es) :
    Along (Roster.step K) (fun r e => Within (r.step K e)) (.start a) es :=
  along_of_invariant (I := fun r => Mirrored r ∧ Within r)
    ⟨mirrored_start hstart, within_start a⟩ hsingle (fun _ _ h hs => single_step h.1 h.2 hs)
    fun _ _ h hs => (single_step h.1 h.2 hs).2

/-- Nine peers of one network come, each with one connection, and two of them go. -/
def onceEach : List (Clock × Event) :=
  atOnce (([2, 3, 4, 5, 6, 7, 8, 9, 10].map fun i =>
    .connectionEstablished ⟨[i]⟩ (.dialer [.ip4 ⟨192, 168, 1, i⟩, .tcp 4001]) i.toNat 1) ++
    [.connectionClosed ⟨[2]⟩ 2, .connectionClosed ⟨[10]⟩ 10])

theorem onceEach_within : Along (Roster.step samplePrimitives)
    (fun r e => Within (r.step samplePrimitives e)) (.start sampleNode) onceEach :=
  source_limits_hold samplePrimitives (by rfl) (by decide +kernel)

/-- Five peers of one network, each dialed at a TCP and at a QUIC address. -/
def twiceEach : List (Clock × Event) :=
  atOnce ([2, 3, 4, 5, 6].flatMap fun i =>
    [.connectionEstablished ⟨[i]⟩ (.dialer [.ip4 ⟨192, 168, 1, i⟩, .tcp 4001]) (2 * i.toNat) 1,
      .connectionEstablished ⟨[i]⟩ (.dialer [.ip4 ⟨192, 168, 1, i⟩, .udp 4001, .quicV1])
        (2 * i.toNat + 1) 2])

/-- The ten connections are all let in, although they share one prefix. -/
theorem twiceEach_exceeds :
    ¬ Along (Roster.step samplePrimitives) (fun r e => Within (r.step samplePrimitives e))
      (.start sampleNode) twiceEach := by
  intro h
  have hlast := (along_iff.mp h (twiceEach.take 9) (.still 0 0, .connectionEstablished ⟨[6]⟩
    (.dialer [.ip4 ⟨192, 168, 1, 6⟩, .udp 4001, .quicV1]) 13 2) [] rfl).prefixes (.v4 192 168 1)
  have hten : MAX_CONNECTIONS_PER_IP_PREFIX < inPrefix ((run (Roster.step samplePrimitives)
      (.start sampleNode) twiceEach).addresses) (.v4 192 168 1) := by
    decide +kernel
  exact absurd hlast (not_le.mpr hten)

end Protonet.ConnectionDiversity
