import Protonet.PublicAddress

/-!
# The address book of the engine

What the engine learns of addresses: its own, from the transport, from AutoNAT and from what peers
see, and those of peers, from the operator, from mDNS and from what peers announce of themselves.
-/
namespace Protonet.AddressBook
open Lru StepRun Record RateLimit Address ExternalAddresses
open PublicAddress (addressIsPrivate)

def MAX_IDENTIFY_ADDRESSES : ℕ := 32
def TARGET_CONNECTED_PEERS : ℕ := 30

inductive Reachability
  | unknown
  | publicNat
  | privateNat
  deriving DecidableEq

inductive NatStatus
  | publicNat (address : Multiaddr)
  | privateNat
  | unknown
  deriving DecidableEq

structure Config where
  identity : PeerId
  allowPrivateTestNetwork : Bool
  /-- The length of an address in bytes. -/
  size : Multiaddr → ℕ

def peerFromAddress (address : Multiaddr) : Option PeerId :=
  match address.getLast? with
  | some (.p2p peer) => some peer
  | _ => none

def withoutTrailingPeer (address : Multiaddr) : Multiaddr :=
  match address.getLast? with
  | some (.p2p _) => address.dropLast
  | _ => address

/-- The key of `prefer_quic`. -/
def quicRank (address : Multiaddr) : ℕ :=
  let text := addressText address
  if textContains text "/quic-v1" then 0
  else if textContains text "/tcp/" && !textContains text "/p2p-circuit" then 1
  else if textContains text "/p2p-circuit" then 2
  else 3

/-- The sort keeps the order of addresses of one rank. -/
def preferQuic (addresses : List Multiaddr) : List Multiaddr :=
  addresses.mergeSort fun a b => decide (quicRank a ≤ quicRank b)

/-- What the engine asks of its peer tables, of gossip and of the dialler. -/
inductive Ask
  /-- The address goes to the DHT and to the swarm. -/
  | addAddress (peer : PeerId) (address : Multiaddr)
  | removePeer (peer : PeerId)
  | bootstrap
  | addExplicitPeer (peer : PeerId)
  | removeExplicitPeer (peer : PeerId)
  | dial (address : Multiaddr)
  | listenOn (address : Multiaddr)
  deriving DecidableEq

def configureBootstrap (addresses : List Multiaddr) : List Ask :=
  (preferQuic addresses).flatMap fun address =>
    match peerFromAddress address with
    | none => []
    | some peer => [.addAddress peer (withoutTrailingPeer address), .dial address]

def configureRelays (addresses : List Multiaddr) : List Ask :=
  (addresses.take 16).map fun address => .listenOn (address ++ [.p2pCircuit])

inductive Notice
  | listening (address : Multiaddr)
  | reachabilityChanged (state : Reachability)
  | protocolViolation (reason : String)
  deriving DecidableEq

structure Book where
  external : External
  listenAddresses : List Multiaddr
  reachability : Reachability
  dhtStatus : String
  asks : List Ask
  notices : List Notice

def Book.start (listen bootstrap relays : List Multiaddr) : Book where
  external := .new MAX_EXTERNAL_CANDIDATES (by decide)
  listenAddresses := []
  reachability := .unknown
  dhtStatus := "bootstrapping"
  asks := listen.map .listenOn ++ configureBootstrap bootstrap ++ configureRelays relays ++
    [.bootstrap]
  notices := []

inductive AddressEvent
  | newListenAddr (address : Multiaddr)
  | expiredListenAddr (address : Multiaddr)
  | externalAddrConfirmed (address : Multiaddr)
  | externalAddrExpired (address : Multiaddr)
  /-- With the number of peers connected. -/
  | discovered (peers : List (PeerId × Multiaddr)) (connected : ℕ)
  | expired (peers : List (PeerId × Multiaddr))
  /-- A peer of a supported version, with the address it is tracked under. -/
  | identified (peer : PeerId) (tracked : Option Multiaddr) (listenAddrs : List Multiaddr)
      (observedAddr : Multiaddr) (now : ℕ)
  | statusChanged (new : NatStatus) (now : ℕ)
  | bootstrapped (ok : Bool)
  | connect (address : Multiaddr)
  | addBootstrapPeer (peer : PeerId) (address : Multiaddr)
  | removeBootstrapPeer (peer : PeerId)
  | snapshotTick (now : ℕ)
  deriving DecidableEq

def Book.ask (s : Book) (asks : List Ask) : Book := { s with asks := s.asks ++ asks }

def Book.notify (s : Book) (notice : Notice) : Book := { s with notices := s.notices ++ [notice] }

def Book.addExternalAddress (s : Book) (address : Multiaddr) : Book :=
  { s with external :=
      { s.external with calls := s.external.calls ++ [.addExternalAddress address] } }

def Book.listening (s : Book) (address : Multiaddr) : Book :=
  if address ∈ s.listenAddresses then s
  else { s with listenAddresses := s.listenAddresses ++ [address] }.notify (.listening address)

/-- `retain`. -/
def Book.unlisten (s : Book) (address : Multiaddr) : Book :=
  { s with listenAddresses := s.listenAddresses.filter fun item => item ≠ address }

def discovery (config : Config) (connected : ℕ) (found : PeerId × Multiaddr) : List Ask :=
  if found.1 = config.identity ∨ config.size found.2 > MAX_ADDRESS_BYTES then []
  else [.addAddress found.1 found.2, .addExplicitPeer found.1] ++
    if connected < TARGET_CONNECTED_PEERS then [.dial (found.2 ++ [.p2p found.1])] else []

def announced (config : Config) (tracked : Option Multiaddr) (listenAddrs : List Multiaddr) :
    List Multiaddr :=
  let learnedOverPrivate := tracked.any addressIsPrivate
  (listenAddrs.filter fun address => validAnnouncedAddress config.size address &&
    (!addressIsPrivate address || learnedOverPrivate)).take MAX_IDENTIFY_ADDRESSES

def External.clearPromoted (s : External) : External :=
  { s with
    promoted := ∅
    calls := s.calls ++ s.promoted.keys.map .removeExternalAddress }

def External.statusChanged (size : Multiaddr → ℕ) (s : External) (new : NatStatus) (now : ℕ) :
    External :=
  match new with
  | .publicNat address =>
    if publicExternalAddress size address then
      { s with
        promoted := s.promoted.insert address now
        calls := s.calls ++ [.addExternalAddress address] }
    else s
  | .privateNat => clearPromoted s
  | .unknown => s

def NatStatus.reachability : NatStatus → Reachability
  | .publicNat _ => .publicNat
  | .privateNat => .privateNat
  | .unknown => .unknown

def Book.step (config : Config) (s : Book) : AddressEvent → Book
  | .newListenAddr address =>
    let s := s.listening address
    if config.allowPrivateTestNetwork then s.addExternalAddress address else s
  | .expiredListenAddr address => s.unlisten address
  | .externalAddrConfirmed address => if .p2pCircuit ∈ address then s.listening address else s
  | .externalAddrExpired address => s.unlisten address
  | .discovered peers connected => s.ask ((peers.take 32).flatMap (discovery config connected))
  | .expired peers => s.ask (peers.map fun e => .removeExplicitPeer e.1)
  | .identified peer tracked listenAddrs observedAddr now =>
    let s := s.ask ((announced config tracked listenAddrs).map (.addAddress peer))
    if config.allowPrivateTestNetwork && addressIsPrivate observedAddr then
      s.addExternalAddress observedAddr
    else
      { s with external :=
          s.external.observeExternalAddress config.size peer observedAddr now }
  | .statusChanged new now =>
    { s with
      external := External.statusChanged config.size s.external new now
      reachability := new.reachability }.notify (.reachabilityChanged new.reachability)
  | .bootstrapped ok =>
    { s with dhtStatus := if ok then "ready" else "degraded (peer links remain usable)" }
  | .connect address =>
    if config.size address ≤ MAX_ADDRESS_BYTES then s.ask [.dial address]
    else s.notify (.protocolViolation "multiaddress exceeds the configured bound")
  | .addBootstrapPeer peer address =>
    if config.size address ≤ MAX_ADDRESS_BYTES then s.ask [.addAddress peer address, .bootstrap]
    else s
  | .removeBootstrapPeer peer => s.ask [.removePeer peer]
  | .snapshotTick now => { s with external := s.external.expireExternalAddresses now }

/-- What libp2p has done to the external addresses of the swarm when it tells the engine. -/
def byItself (external : Finset Multiaddr) : AddressEvent → Finset Multiaddr
  | .externalAddrConfirmed address => insert address external
  | .externalAddrExpired address => external.erase address
  | _ => external

/-- The external addresses of the swarm after the engine's calls. -/
def afterCalls (external : Finset Multiaddr) (calls : List SwarmCall) : Finset Multiaddr :=
  calls.foldl (fun external call =>
    match call with
    | .addExternalAddress address => insert address external
    | .removeExternalAddress address => external.erase address) external

/-- The engine and the external addresses of its swarm. -/
structure Node where
  book : Book
  external : Finset Multiaddr

def Node.start (listen bootstrap relays : List Multiaddr) : Node :=
  ⟨.start listen bootstrap relays, ∅⟩

def Book.cleared (s : Book) : Book := { s with external := { s.external with calls := [] } }

def Node.step (config : Config) (n : Node) (e : AddressEvent) : Node :=
  let book := n.book.cleared.step config e
  ⟨book, afterCalls (byItself n.external e) book.external.calls⟩

variable {config : Config} {size : Multiaddr → ℕ} {s : External} {n : Node}
  {external : Finset Multiaddr} {promoted : AList fun _ : Multiaddr => ℕ} {address : Multiaddr}
  {t now : ℕ} {e : AddressEvent} {events : List AddressEvent}

lemma mem_afterCalls_remove {addresses : List Multiaddr} :
    address ∈ afterCalls external (addresses.map .removeExternalAddress) ↔
      address ∈ external ∧ address ∉ addresses := by
  induction addresses generalizing external with
  | nil => simp [afterCalls]
  | cons other addresses ih =>
    have hrest : address ∈ afterCalls external ((other :: addresses).map .removeExternalAddress) ↔
        address ∈ external.erase other ∧ address ∉ addresses := ih
    rw [hrest, Finset.mem_erase, List.mem_cons]
    tauto

lemma mem_keys_iff : address ∈ promoted.keys ↔ ∃ t, promoted.lookup address = some t := by
  rw [← AList.mem_keys, ← AList.lookup_isSome, Option.isSome_iff_exists]

lemma lookup_erased (addresses : List Multiaddr) :
    (addresses.foldl (fun p a => p.erase a) promoted).lookup address =
      if address ∈ addresses then none else promoted.lookup address := by
  induction addresses generalizing promoted with
  | nil => simp
  | cons other addresses ih =>
    rw [List.foldl_cons, ih]
    by_cases hsame : address = other
    · rw [hsame, AList.lookup_erase]
      simp
    · simp [hsame, AList.lookup_erase_ne hsame]

lemma mem_stalePromoted : address ∈ stalePromoted promoted now ↔
    ∃ t, promoted.lookup address = some t ∧ now - t > EXTERNAL_TTL := by
  unfold stalePromoted
  simp only [List.mem_map, List.mem_filter, decide_eq_true_eq, Sigma.exists]
  constructor
  · rintro ⟨_, t, ⟨hmem, hold⟩, rfl⟩
    exact ⟨t, AList.mem_lookup_iff.mpr hmem, hold⟩
  · rintro ⟨t, hlookup, hold⟩
    exact ⟨address, t, ⟨AList.mem_lookup_iff.mp hlookup, hold⟩, rfl⟩

/-- What an event adds to the reports of what peers see. -/
def reports : AddressEvent → List Call
  | .identified peer _ _ observedAddr now => [.observe peer observedAddr now]
  | _ => []

/-- AutoNAT has reached the node at the address, or a peer sees it there, and three have by now. -/
def Confirms (address : Multiaddr) (before : List AddressEvent) (e : AddressEvent) (t : ℕ) : Prop :=
  e = .statusChanged (.publicNat address) t ∨
    (∃ peer tracked listenAddrs, e = .identified peer tracked listenAddrs address t) ∧
      3 ≤ (reporters address ((before ++ [e]).flatMap reports)).card

def Ends (t : ℕ) : AddressEvent → Prop
  | .statusChanged .privateNat _ => True
  | .snapshotTick now => now - t > EXTERNAL_TTL
  | _ => False

/-- The address was confirmed at that time, and nothing has ended it. -/
def Confirmed (address : Multiaddr) (t : ℕ) (events : List AddressEvent) : Prop :=
  ∃ xs e ys, events = xs ++ e :: ys ∧ Confirms address xs e t ∧ ∀ e' ∈ ys, ¬ Ends t e'

lemma Confirmed.append (h : Confirmed address t events) (hkept : ¬ Ends t e) :
    Confirmed address t (events ++ [e]) := by
  obtain ⟨xs, e₀, ys, rfl, hconfirms, hys⟩ := h
  refine ⟨xs, e₀, ys ++ [e], by simp, hconfirms, fun e' he' => ?_⟩
  rcases List.mem_append.mp he' with hold | hnew
  · exact hys e' hold
  · rw [List.mem_singleton.mp hnew]
    exact hkept

lemma Confirms.confirmed (h : Confirms address events e t) : Confirmed address t (events ++ [e]) :=
  ⟨events, e, [], rfl, h, nofun⟩

/-- libp2p has confirmed the address by itself, as those of a relay's circuits, and not let it
expire. -/
def SelfConfirmed (address : Multiaddr) (events : List AddressEvent) : Prop :=
  ∃ xs ys, events = xs ++ .externalAddrConfirmed address :: ys ∧ .externalAddrExpired address ∉ ys

lemma SelfConfirmed.append (h : SelfConfirmed address events)
    (hkept : e ≠ .externalAddrExpired address) : SelfConfirmed address (events ++ [e]) := by
  obtain ⟨xs, ys, rfl, hys⟩ := h
  refine ⟨xs, ys ++ [e], by simp, fun hmem => ?_⟩
  rcases List.mem_append.mp hmem with hold | hnew
  · exact hys hold
  · exact hkept (List.mem_singleton.mp hnew).symm

/-- An external address is one the engine keeps as promoted, or libp2p's own; what is promoted is
public and confirmed. -/
structure Kept (size : Multiaddr → ℕ) (external : Finset Multiaddr) (s : External)
    (events : List AddressEvent) : Prop where
  advertised : ∀ address ∈ external,
    (∃ t, s.promoted.lookup address = some t) ∨ SelfConfirmed address events
  credited : Credited s.candidates (events.flatMap reports)
  confirmed : ∀ address t, s.promoted.lookup address = some t →
    publicExternalAddress size address = true ∧ Confirmed address t events

/-- Before its handler runs, an event has changed the external addresses by itself. -/
lemma Kept.advertised_byItself (h : Kept size external s events) (e : AddressEvent)
    (hmem : address ∈ byItself external e) :
    (∃ t, s.promoted.lookup address = some t) ∨ SelfConfirmed address (events ++ [e]) := by
  have hold (hmem : address ∈ external) (hne : e ≠ .externalAddrExpired address) :
      (∃ t, s.promoted.lookup address = some t) ∨ SelfConfirmed address (events ++ [e]) :=
    (h.advertised address hmem).imp_right fun hself => hself.append hne
  cases e with
  | externalAddrConfirmed other =>
    rcases Finset.mem_insert.mp hmem with rfl | hmem
    · exact .inr ⟨events, [], rfl, List.not_mem_nil⟩
    · exact hold hmem nofun
  | externalAddrExpired other =>
    obtain ⟨hne, hmem⟩ := Finset.mem_erase.mp hmem
    exact hold hmem fun heq => hne (AddressEvent.externalAddrExpired.inj heq).symm
  | _ => exact hold hmem nofun

lemma Kept.other (h : Kept size external s events) (hnone : ∀ t, ¬ Ends t e) :
    Kept size (byItself external e) s (events ++ [e]) where
  advertised _ hmem := h.advertised_byItself e hmem
  credited := by
    rw [List.flatMap_append]
    exact h.credited.append _
  confirmed address t hlookup :=
    ⟨(h.confirmed address t hlookup).1, (h.confirmed address t hlookup).2.append (hnone t)⟩

lemma Kept.promote (h : Kept size external s events) {candidates : Candidates}
    {calls : List SwarmCall} (hcredited : Credited candidates ((events ++ [e]).flatMap reports))
    (hpublic : publicExternalAddress size address = true)
    (hconfirms : Confirms address events e now)
    (hnone : ∀ t, ¬ Ends t e) :
    Kept size (insert address (byItself external e))
      ⟨candidates, s.promoted.insert address now, calls⟩ (events ++ [e]) where
  advertised := by
    intro other hmem
    by_cases hother : other = address
    · rw [hother]
      exact .inl ⟨now, AList.lookup_insert _⟩
    · have hold := h.advertised_byItself e (Finset.mem_of_mem_insert_of_ne hmem hother)
      rw [← AList.lookup_insert_ne hother] at hold
      exact hold
  credited := hcredited
  confirmed := by
    intro other t hlookup
    by_cases hother : other = address
    · subst hother
      rw [AList.lookup_insert] at hlookup
      obtain rfl := Option.some.inj hlookup
      exact ⟨hpublic, hconfirms.confirmed⟩
    · rw [AList.lookup_insert_ne hother] at hlookup
      exact ⟨(h.confirmed other t hlookup).1,
        (h.confirmed other t hlookup).2.append (hnone t)⟩

lemma Kept.observe (h : Kept size external s events) (hcalls : s.calls = []) (peer : PeerId)
    (tracked : Option Multiaddr) (listenAddrs : List Multiaddr) (observedAddr : Multiaddr)
    (now : ℕ) :
    Kept size (afterCalls external (s.observeExternalAddress size peer observedAddr now).calls)
      (s.observeExternalAddress size peer observedAddr now)
      (events ++ [.identified peer tracked listenAddrs observedAddr now]) := by
  have hcredited := @record_credited size _ peer observedAddr now _ h.credited
  have hearned := @record_earned size _ peer observedAddr now _ h.credited
  have hreports : (events ++ [AddressEvent.identified peer tracked listenAddrs observedAddr
      now]).flatMap reports = events.flatMap reports ++ [.observe peer observedAddr now] := by
    rw [List.flatMap_append]
    rfl
  unfold External.observeExternalAddress
  rcases hrec : recordExternalObservation size s.candidates peer observedAddr now with
    ⟨_ | _, candidates⟩
  all_goals
    rw [hrec, ← hreports] at hcredited
    rw [hcalls]
  · have hkept := h.other (e := .identified peer tracked listenAddrs observedAddr now)
      fun t => not_false
    exact ⟨hkept.advertised, hcredited, hkept.confirmed⟩
  · rw [hrec] at hearned
    obtain ⟨hpublic, hthree⟩ := hearned rfl
    refine h.promote hcredited hpublic (.inr ⟨⟨peer, tracked, listenAddrs, rfl⟩, ?_⟩)
      fun t => not_false
    rwa [hreports]

lemma Kept.statusChanged (h : Kept size external s events) (hcalls : s.calls = [])
    (new : NatStatus) (now : ℕ) :
    Kept size (afterCalls external (External.statusChanged size s new now).calls)
      (External.statusChanged size s new now) (events ++ [.statusChanged new now]) := by
  have hcredited : Credited s.candidates ((events ++
      [AddressEvent.statusChanged new now]).flatMap reports) := by
    rw [List.flatMap_append]
    exact h.credited.append _
  have hother (hnone : ∀ t, ¬ Ends t (.statusChanged new now)) :
      Kept size (afterCalls external s.calls) s (events ++ [.statusChanged new now]) := by
    rw [hcalls]
    exact h.other hnone
  cases new with
  | publicNat address =>
    unfold External.statusChanged
    dsimp only
    split_ifs with hpublic
    · rw [hcalls]
      exact h.promote hcredited hpublic (.inl rfl) fun t => not_false
    · exact hother fun t => not_false
  | privateNat =>
    have hempty (address : Multiaddr) :
        (∅ : AList fun _ : Multiaddr => ℕ).lookup address = none := AList.lookup_empty _
    unfold External.statusChanged External.clearPromoted
    dsimp only
    refine ⟨fun address hmem => ?_, hcredited, fun address t hlookup => ?_⟩
    · rw [hcalls, List.nil_append, mem_afterCalls_remove, mem_keys_iff] at hmem
      obtain ⟨hmem, hnot⟩ := hmem
      have hself := (h.advertised address hmem).resolve_left hnot
      exact .inr (hself.append nofun)
    · rw [hempty] at hlookup
      cases hlookup
  | unknown => exact hother fun t => not_false

lemma Kept.expire (h : Kept size external s events) (hcalls : s.calls = []) (now : ℕ) :
    Kept size (afterCalls external (s.expireExternalAddresses now).calls)
      (s.expireExternalAddresses now) (events ++ [.snapshotTick now]) := by
  have hlookup (address : Multiaddr) : (s.expireExternalAddresses now).promoted.lookup address =
      if address ∈ stalePromoted s.promoted now then none else s.promoted.lookup address :=
    lookup_erased _
  have hremoved : (s.expireExternalAddresses now).calls =
      (stalePromoted s.promoted now).map .removeExternalAddress := by
    unfold External.expireExternalAddresses
    rw [hcalls, List.nil_append]
  refine ⟨fun address hmem => ?_, ?_, fun address t hpromoted => ?_⟩
  · rw [hremoved, mem_afterCalls_remove] at hmem
    obtain ⟨hmem, hfresh⟩ := hmem
    rw [hlookup, if_neg hfresh]
    exact (h.advertised address hmem).imp_right fun hself => hself.append nofun
  · rw [List.flatMap_append]
    exact Credited.append (every_foldl_pop _ h.credited) _
  · rw [hlookup] at hpromoted
    split_ifs at hpromoted with hstale
    obtain ⟨hpublic, hconfirmed⟩ := h.confirmed address t hpromoted
    exact ⟨hpublic, hconfirmed.append fun hold =>
      hstale (mem_stalePromoted.mpr ⟨t, hpromoted, hold⟩)⟩

lemma Kept.cleared {b : Book} (h : Kept size external b.external events) :
    Kept size external b.cleared.external events := ⟨h.advertised, h.credited, h.confirmed⟩

lemma Kept.step (htest : config.allowPrivateTestNetwork = false)
    (h : Kept config.size n.external n.book.external events) (e : AddressEvent) :
    Kept config.size (n.step config e).external (n.step config e).book.external
      (events ++ [e]) := by
  have hcleared := h.cleared
  have hlistening (address : Multiaddr) :
      (n.book.cleared.listening address).external = n.book.cleared.external := by
    unfold Book.listening
    split_ifs <;> rfl
  -- a handler that leaves the external addresses alone makes no calls
  have hother (hsame : (n.book.cleared.step config e).external = n.book.cleared.external)
      (hnone : ∀ t, ¬ Ends t e) : Kept config.size (n.step config e).external
        (n.step config e).book.external (events ++ [e]) := by
    unfold Node.step
    dsimp only
    rw [hsame]
    exact hcleared.other hnone
  cases e with
  | newListenAddr address =>
    refine hother ?_ fun t => not_false
    unfold Book.step
    rw [htest]
    exact hlistening address
  | externalAddrConfirmed address =>
    refine hother ?_ fun t => not_false
    unfold Book.step
    dsimp only
    split_ifs
    · exact hlistening address
    · rfl
  | identified peer tracked listenAddrs observedAddr now =>
    have hobserve := hcleared.observe rfl peer tracked listenAddrs observedAddr now
    unfold Node.step Book.step
    rw [htest]
    exact hobserve
  | statusChanged new now => exact hcleared.statusChanged rfl new now
  | snapshotTick now => exact hcleared.expire rfl now
  | connect address =>
    refine hother ?_ fun t => not_false
    unfold Book.step
    dsimp only
    split_ifs <;> rfl
  | addBootstrapPeer peer address =>
    refine hother ?_ fun t => not_false
    unfold Book.step
    dsimp only
    split_ifs <;> rfl
  | expiredListenAddr address => exact hother rfl fun t => not_false
  | externalAddrExpired address => exact hother rfl fun t => not_false
  | discovered peers connected => exact hother rfl fun t => not_false
  | expired peers => exact hother rfl fun t => not_false
  | bootstrapped ok => exact hother rfl fun t => not_false
  | removeBootstrapPeer peer => exact hother rfl fun t => not_false

lemma Kept.run (htest : config.allowPrivateTestNetwork = false) (more : List AddressEvent)
    (h : Kept config.size n.external n.book.external events) :
    Kept config.size (run (Node.step config) n more).external
      (run (Node.step config) n more).book.external (events ++ more) := by
  induction more generalizing n events with
  | nil => rwa [List.append_nil]
  | cons e more ih =>
    rw [← List.singleton_append, ← List.append_assoc]
    exact ih (h.step htest e)

lemma kept_start (listen bootstrap relays : List Multiaddr) :
    Kept size ∅ (Book.start listen bootstrap relays).external [] where
  advertised _ hmem := absurd hmem (Finset.notMem_empty _)
  credited := every_new _ _
  confirmed _ _ hlookup := by cases hlookup

/-- Off the test network, in every run: an external address of the swarm is libp2p's own, or it is
public and was confirmed, by AutoNAT or by the third peer that sees the node there, at a time since
which AutoNAT has not called the node private and no sweep has found the confirmation older than
half an hour. -/
theorem advertised_confirmed (htest : config.allowPrivateTestNetwork = false)
    (listen bootstrap relays : List Multiaddr) (events : List AddressEvent) :
    ∀ address ∈ (run (Node.step config) (.start listen bootstrap relays) events).external,
      publicExternalAddress config.size address = true ∧ (∃ t, Confirmed address t events) ∨
        SelfConfirmed address events := by
  intro address hmem
  have hkept := (@kept_start config.size listen bootstrap relays).run htest events
    (n := .start listen bootstrap relays)
  rw [List.nil_append] at hkept
  refine (hkept.advertised address hmem).imp_left fun hpromoted => ?_
  obtain ⟨t, hlookup⟩ := hpromoted
  obtain ⟨hpublic, hconfirmed⟩ := hkept.confirmed address t hlookup
  exact ⟨hpublic, t, hconfirmed⟩

def sampleConfig : Config := ⟨⟨[0]⟩, false, sampleSize⟩

def sampleCircuit : Multiaddr :=
  [.ip4 ⟨9, 9, 9, 9⟩, .tcp 4001, .p2p ⟨[9]⟩, .p2pCircuit]

/-- Three peers see the node at one address, a relay grants it a circuit, AutoNAT finds it at
another address, and a sweep follows when only that one is fresh. -/
def sampleEvents : List AddressEvent :=
  [.identified ⟨[1]⟩ none [] sampleAddress 0, .identified ⟨[2]⟩ none [] sampleAddress 1,
    .identified ⟨[3]⟩ none [] sampleAddress 2, .externalAddrConfirmed sampleCircuit,
    .statusChanged (.publicNat [.ip4 ⟨9, 9, 9, 9⟩, .tcp 4001]) EXTERNAL_TTL,
    .snapshotTick (EXTERNAL_TTL + 3)]

theorem advertised_confirmed_sample :
    (run (Node.step sampleConfig) (.start [] [] []) sampleEvents).external =
      {sampleCircuit, [.ip4 ⟨9, 9, 9, 9⟩, .tcp 4001]} ∧
    ∃ t, Confirmed [.ip4 ⟨9, 9, 9, 9⟩, .tcp 4001] t sampleEvents := by
  have hleft : (run (Node.step sampleConfig) (.start [] [] []) sampleEvents).external =
      {sampleCircuit, [.ip4 ⟨9, 9, 9, 9⟩, .tcp 4001]} := by decide +kernel
  refine ⟨hleft, ?_⟩
  have hmem : [.ip4 ⟨9, 9, 9, 9⟩, .tcp 4001] ∈
      (run (Node.step sampleConfig) (.start [] [] []) sampleEvents).external := by
    rw [hleft]
    exact Finset.mem_insert_of_mem (Finset.mem_singleton_self _)
  rcases @advertised_confirmed sampleConfig rfl [] [] [] sampleEvents _ hmem with
    ⟨-, hconfirmed⟩ | ⟨xs, ys, heq, -⟩
  · exact hconfirmed
  · have hself : AddressEvent.externalAddrConfirmed [.ip4 ⟨9, 9, 9, 9⟩, .tcp 4001] ∈
        sampleEvents := by
      rw [heq]
      exact List.mem_append_right _ List.mem_cons_self
    exact absurd hself (by decide)

end Protonet.AddressBook
