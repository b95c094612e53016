import Protonet.ConnectionDiversity

namespace Protonet.SourceKeys
open Record Address Connections RateLimit Swarm StepRun RecordIdentity Blocking
  ConnectionDiversity

/-- The gate asks the rate limiter about the source of the peer, whatever else the actor knows. -/
def Consulted (m : ConnectionManager) (peer : PeerId) : Prop :=
  ∃ ip p, m.sourceKeys peer = some (ip, p) ∧ ∀ (a : Actor) (now : ℕ), a.connections = m →
    a.allowIngestionSource peer now =
      ((a.rateLimiter.allowIngestionSource ip p now).1,
        { a with rateLimiter := (a.rateLimiter.allowIngestionSource ip p now).2 })

variable {m : ConnectionManager} {peer : PeerId} {endpoint : ConnectedPoint} {now : ℕ}
  {address : Multiaddr}

lemma addressIp_isSome_iff : (addressIp address).isSome ↔ ∃ c ∈ address, isIp c = true := by
  unfold addressIp
  rw [List.findSome?_isSome_iff]
  refine exists_congr fun c => and_congr_right fun _ => ?_
  cases c <;> simp [isIp]

lemma addressPrefix_isSome_iff : (addressPrefix address).isSome ↔ ∃ c ∈ address, isIp c = true := by
  unfold addressPrefix
  rw [List.findSome?_isSome_iff]
  refine exists_congr fun c => and_congr_right fun _ => ?_
  cases c <;> simp [isIp]

lemma sourceKeys_connected (hnew : m.peers.lookup peer = none) :
    (m.connected peer endpoint now).sourceKeys peer =
      match addressIp endpoint.address, addressPrefix endpoint.address with
      | some ip, some p => some (ip, p)
      | _, _ => none := by
  unfold ConnectionManager.sourceKeys ConnectionManager.connected
  rw [hnew, AList.lookup_insert]
  rfl

lemma sourceKeys_isSome_iff (hnew : m.peers.lookup peer = none) :
    ((m.connected peer endpoint now).sourceKeys peer).isSome ↔
      ∃ c ∈ endpoint.address, isIp c = true := by
  have hip := @addressIp_isSome_iff endpoint.address
  have hnet := @addressPrefix_isSome_iff endpoint.address
  rw [sourceKeys_connected hnew]
  rcases haddress : addressIp endpoint.address with _ | ip
  · rw [haddress] at hip
    exact iff_of_false nofun fun h => absurd (hip.mpr h) nofun
  · rw [haddress] at hip
    have hhas := hip.mp rfl
    obtain ⟨p, hp⟩ := Option.isSome_iff_exists.mp (hnet.mpr hhas)
    rw [hp]
    exact iff_of_true rfl hhas

/-- Without a source the gate has nobody to ask. -/
lemma consulted_iff : Consulted m peer ↔ (m.sourceKeys peer).isSome := by
  constructor
  · rintro ⟨ip, p, hkeys, -⟩
    simp [hkeys]
  · intro h
    obtain ⟨⟨ip, p⟩, hkeys⟩ := Option.isSome_iff_exists.mp h
    refine ⟨ip, p, hkeys, fun a now hm => ?_⟩
    unfold Actor.allowIngestionSource
    rw [hm, hkeys]

/-- Without an IP component only circuits are let in, as long as there are not too many. -/
lemma canAccept_without_ip (h : ¬ ∃ c ∈ endpoint.address, isIp c = true) :
    m.canAccept endpoint = true ↔
      isRelayed endpoint.address = true ∧ relayEntries m < MAX_RELAY_ONLY_CONNECTIONS := by
  have hnet : ¬ (addressPrefix endpoint.address).isSome := by
    rwa [addressPrefix_isSome_iff]
  have hnone : addressPrefix endpoint.address = none := by simpa using hnet
  rw [canAccept_iff, AtLimit]
  constructor
  · rintro ⟨hroom, hsome | hrelayed⟩
    · exact absurd hsome hnet
    · exact ⟨hrelayed, not_le.mp fun hfull => hroom (.inr ⟨hrelayed, hfull⟩)⟩
  · rintro ⟨hrelayed, hroom⟩
    refine ⟨?_, .inr hrelayed⟩
    rintro (⟨p, hp, -⟩ | ⟨-, hfull⟩)
    · rw [hnone] at hp
      cases hp
    · exact absurd hroom (not_lt.mpr hfull)

/-- Admission and the gate agree on a peer whose entry the connection creates exactly when its
address has an IP component, or is no circuit, or there are too many circuits: then an admitted peer
has source keys, and the rate limiter is asked about it. -/
theorem admitted_consulted_iff (m : ConnectionManager) (peer : PeerId) (endpoint : ConnectedPoint)
    (now : ℕ) (hnew : m.peers.lookup peer = none) :
    (m.canAccept endpoint = true →
        ((m.connected peer endpoint now).sourceKeys peer).isSome ∧
          Consulted (m.connected peer endpoint now) peer) ↔
      (∃ c ∈ endpoint.address, isIp c = true) ∨ isRelayed endpoint.address = false ∨
        MAX_RELAY_ONLY_CONNECTIONS ≤ relayEntries m := by
  rw [consulted_iff, and_self, sourceKeys_isSome_iff hnew]
  by_cases hip : ∃ c ∈ endpoint.address, isIp c = true
  · exact iff_of_true (fun _ => hip) (.inl hip)
  · rw [canAccept_without_ip hip, or_iff_right hip, ← Bool.not_eq_true, ← not_lt, ← not_and_or]
    exact imp_iff_not hip

theorem direct_peer_consulted :
    ((ConnectionManager.empty.connected samplePeer
        (.dialer [.ip4 ⟨1, 2, 3, 4⟩, .tcp 4001]) 0).sourceKeys samplePeer).isSome ∧
      Consulted (ConnectionManager.empty.connected samplePeer
        (.dialer [.ip4 ⟨1, 2, 3, 4⟩, .tcp 4001]) 0) samplePeer :=
  (admitted_consulted_iff .empty samplePeer (.dialer [.ip4 ⟨1, 2, 3, 4⟩, .tcp 4001]) 0 rfl).mpr
    (.inl (by decide)) (by decide +kernel)

/-- A circuit through a relay that is known by its name. -/
def namedRelay : ConnectedPoint :=
  .dialer [.dns4 "relay.example", .tcp 4001, .p2p ⟨[9]⟩, .p2pCircuit, .p2p samplePeer]

/-- The circuit is accepted and makes the entry of the peer, which has no source keys; the first
valid record of the peer is rejected and costs it a block. -/
theorem relayed_peer_refused :
    ConnectionManager.empty.canAccept namedRelay = true ∧
      (ConnectionManager.empty.connected samplePeer namedRelay 0).sourceKeys samplePeer = none ∧
      RecordValidator.default.validateBytes samplePrimitives (sampleRecord 1 1 1 0 1000).encode 0 =
        .ok (sampleRecord 1 1 1 0 1000) ∧
      (run (Actor.step samplePrimitives) sampleNode
        (atOnce [.connectionEstablished samplePeer namedRelay 1 1,
          .gossip samplePeer (sampleRecord 1 1 1 0 1000).recordId
            (sampleRecord 1 1 1 0 1000).encode])).outbox =
        [.reportGossip (sampleRecord 1 1 1 0 1000).recordId samplePeer .reject,
          .block samplePeer 0 MINOR_BLOCK] :=
  ⟨by decide +kernel, by decide +kernel, sampleRecord_validateBytes, by decide +kernel⟩

end Protonet.SourceKeys
