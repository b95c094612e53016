import Protonet.Address
import Protonet.Lru
import Protonet.RateLimit
import Protonet.StepRun

/-!
# External addresses

Peers report the address they see the node at. A public address is taken for the node's own once
three different peers have reported it. `size` is the length of an address in bytes; addresses
that AutoNAT promotes by itself are left out.
-/
namespace Protonet.ExternalAddresses
open Lru StepRun Record RateLimit Address

def MAX_ADDRESS_BYTES : ℕ := 512
def MAX_EXTERNAL_CANDIDATES : ℕ := 1024
def EXTERNAL_TTL : ℕ := 30 * 60 * second

def isPrivate (ip : Ipv4) : Bool :=
  ip.a = 10 || (ip.a = 172 && 16 ≤ ip.b && ip.b ≤ 31) || (ip.a = 192 && ip.b = 168)

def isLoopback (ip : Ipv4) : Bool := ip.a = 127

def isLinkLocal (ip : Ipv4) : Bool := ip.a = 169 && ip.b = 254

def isUnspecified (ip : Ipv4) : Bool := ip = ⟨0, 0, 0, 0⟩

def isBroadcast (ip : Ipv4) : Bool := ip = ⟨255, 255, 255, 255⟩

def isMulticast (ip : Ipv4) : Bool := 224 ≤ ip.a && ip.a ≤ 239

def isDocumentation (ip : Ipv4) : Bool :=
  (ip.a = 192 && ip.b = 0 && ip.c = 2) || (ip.a = 198 && ip.b = 51 && ip.c = 100) ||
    (ip.a = 203 && ip.b = 0 && ip.c = 113)

def isLoopbackV6 (ip : Ipv6) : Bool := ip = ⟨![0, 0, 0, 0, 0, 0, 0, 1]⟩

def isUnspecifiedV6 (ip : Ipv6) : Bool := ip = ⟨fun _ => 0⟩

def isMulticastV6 (ip : Ipv6) : Bool := ip.first &&& 0xff00 = 0xff00

def validAnnouncedAddress (size : Multiaddr → ℕ) (address : Multiaddr) : Bool :=
  if size address > MAX_ADDRESS_BYTES then false
  else !address.any fun
    | .ip4 ip => isUnspecified ip || isBroadcast ip || isMulticast ip
    | .ip6 ip => isUnspecifiedV6 ip || isMulticastV6 ip
    | _ => false

/-- `reserved` in the loop over the components. -/
def reserved (ip : Ipv4) : Bool :=
  isPrivate ip || isLoopback ip || isLinkLocal ip || isUnspecified ip || isBroadcast ip ||
    isMulticast ip || isDocumentation ip || (ip.a = 100 && 64 ≤ ip.b && ip.b ≤ 127) ||
    (ip.a = 198 && 18 ≤ ip.b && ip.b ≤ 19) || 240 ≤ ip.a

def reservedV6 (ip : Ipv6) : Bool :=
  isLoopbackV6 ip || isUnspecifiedV6 ip || isMulticastV6 ip ||
    ip.first &&& 0xfe00 = 0xfc00 || ip.first &&& 0xffc0 = 0xfe80 ||
    (ip.first = 0x2001 && ip.second = 0x0db8)

/-- The loop; each case of `false` leaves it. -/
def publicLoop : List Component → Bool → Bool
  | [], hasPublicIp => hasPublicIp
  | .ip4 ip :: rest, _ => if reserved ip then false else publicLoop rest true
  | .ip6 ip :: rest, _ => if reservedV6 ip then false else publicLoop rest true
  | .dns _ :: _, _ => false
  | .dns4 _ :: _, _ => false
  | .dns6 _ :: _, _ => false
  | .dnsaddr _ :: _, _ => false
  | _ :: rest, hasPublicIp => publicLoop rest hasPublicIp

def publicExternalAddress (size : Multiaddr → ℕ) (address : Multiaddr) : Bool :=
  if !validAnnouncedAddress size address then false
  else publicLoop address false

structure ExternalCandidate where
  contributors : Finset PeerId
  updated : ℕ

abbrev Candidates := LruCache Multiaddr ExternalCandidate

def recordExternalObservation (size : Multiaddr → ℕ) (candidates : Candidates) (peer : PeerId)
    (address : Multiaddr) (now : ℕ) : Bool × Candidates :=
  if !publicExternalAddress size address then (false, candidates)
  else
    let candidate := (candidates.peek address).getD ⟨∅, now⟩
    let candidate := { contributors := insert peer candidate.contributors, updated := now }
    (decide (candidate.contributors.card ≥ 3), candidates.put address candidate)

/-- What the node asks of the swarm. -/
inductive SwarmCall
  | addExternalAddress (address : Multiaddr)
  | removeExternalAddress (address : Multiaddr)
  deriving DecidableEq

structure External where
  candidates : Candidates
  promoted : AList (fun _ : Multiaddr => ℕ)
  calls : List SwarmCall

def External.new (cap : ℕ) (h : 0 < cap) : External := ⟨.new cap h, ∅, []⟩

def External.observeExternalAddress (size : Multiaddr → ℕ) (s : External) (peer : PeerId)
    (address : Multiaddr) (now : ℕ) : External :=
  match recordExternalObservation size s.candidates peer address now with
  | (false, candidates) => { s with candidates }
  | (true, candidates) =>
    { candidates
      promoted := s.promoted.insert address now
      calls := s.calls ++ [.addExternalAddress address] }

def staleCandidates (candidates : Candidates) (now : ℕ) : List Multiaddr :=
  (candidates.table.entries.filter fun e => now - e.2.updated > EXTERNAL_TTL).map fun e => e.1

def stalePromoted (promoted : AList (fun _ : Multiaddr => ℕ)) (now : ℕ) : List Multiaddr :=
  (promoted.entries.filter fun e => now - e.2 > EXTERNAL_TTL).map fun e => e.1

def External.expireExternalAddresses (s : External) (now : ℕ) : External :=
  { candidates := (staleCandidates s.candidates now).foldl LruCache.pop s.candidates
    promoted := (stalePromoted s.promoted now).foldl (fun p address => p.erase address) s.promoted
    calls := s.calls ++ (stalePromoted s.promoted now).map .removeExternalAddress }

/-- What happens to the table of candidates; `evict` drops its last entry, whatever the reason. -/
inductive Call
  | observe (peer : PeerId) (address : Multiaddr) (now : ℕ)
  | expire (now : ℕ)
  | evict

def External.step (size : Multiaddr → ℕ) (s : External) : Call → External
  | .observe peer address now => s.observeExternalAddress size peer address now
  | .expire now => s.expireExternalAddresses now
  | .evict => { s with candidates := s.candidates.popLru }

/-- The peer, if the call reports exactly this address. -/
def Call.reporter? (address : Multiaddr) : Call → Option PeerId
  | .observe peer a _ => if a = address then some peer else none
  | _ => none

/-- The different peers that have reported the address. -/
def reporters (address : Multiaddr) (history : List Call) : Finset PeerId :=
  (history.filterMap (Call.reporter? address)).toFinset

/-- Whoever a candidate credits has reported exactly its address. -/
def Credited (candidates : Candidates) (history : List Call) : Prop :=
  candidates.Every fun address candidate => candidate.contributors ⊆ reporters address history

variable {size : Multiaddr → ℕ} {s : External} {candidates : Candidates} {peer : PeerId}
  {address : Multiaddr} {now : ℕ} {history calls : List Call}

lemma reporters_append (more : List Call) :
    reporters address (history ++ more) = reporters address history ∪ reporters address more := by
  simp [reporters, List.filterMap_append, List.toFinset_append]

lemma subset_reporters (more : List Call) :
    reporters address history ⊆ reporters address (history ++ more) := by
  rw [reporters_append]
  exact Finset.subset_union_left

lemma mem_reporters : peer ∈ reporters address (history ++ [.observe peer address now]) := by
  rw [reporters_append]
  refine Finset.mem_union_right _ ?_
  simp [reporters, Call.reporter?]

lemma Credited.append (h : Credited candidates history) (more : List Call) :
    Credited candidates (history ++ more) :=
  LruCache.Every.mono h fun _ _ hc => hc.trans (subset_reporters more)

/-- The candidate an observation leaves has only the earlier contributors and the peer. -/
lemma contributors_subset (h : Credited candidates history) :
    insert peer ((candidates.peek address).getD ⟨∅, now⟩).contributors ⊆
      reporters address (history ++ [.observe peer address now]) := by
  refine Finset.insert_subset mem_reporters ?_
  rcases hpeek : candidates.peek address with _ | candidate
  · exact Finset.empty_subset _
  · exact (LruCache.Every.peek h hpeek).trans (subset_reporters _)

lemma record_earned (h : Credited candidates history)
    (htrue : (recordExternalObservation size candidates peer address now).1 = true) :
    publicExternalAddress size address = true ∧
      3 ≤ (reporters address (history ++ [.observe peer address now])).card := by
  unfold recordExternalObservation at htrue
  split_ifs at htrue with hpublic
  · exact ⟨by simpa using hpublic,
      (of_decide_eq_true htrue).trans (Finset.card_le_card (contributors_subset h))⟩

lemma record_credited (h : Credited candidates history) :
    Credited (recordExternalObservation size candidates peer address now).2
      (history ++ [.observe peer address now]) := by
  unfold recordExternalObservation
  split_ifs
  · exact h.append _
  · exact LruCache.Every.put (h.append _) (contributors_subset h)

lemma credited_observe (h : Credited s.candidates history) :
    Credited (s.observeExternalAddress size peer address now).candidates
      (history ++ [.observe peer address now]) := by
  have hcredited := @record_credited size _ peer address now _ h
  unfold External.observeExternalAddress
  rcases hrec : recordExternalObservation size s.candidates peer address now with
    ⟨_ | _, candidates⟩ <;> rwa [hrec] at hcredited

lemma every_foldl_pop {P : Multiaddr → ExternalCandidate → Prop} (addresses : List Multiaddr)
    (h : candidates.Every P) : (addresses.foldl LruCache.pop candidates).Every P := by
  induction addresses generalizing candidates with
  | nil => exact h
  | cons address addresses ih => exact ih (h.pop address)

lemma credited_step (h : Credited s.candidates history) (call : Call) :
    Credited (s.step size call).candidates (history ++ [call]) := by
  cases call with
  | observe peer address now => exact credited_observe h
  | expire now => exact Credited.append (every_foldl_pop _ h) _
  | evict => exact Credited.append (LruCache.Every.popLru h) _

lemma credited_run (h : Credited s.candidates history) :
    Credited (run (External.step size) s calls).candidates (history ++ calls) := by
  induction calls generalizing s history with
  | nil => rwa [List.append_nil]
  | cons call calls ih =>
    rw [← List.singleton_append, ← List.append_assoc]
    exact ih (credited_step h call)

/-- After every run, whatever the bound of the table, an observation confirms an address only if
the address is public and three different peers have reported exactly it. -/
theorem external_needs_three (size : Multiaddr → ℕ) (cap : ℕ) (hcap : 0 < cap)
    (calls : List Call) {peer : PeerId} {address : Multiaddr} {now : ℕ}
    (htrue : (recordExternalObservation size (run (External.step size) (.new cap hcap)
      calls).candidates peer address now).1 = true) :
    publicExternalAddress size address = true ∧
      3 ≤ (reporters address (calls ++ [.observe peer address now])).card := by
  have hrun : Credited (run (External.step size) (.new cap hcap) calls).candidates ([] ++ calls) :=
    credited_run (every_new cap hcap)
  exact record_earned hrun htrue

def sampleAddress : Multiaddr := [.ip4 ⟨8, 8, 8, 8⟩, .udp 4001, .quicV1]

def sampleSize (address : Multiaddr) : ℕ :=
  (address.map fun
    | .ip4 _ => 5
    | .ip6 _ => 17
    | .tcp _ => 3
    | .udp _ => 4
    | .quicV1 => 2
    | .p2pCircuit => 2
    | .dns name => 2 + name.utf8ByteSize
    | .dns4 name => 2 + name.utf8ByteSize
    | .dns6 name => 2 + name.utf8ByteSize
    | .dnsaddr name => 2 + name.utf8ByteSize
    | .p2p peer => 3 + peer.toBytes.length
    | .other text => text.utf8ByteSize).sum

/-- Two peers, one of them twice, a report of another address, and a sweep. -/
def sampleReports : List Call :=
  [.observe ⟨[1]⟩ sampleAddress 0, .observe ⟨[1]⟩ sampleAddress 1,
    .observe ⟨[2]⟩ sampleAddress 2, .observe ⟨[3]⟩ [.ip4 ⟨9, 9, 9, 9⟩, .tcp 4001] 3, .expire 4]

theorem sample_needs_three :
    publicExternalAddress sampleSize sampleAddress = true ∧
      3 ≤ (reporters sampleAddress (sampleReports ++ [.observe ⟨[3]⟩ sampleAddress 5])).card :=
  external_needs_three sampleSize MAX_EXTERNAL_CANDIDATES (by decide) sampleReports
    (by decide +kernel)

end Protonet.ExternalAddresses
