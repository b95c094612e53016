import Protonet.Record

/-!
# Multiaddresses

An address is its list of components. Source keys are kept as the address parts that the code
prints into them, which determine the printed key and are determined by it.
-/
namespace Protonet.Address
open Record

structure Ipv4 where
  a : UInt8
  b : UInt8
  c : UInt8
  d : UInt8
  deriving DecidableEq

structure Ipv6 where
  segments : Fin 8 → UInt16
  deriving DecidableEq

inductive IpAddr
  | v4 (ip : Ipv4)
  | v6 (ip : Ipv6)
  deriving DecidableEq

/-- `v4-a.b.c` and `v6-s0:s1:s2:s3`. -/
inductive Prefix
  | v4 (a b c : UInt8)
  | v6 (s0 s1 s2 s3 : UInt16)
  deriving DecidableEq

inductive Component
  | ip4 (ip : Ipv4)
  | ip6 (ip : Ipv6)
  | dns (name : String)
  | dns4 (name : String)
  | dns6 (name : String)
  | dnsaddr (name : String)
  | tcp (port : UInt16)
  | udp (port : UInt16)
  | quicV1
  | p2p (peer : PeerId)
  | p2pCircuit
  | other (text : String)
  deriving DecidableEq

def isIp : Component → Bool
  | .ip4 _ => true
  | .ip6 _ => true
  | _ => false

abbrev Multiaddr := List Component

inductive TransportKind
  | quic
  | tcpNoiseYamux
  | circuitRelay
  | unknown
  deriving DecidableEq

inductive Directness
  | direct
  | relayed
  deriving DecidableEq

def decimal (n : ℕ) : List Char := Nat.toDigits 10 n

def hexDigits (n : ℕ) : List Char := Nat.toDigits 16 n

def Ipv4.text (ip : Ipv4) : List Char :=
  decimal ip.a.toNat ++ '.' :: decimal ip.b.toNat ++ '.' :: decimal ip.c.toNat ++
    '.' :: decimal ip.d.toNat

/-- Written without the contraction of zero segments; neither form contains a slash. -/
def Ipv6.text (ip : Ipv6) : List Char :=
  [':'].intercalate ((List.finRange 8).map fun i => hexDigits (ip.segments i).toNat)

/-- A peer id prints as base 58, which has no slash; its bytes stand for it here. -/
def peerText (peer : PeerId) : List Char := peer.toBytes.flatMap fun b => hexDigits b.toNat

def Component.text : Component → List Char
  | .ip4 ip => "/ip4/".toList ++ ip.text
  | .ip6 ip => "/ip6/".toList ++ ip.text
  | .dns name => "/dns/".toList ++ name.toList
  | .dns4 name => "/dns4/".toList ++ name.toList
  | .dns6 name => "/dns6/".toList ++ name.toList
  | .dnsaddr name => "/dnsaddr/".toList ++ name.toList
  | .tcp port => "/tcp/".toList ++ decimal port.toNat
  | .udp port => "/udp/".toList ++ decimal port.toNat
  | .quicV1 => "/quic-v1".toList
  | .p2p peer => "/p2p/".toList ++ peerText peer
  | .p2pCircuit => "/p2p-circuit".toList
  | .other text => text.toList

def addressText (address : Multiaddr) : List Char := address.flatMap Component.text

def textContains (text : List Char) (needle : String) : Bool := decide (needle.toList <:+: text)

def classifyAddress (address : Multiaddr) : TransportKind × Directness :=
  let text := addressText address
  let relayed := textContains text "/p2p-circuit"
  let transport :=
    if relayed then .circuitRelay
    else if textContains text "/quic-v1" then .quic
    else if textContains text "/tcp/" then .tcpNoiseYamux
    else .unknown
  (transport, if relayed then .relayed else .direct)

def addressIp (address : Multiaddr) : Option IpAddr :=
  address.findSome? fun
    | .ip4 ip => some (.v4 ip)
    | .ip6 ip => some (.v6 ip)
    | _ => none

def addressPrefix (address : Multiaddr) : Option Prefix :=
  address.findSome? fun
    | .ip4 ip => some (.v4 ip.a ip.b ip.c)
    | .ip6 ip => some (.v6 (ip.segments 0) (ip.segments 1) (ip.segments 2) (ip.segments 3))
    | _ => none

def Ipv6.first (ip : Ipv6) : UInt16 := ip.segments 0

def Ipv6.second (ip : Ipv6) : UInt16 := ip.segments 1

/-- `source_address_key`; `none` stands for the text `non-ip`. -/
def sourceAddressKey (address : Multiaddr) : Option IpAddr := addressIp address

end Protonet.Address
