import Protonet.Cidr
import Protonet.ExternalAddresses

namespace Protonet.PublicAddress
open Cidr Address ExternalAddresses StepRun

def addressIsPrivate (address : Multiaddr) : Bool :=
  address.any fun
    | .ip4 ip => isPrivate ip || isLoopback ip || isLinkLocal ip
    | .ip6 ip => isLoopbackV6 ip || ip.first &&& 0xfe00 = 0xfc00 || ip.first &&& 0xffc0 = 0xfe80
    | _ => false

def number (ip : Ipv4) : ℕ :=
  ((ip.a.toNat * 256 + ip.b.toNat) * 256 + ip.c.toNat) * 256 + ip.d.toNat

def loopback : Block 32 := { base := 0x7f000000, length := 8 }

def privateUse : List (Block 32) :=
  [{ base := 0x0a000000, length := 8 }, { base := 0xac100000, length := 12 },
    { base := 0xc0a80000, length := 16 }]

def linkLocal : Block 32 := { base := 0xa9fe0000, length := 16 }

def carrierGradeNat : Block 32 := { base := 0x64400000, length := 10 }

def benchmarking : Block 32 := { base := 0xc6120000, length := 15 }

def documentation : List (Block 32) :=
  [{ base := 0xc0000200, length := 24 }, { base := 0xc6336400, length := 24 },
    { base := 0xcb007100, length := 24 }]

def multicast : Block 32 := { base := 0xe0000000, length := 4 }

def broadcast : Block 32 := { base := 0xffffffff, length := 32 }

def unspecified : Block 32 := { base := 0, length := 32 }

/-- `240.0.0.0/4`. -/
def futureUse : Block 32 := { base := 0xf0000000, length := 4 }

def special : List (Block 32) :=
  privateUse ++ [loopback, linkLocal, unspecified, broadcast, multicast] ++ documentation ++
    [carrierGradeNat, benchmarking, futureUse]

def Special (n : ℕ) : Prop := ∃ b ∈ special, b.Contains n

variable {ip : Ipv4}

lemma octets_lt (ip : Ipv4) : ip.a.toNat < 256 ∧ ip.b.toNat < 256 ∧ ip.c.toNat < 256 ∧
    ip.d.toNat < 256 :=
  ⟨ip.a.toNat_lt, ip.b.toNat_lt, ip.c.toNat_lt, ip.d.toNat_lt⟩

lemma isPrivate_iff : isPrivate ip = true ↔ ∃ b ∈ privateUse, b.Contains (number ip) := by
  have h := octets_lt ip
  simp only [isPrivate, privateUse, number, Bool.or_eq_true, Bool.and_eq_true, decide_eq_true_eq,
    ← UInt8.toNat_inj, UInt8.le_iff_toNat_le, UInt8.reduceToNat, List.mem_cons, List.not_mem_nil,
    or_false, exists_eq_or_imp, exists_eq_left, contains_iff_range]
  omega

lemma isLoopback_iff : isLoopback ip = true ↔ loopback.Contains (number ip) := by
  have h := octets_lt ip
  simp only [isLoopback, loopback, number, decide_eq_true_eq, ← UInt8.toNat_inj,
    UInt8.reduceToNat, contains_iff_range]
  omega

lemma isLinkLocal_iff : isLinkLocal ip = true ↔ linkLocal.Contains (number ip) := by
  have h := octets_lt ip
  simp only [isLinkLocal, linkLocal, number, Bool.and_eq_true, decide_eq_true_eq,
    ← UInt8.toNat_inj, UInt8.reduceToNat, contains_iff_range]
  omega

lemma isUnspecified_iff : isUnspecified ip = true ↔ unspecified.Contains (number ip) := by
  obtain ⟨a, b, c, d⟩ := ip
  simp only [isUnspecified, unspecified, number, decide_eq_true_eq, Ipv4.mk.injEq,
    ← UInt8.toNat_inj, UInt8.reduceToNat, contains_iff_range]
  omega

lemma isBroadcast_iff : isBroadcast ip = true ↔ broadcast.Contains (number ip) := by
  have h := octets_lt ip
  obtain ⟨a, b, c, d⟩ := ip
  dsimp only at h
  simp only [isBroadcast, broadcast, number, decide_eq_true_eq, Ipv4.mk.injEq,
    ← UInt8.toNat_inj, UInt8.reduceToNat, contains_iff_range]
  omega

lemma isMulticast_iff : isMulticast ip = true ↔ multicast.Contains (number ip) := by
  have h := octets_lt ip
  simp only [isMulticast, multicast, number, Bool.and_eq_true, decide_eq_true_eq,
    UInt8.le_iff_toNat_le, UInt8.reduceToNat, contains_iff_range]
  omega

lemma isDocumentation_iff :
    isDocumentation ip = true ↔ ∃ b ∈ documentation, b.Contains (number ip) := by
  have h := octets_lt ip
  simp only [isDocumentation, documentation, number, Bool.or_eq_true, Bool.and_eq_true,
    decide_eq_true_eq, ← UInt8.toNat_inj, UInt8.reduceToNat, List.mem_cons, List.not_mem_nil,
    or_false, exists_eq_or_imp, exists_eq_left, contains_iff_range]
  omega

lemma carrierGradeNat_iff :
    (ip.a = 100 && 64 ≤ ip.b && ip.b ≤ 127) = true ↔ carrierGradeNat.Contains (number ip) := by
  have h := octets_lt ip
  simp only [carrierGradeNat, number, Bool.and_eq_true, decide_eq_true_eq, ← UInt8.toNat_inj,
    UInt8.le_iff_toNat_le, UInt8.reduceToNat, contains_iff_range]
  omega

lemma benchmarking_iff :
    (ip.a = 198 && 18 ≤ ip.b && ip.b ≤ 19) = true ↔ benchmarking.Contains (number ip) := by
  have h := octets_lt ip
  simp only [benchmarking, number, Bool.and_eq_true, decide_eq_true_eq, ← UInt8.toNat_inj,
    UInt8.le_iff_toNat_le, UInt8.reduceToNat, contains_iff_range]
  omega

lemma futureUse_iff : decide (240 ≤ ip.a) = true ↔ futureUse.Contains (number ip) := by
  have h := octets_lt ip
  simp only [futureUse, number, decide_eq_true_eq, UInt8.le_iff_toNat_le, UInt8.reduceToNat,
    contains_iff_range]
  omega

/-- The code refuses exactly the special addresses of IPv4. -/
lemma reserved_iff : reserved ip = true ↔ Special (number ip) := by
  simp only [reserved, Bool.or_eq_true, isPrivate_iff, isLoopback_iff, isLinkLocal_iff,
    isUnspecified_iff, isBroadcast_iff, isMulticast_iff, isDocumentation_iff, carrierGradeNat_iff,
    benchmarking_iff, futureUse_iff, Special, special, List.mem_append, or_and_right, exists_or,
    List.mem_cons, List.not_mem_nil, or_false, exists_eq_left, or_assoc]

def numberV6 (ip : Ipv6) : ℕ :=
  Nat.ofDigits 65536 ((List.ofFn ip.segments).reverse.map UInt16.toNat)

def loopbackV6 : Block 128 := { base := 1, length := 128 }

def unspecifiedV6 : Block 128 := { base := 0, length := 128 }

def multicastV6 : Block 16 := { base := 0xff00, length := 8 }

def uniqueLocal : Block 16 := { base := 0xfc00, length := 7 }

def linkLocalV6 : Block 16 := { base := 0xfe80, length := 10 }

def documentationV6 : Block 32 := { base := 0x20010db8, length := 32 }

/-- `3fff::/20`. -/
def documentationNew : Block 32 := { base := 0x3fff0000, length := 20 }

/-- `2001:2::/48`. -/
def benchmarkingV6 : Block 48 := { base := 0x200100020000, length := 48 }

def namedV6 : List (Block 128) :=
  [loopbackV6, unspecifiedV6, multicastV6.widen 112, uniqueLocal.widen 112,
    linkLocalV6.widen 112, documentationV6.widen 96]

def unnamedV6 : List (Block 128) := [documentationNew.widen 96, benchmarkingV6.widen 80]

lemma segment_lt {ip : Ipv6} : ∀ n ∈ (List.ofFn ip.segments).reverse.map UInt16.toNat,
    n < 65536 := by
  intro n hn
  obtain ⟨segment, -, rfl⟩ := List.mem_map.mp hn
  exact segment.toNat_lt

lemma numberV6_injective : Function.Injective numberV6 := by
  intro ip ip' h
  have hsegments := Nat.ofDigits_inj_of_len_eq (by decide) (by simp) segment_lt segment_lt h
  have hmap := List.map_injective_iff.mpr (fun _ _ => UInt16.toNat_inj.mp) hsegments
  exact congrArg Ipv6.mk (List.ofFn_injective (List.reverse_injective hmap))

lemma numberV6_eq (ip : Ipv6) : ∃ rest, rest < 2 ^ 96 ∧
    numberV6 ip = (ip.first.toNat * 2 ^ 16 + ip.second.toNat) * 2 ^ 96 + rest := by
  have hrest : Nat.ofDigits 65536 ((List.ofFn fun i : Fin 6 => ip.segments i.succ.succ).map
      UInt16.toNat).reverse < 65536 ^ 6 := by
    refine (Nat.ofDigits_lt_base_pow_length (by decide) fun n hn => ?_).trans_eq (by simp)
    obtain ⟨segment, -, rfl⟩ := List.mem_map.mp (List.mem_reverse.mp hn)
    exact segment.toNat_lt
  refine ⟨_, hrest, ?_⟩
  have hsplit : (List.ofFn ip.segments).reverse.map UInt16.toNat =
      (ip.first.toNat :: ip.second.toNat :: (List.ofFn fun i : Fin 6 =>
        ip.segments i.succ.succ).map UInt16.toNat).reverse := by
    rw [List.map_reverse, List.ofFn_succ, List.ofFn_succ]
    rfl
  rw [numberV6, hsplit, Nat.ofDigits_reverse_cons, Nat.ofDigits_reverse_cons]
  simp only [List.length_cons, List.length_map, List.length_ofFn]
  omega

lemma first_eq (ip : Ipv6) : numberV6 ip / 2 ^ 112 = ip.first.toNat := by
  obtain ⟨rest, hrest, heq⟩ := numberV6_eq ip
  have hsecond := ip.second.toNat_lt
  omega

lemma leading_eq (ip : Ipv6) :
    numberV6 ip / 2 ^ 96 = ip.first.toNat * 2 ^ 16 + ip.second.toNat := by
  obtain ⟨rest, hrest, heq⟩ := numberV6_eq ip
  omega

lemma mask_iff {ip : Ipv6} {b : Block 16} {mask base : UInt16}
    (hmask : mask.toNat = 2 ^ 16 - 2 ^ (16 - b.length)) (hbase : base.toNat = b.base) :
    ip.first &&& mask = base ↔ (b.widen 112).Contains (numberV6 ip) := by
  rw [widen_contains, first_eq, contains_iff_mask ip.first.toNat_lt, ← hmask, ← hbase,
    ← UInt16.toNat_and, UInt16.toNat_inj]

lemma isLoopbackV6_iff {ip : Ipv6} :
    isLoopbackV6 ip = true ↔ loopbackV6.Contains (numberV6 ip) := by
  have hone : numberV6 ⟨![0, 0, 0, 0, 0, 0, 0, 1]⟩ = 1 := by decide
  simp only [isLoopbackV6, decide_eq_true_eq, ← numberV6_injective.eq_iff, hone]
  simp [loopbackV6, Block.Contains]

lemma isUnspecifiedV6_iff {ip : Ipv6} :
    isUnspecifiedV6 ip = true ↔ unspecifiedV6.Contains (numberV6 ip) := by
  have hzero : numberV6 ⟨fun _ => 0⟩ = 0 := by decide
  simp only [isUnspecifiedV6, decide_eq_true_eq, ← numberV6_injective.eq_iff, hzero]
  simp [unspecifiedV6, Block.Contains]

lemma isMulticastV6_iff {ip : Ipv6} :
    isMulticastV6 ip = true ↔ (multicastV6.widen 112).Contains (numberV6 ip) := by
  rw [isMulticastV6, decide_eq_true_eq]
  exact mask_iff rfl rfl

lemma documentationV6_iff {ip : Ipv6} : (ip.first = 0x2001 && ip.second = 0x0db8) = true ↔
    (documentationV6.widen 96).Contains (numberV6 ip) := by
  have hsecond := ip.second.toNat_lt
  rw [widen_contains, leading_eq, contains_iff_range]
  simp only [documentationV6, Bool.and_eq_true, decide_eq_true_eq, ← UInt16.toNat_inj,
    UInt16.reduceToNat]
  omega

lemma reservedV6_iff {ip : Ipv6} :
    reservedV6 ip = true ↔ ∃ b ∈ namedV6, b.Contains (numberV6 ip) := by
  have huniqueLocal : ip.first &&& 0xfe00 = 0xfc00 ↔ _ := mask_iff (b := uniqueLocal) rfl rfl
  have hlinkLocal : ip.first &&& 0xffc0 = 0xfe80 ↔ _ := mask_iff (b := linkLocalV6) rfl rfl
  simp only [reservedV6, Bool.or_eq_true, isLoopbackV6_iff, isUnspecifiedV6_iff,
    isMulticastV6_iff, decide_eq_true_eq, huniqueLocal, hlinkLocal, documentationV6_iff, namedV6,
    List.mem_cons, List.not_mem_nil, or_false, exists_eq_or_imp, exists_eq_left, or_assoc]

def isDns : Component → Bool
  | .dns _ => true
  | .dns4 _ => true
  | .dns6 _ => true
  | .dnsaddr _ => true
  | _ => false

/-- The IPv4 address in an IPv4-mapped one. -/
def mapped (ip : Ipv6) : Option ℕ :=
  if numberV6 ip / 2 ^ 32 = 0xffff then some (numberV6 ip % 2 ^ 32) else none

def Named (ip : Ipv6) : Prop := ∃ b ∈ namedV6, b.Contains (numberV6 ip)

/-- What is special about an IPv6 address without a test of the code that asks about it. -/
def Unnamed (ip : Ipv6) : Prop :=
  (∃ b ∈ unnamedV6, b.Contains (numberV6 ip)) ∨ ∃ n ∈ mapped ip, Special n

def IsSpecial : Component → Prop
  | .ip4 ip => Special (number ip)
  | .ip6 ip => Named ip ∨ Unnamed ip
  | _ => False

/-- What a public address promises. -/
structure Outward (address : Multiaddr) : Prop where
  hasIp : ∃ c ∈ address, isIp c
  noDns : ∀ c ∈ address, ¬isDns c
  outside : ∀ c ∈ address, ¬IsSpecial c
  notPrivate : addressIsPrivate address = false

/-- Nothing in the address is of a kind the code refuses, but an address of IPv6 is special. -/
structure Overlooked (size : Multiaddr → ℕ) (address : Multiaddr) : Prop where
  fits : size address ≤ MAX_ADDRESS_BYTES
  noDns : ∀ c ∈ address, ¬isDns c
  ordinary : ∀ ip, .ip4 ip ∈ address → ¬Special (number ip)
  notNamed : ∀ ip, .ip6 ip ∈ address → ¬Named ip
  unnamed : ∃ ip, .ip6 ip ∈ address ∧ Unnamed ip

/-- What makes the loop leave with `false`. -/
def Refused : Component → Prop
  | .ip4 ip => Special (number ip)
  | .ip6 ip => Named ip
  | c => isDns c

variable {size : Multiaddr → ℕ} {address : Multiaddr} {c : Component} {found : Bool}

lemma publicLoop_cons : publicLoop (c :: address) found = true ↔
    ¬Refused c ∧ publicLoop address (found || isIp c) = true := by
  cases c with
  | ip4 ip =>
    rw [publicLoop, Refused, ← reserved_iff, isIp, Bool.or_true]
    cases reserved ip <;> simp
  | ip6 ip =>
    rw [publicLoop, Refused, Named, ← reservedV6_iff, isIp, Bool.or_true]
    cases reservedV6 ip <;> simp
  | _ => simp [publicLoop, Refused, isIp, isDns]

lemma publicLoop_iff : publicLoop address found = true ↔
    (∀ c ∈ address, ¬Refused c) ∧ (found = true ∨ ∃ c ∈ address, isIp c) := by
  induction address generalizing found with
  | nil => simp [publicLoop]
  | cons c address ih =>
    rw [publicLoop_cons, ih, List.forall_mem_cons, List.exists_mem_cons_iff, Bool.or_eq_true,
      and_assoc, or_assoc]

/-- A test of IP components that asks for less than the loop finds nothing. -/
lemma any_eq_false {test : Component → Bool} (hv4 : ∀ ip, test (.ip4 ip) → reserved ip)
    (hv6 : ∀ ip, test (.ip6 ip) → reservedV6 ip) (hother : ∀ c, ¬isIp c → test c = false)
    (hloop : ∀ c ∈ address, ¬Refused c) : address.any test = false := by
  rw [List.any_eq_false]
  intro c hc htest
  refine hloop c hc ?_
  cases c with
  | ip4 ip => exact reserved_iff.mp (hv4 ip htest)
  | ip6 ip => exact reservedV6_iff.mp (hv6 ip htest)
  | _ => exact absurd htest (Bool.eq_false_iff.mp (hother _ Bool.false_ne_true))

lemma validAnnounced_of_loop (hfits : size address ≤ MAX_ADDRESS_BYTES)
    (hloop : ∀ c ∈ address, ¬Refused c) : validAnnouncedAddress size address = true := by
  unfold validAnnouncedAddress
  rw [if_neg (not_lt.mpr hfits), Bool.not_eq_true']
  refine any_eq_false (fun ip h => ?_) (fun ip h => ?_) (fun c hc => ?_) hloop
  · simp only [reserved, Bool.or_eq_true] at h ⊢
    tauto
  · simp only [reservedV6, Bool.or_eq_true] at h ⊢
    tauto
  · cases c <;> first | rfl | exact absurd rfl hc

lemma notPrivate_of_loop (hloop : ∀ c ∈ address, ¬Refused c) :
    addressIsPrivate address = false := by
  refine any_eq_false (fun ip h => ?_) (fun ip h => ?_) (fun c hc => ?_) hloop
  · simp only [reserved, Bool.or_eq_true] at h ⊢
    tauto
  · simp only [reservedV6, Bool.or_eq_true] at h ⊢
    tauto
  · cases c <;> first | rfl | exact absurd rfl hc

lemma publicExternalAddress_iff : publicExternalAddress size address = true ↔
    size address ≤ MAX_ADDRESS_BYTES ∧ (∀ c ∈ address, ¬Refused c) ∧ ∃ c ∈ address, isIp c := by
  have hloop := @publicLoop_iff address false
  rw [Bool.false_eq_true, false_or] at hloop
  unfold publicExternalAddress
  constructor
  · intro h
    split_ifs at h with hvalid
    refine ⟨?_, hloop.mp h⟩
    by_contra hlong
    simp [validAnnouncedAddress, not_le.mp hlong] at hvalid
  · rintro ⟨hfits, h⟩
    rw [validAnnounced_of_loop hfits h.1]
    exact hloop.mpr h

lemma Overlooked.notRefused (h : Overlooked size address) : ∀ c ∈ address, ¬Refused c := by
  intro c hc
  cases c with
  | ip4 ip => exact h.ordinary ip hc
  | ip6 ip => exact h.notNamed ip hc
  | _ => exact h.noDns _ hc

lemma Overlooked.isPublic (h : Overlooked size address) :
    publicExternalAddress size address = true := by
  obtain ⟨ip, hip, -⟩ := h.unnamed
  exact publicExternalAddress_iff.mpr ⟨h.fits, h.notRefused, .ip6 ip, hip, rfl⟩

lemma outward_of_public (hpublic : publicExternalAddress size address = true)
    (hnot : ¬Overlooked size address) : Outward address := by
  obtain ⟨hfits, hloop, hasIp⟩ := publicExternalAddress_iff.mp hpublic
  have noDns : ∀ c ∈ address, ¬isDns c := by
    intro c hc
    cases c with
    | ip4 ip => exact Bool.false_ne_true
    | ip6 ip => exact Bool.false_ne_true
    | _ => exact hloop _ hc
  refine ⟨hasIp, noDns, fun c hc hspecial => ?_, notPrivate_of_loop hloop⟩
  cases c with
  | ip4 ip => exact hloop _ hc hspecial
  | ip6 ip =>
    rcases hspecial with hnamed | hunnamed
    · exact hloop _ hc hnamed
    · exact hnot ⟨hfits, noDns, fun _ hv4 => hloop _ hv4, fun _ hv6 => hloop _ hv6,
        ip, hc, hunnamed⟩
  | _ => exact hspecial

/-- Whatever the address and however its length is counted, what is taken for public is public
just when no special address of IPv6 is overlooked in it. -/
theorem public_sound_iff (size : Multiaddr → ℕ) (address : Multiaddr) :
    (publicExternalAddress size address = true → Outward address) ↔ ¬Overlooked size address := by
  constructor
  · intro hsound hover
    obtain ⟨ip, hip, hunnamed⟩ := hover.unnamed
    exact (hsound hover.isPublic).outside (.ip6 ip) hip (.inr hunnamed)
  · exact fun hnot hpublic => outward_of_public hpublic hnot

/-- `/ip6/::ffff:127.0.0.1/tcp/4001`. -/
def mappedLoopback : Multiaddr := [.ip6 ⟨![0, 0, 0, 0, 0, 0xffff, 0x7f00, 1]⟩, .tcp 4001]

/-- The node's own machine is taken for a public address. -/
theorem mappedLoopback_public :
    publicExternalAddress sampleSize mappedLoopback = true ∧ ¬Outward mappedLoopback := by
  refine ⟨by decide, fun h => h.outside _ List.mem_cons_self (.inr (.inr ?_))⟩
  exact ⟨0x7f000001, by decide, loopback, by simp [special], by decide⟩

end Protonet.PublicAddress
