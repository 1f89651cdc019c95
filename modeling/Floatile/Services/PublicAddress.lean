import Floatile.Services.Transport
import Mathlib.Data.List.ReduceOption

/-! Which addresses the filter lets through: none of a private or reserved range, and of the
addresses that carry an IPv4 address only the mapped ones by what they carry. -/
namespace Floatile.Services

open Floatile.Lib

/-- A private or reserved range of IPv4, by its dotted base and the length of its prefix. -/
def range4 (a b c : ℕ) (length : ℕ) : Prefix 32 := ⟨((a * 2^8 + b) * 2^8 + c) * 2^8,length⟩

def reservedIpv4 : List (Prefix 32) :=
  [range4 0 0 0 8,range4 10 0 0 8,range4 127 0 0 8,range4 100 64 0 10,range4 169 254 0 16,
    range4 172 16 0 12,range4 192 0 0 24,range4 192 0 2 24,range4 192 168 0 16,
    range4 198 18 0 15,range4 198 51 100 24,range4 203 0 113 24,range4 224 0 0 4,range4 240 0 0 4]

/-- The six segments after the first two. -/
def Ipv6Addr.low (ip : Ipv6Addr) : ℕ :=
  ((((ip.s2.toNat * 2^16 + ip.s3.toNat) * 2^16 + ip.s4.toNat) * 2^16 + ip.s5.toNat) * 2^16 +
    ip.s6.toNat) * 2^16 + ip.s7.toNat

def Ipv6Addr.value (ip : Ipv6Addr) : ℕ := (ip.s0.toNat * 2^16 + ip.s1.toNat) * 2^96 + ip.low

/-- A private or reserved range of IPv6, by its first two segments. -/
def range6 (s0 s1 : ℕ) (length : ℕ) : Prefix 128 := ⟨(s0 * 2^16 + s1) * 2^96,length⟩

def reservedIpv6 : List (Prefix 128) :=
  [⟨1,128⟩,⟨0,128⟩,range6 0xff00 0 8,range6 0xfc00 0 7,range6 0xfe80 0 10,range6 0xfec0 0 10,
    range6 0x2001 0x0db8 32]

def Ipv4Addr.reserved (ip : Ipv4Addr) : Bool := reservedIpv4.any (fun p => p.contains ip.value)

def Ipv6Addr.reserved (ip : Ipv6Addr) : Bool := reservedIpv6.any (fun p => p.contains ip.value)

section Ipv4

variable (ip : Ipv4Addr)

theorem range4_first {x k : ℕ} (hlength : k ≤ 8) :
    (range4 x 0 0 k).contains ip.value = true ↔
      ip.a.toNat / 2^(8 - k) = x / 2^(8 - k) := by
  have hcd := Prefix.contains_drop (v := 24) (k := k) (x := x * 2^8 * 2^8)
    (m := (ip.a.toNat * 2^8 + ip.b.toNat) * 2^8 + ip.c.toNat) ip.d.toNat_lt (by omega)
  have hbc := Prefix.contains_drop (v := 16) (k := k) (x := x * 2^8)
    (m := ip.a.toNat * 2^8 + ip.b.toNat) ip.c.toNat_lt (by omega)
  have hab := Prefix.contains_drop (v := 8) (k := k) (x := x) (m := ip.a.toNat)
    ip.b.toNat_lt hlength
  simp only [range4, Ipv4Addr.value, Nat.add_zero]
  exact hcd.trans (hbc.trans (hab.trans Prefix.contains_iff))

theorem range4_second {x y k : ℕ} (hy : y < 2^8) (hlength : k ≤ 8) :
    (range4 x y 0 (8 + k)).contains ip.value = true ↔
      ip.a.toNat = x ∧ ip.b.toNat / 2^(8 - k) = y / 2^(8 - k) := by
  have hcd := Prefix.contains_drop (v := 24) (k := 8 + k) (x := (x * 2^8 + y) * 2^8)
    (m := (ip.a.toNat * 2^8 + ip.b.toNat) * 2^8 + ip.c.toNat) ip.d.toNat_lt (by omega)
  have hbc := Prefix.contains_drop (v := 16) (k := 8 + k) (x := x * 2^8 + y)
    (m := ip.a.toNat * 2^8 + ip.b.toNat) ip.c.toNat_lt (by omega)
  have hab := Prefix.contains_digit (v := 8) (x := x) (m := ip.a.toNat) ip.b.toNat_lt hy hlength
  simp only [range4, Ipv4Addr.value, Nat.add_zero]
  rw [hcd,hbc,hab,Prefix.contains_iff]

theorem range4_third {x y z : ℕ} (hy : y < 2^8) (hz : z < 2^8) :
    (range4 x y z 24).contains ip.value = true ↔
      ip.a.toNat = x ∧ ip.b.toNat = y ∧ ip.c.toNat = z := by
  have hcd := Prefix.contains_drop (v := 24) (k := 24) (x := (x * 2^8 + y) * 2^8 + z)
    (m := (ip.a.toNat * 2^8 + ip.b.toNat) * 2^8 + ip.c.toNat) ip.d.toNat_lt (le_refl 24)
  have hb := ip.b.toNat_lt
  have hc := ip.c.toNat_lt
  refine hcd.trans (Prefix.contains_iff.trans ?_)
  simp only [Nat.sub_self, pow_zero, Nat.div_one]
  omega

/-- The filter lets an IPv4 address through exactly if it lies in no reserved range. -/
theorem isPublicIpv4_iff : isPublicIpv4 ip = true ↔ ip.reserved = false := by
  have ha := ip.a.toNat_lt
  have hb := ip.b.toNat_lt
  have h0 := range4_first ip (x := 0) (k := 8) (by decide)
  have h10 := range4_first ip (x := 10) (k := 8) (by decide)
  have h127 := range4_first ip (x := 127) (k := 8) (by decide)
  have h100 := range4_second ip (x := 100) (y := 64) (k := 2) (by decide) (by decide)
  have h169 := range4_second ip (x := 169) (y := 254) (k := 8) (by decide) (by decide)
  have h172 := range4_second ip (x := 172) (y := 16) (k := 4) (by decide) (by decide)
  have h192 := range4_second ip (x := 192) (y := 168) (k := 8) (by decide) (by decide)
  have h198 := range4_second ip (x := 198) (y := 18) (k := 7) (by decide) (by decide)
  have h224 := range4_first ip (x := 224) (k := 4) (by decide)
  have h240 := range4_first ip (x := 240) (k := 4) (by decide)
  have hthird {x y z : ℕ} (hy : y < 2^8) (hz : z < 2^8) := range4_third ip (x := x) hy hz
  have he100 : ip.b.toNat / 64 = 1 ↔ 64 ≤ ip.b.toNat ∧ ip.b.toNat ≤ 127 := by omega
  have he172 : ip.b.toNat / 16 = 1 ↔ 16 ≤ ip.b.toNat ∧ ip.b.toNat ≤ 31 := by omega
  have he198 : ip.b.toNat / 2 = 9 ↔ ip.b.toNat = 18 ∨ ip.b.toNat = 19 := by omega
  have he224 : ip.a.toNat / 16 = 14 ∨ ip.a.toNat / 16 = 15 ↔ 224 ≤ ip.a.toNat := by omega
  simp only [Nat.sub_self, pow_zero, Nat.div_one, Nat.reduceAdd, Nat.reduceSub, Nat.reducePow,
    Nat.reduceDiv] at h0 h10 h127 h100 h169 h172 h192 h198 h224 h240
  rw [← Bool.not_eq_true,Ipv4Addr.reserved,reservedIpv4,isPublicIpv4,Bool.not_eq_true',
    ← Bool.not_eq_true,not_iff_not]
  simp only [List.any_cons, List.any_nil, Bool.or_eq_true, h0, h10, h127, h100, h169, h172,
    h192, h198, h224, h240, hthird (x := 192) (y := 0) (z := 0) (by decide) (by decide),
    hthird (x := 192) (y := 0) (z := 2) (by decide) (by decide),
    hthird (x := 198) (y := 51) (z := 100) (by decide) (by decide),
    hthird (x := 203) (y := 0) (z := 113) (by decide) (by decide), he100, he172, he198, he224,
    Bool.false_eq_true, or_false]
  simp only [← UInt8.toNat_inj, UInt8.le_iff_toNat_le, Bool.and_eq_true, Bool.or_eq_true,
    decide_eq_true_eq, UInt8.reduceToNat, or_assoc, and_assoc]

end Ipv4

section Ipv6

variable (ip : Ipv6Addr)

theorem low_lt : ip.low < 2^96 := by
  have h2 := ip.s2.toNat_lt
  have h3 := ip.s3.toNat_lt
  have h4 := ip.s4.toNat_lt
  have h5 := ip.s5.toNat_lt
  have h6 := ip.s6.toNat_lt
  have h7 := ip.s7.toNat_lt
  unfold Ipv6Addr.low
  omega

theorem range6_first {x k : ℕ} (hlength : k ≤ 16) :
    (range6 x 0 k).contains ip.value = true ↔
      ip.s0.toNat / 2^(16 - k) = x / 2^(16 - k) := by
  have hlow := Prefix.contains_drop (v := 32) (k := k) (x := x * 2^16)
    (m := ip.s0.toNat * 2^16 + ip.s1.toNat) (low_lt ip) (by omega)
  have hfirst := Prefix.contains_drop (v := 16) (k := k) (x := x) (m := ip.s0.toNat)
    ip.s1.toNat_lt hlength
  simp only [range6, Ipv6Addr.value, Nat.add_zero]
  rw [hlow,hfirst,Prefix.contains_iff]

theorem range6_second {x y : ℕ} (hy : y < 2^16) :
    (range6 x y 32).contains ip.value = true ↔ ip.s0.toNat = x ∧ ip.s1.toNat = y := by
  have hlow := Prefix.contains_drop (v := 32) (k := 32) (x := x * 2^16 + y)
    (m := ip.s0.toNat * 2^16 + ip.s1.toNat) (low_lt ip) (le_refl 32)
  have h1 := ip.s1.toNat_lt
  simp only [range6, Ipv6Addr.value]
  rw [hlow,Prefix.contains_iff]
  simp only [Nat.sub_self, pow_zero, Nat.div_one]
  omega

theorem value_eq_iff (n : UInt16) :
    (⟨n.toNat,128⟩ : Prefix 128).contains ip.value = true ↔ ip = ⟨0,0,0,0,0,0,0,n⟩ := by
  obtain ⟨s0,s1,s2,s3,s4,s5,s6,s7⟩ := ip
  have h0 := s0.toNat_lt
  have h1 := s1.toNat_lt
  have h2 := s2.toNat_lt
  have h3 := s3.toNat_lt
  have h4 := s4.toNat_lt
  have h5 := s5.toNat_lt
  have h6 := s6.toNat_lt
  have h7 := s7.toNat_lt
  have hn := n.toNat_lt
  rw [Prefix.contains_iff]
  simp only [Nat.sub_self, pow_zero, Nat.div_one, Ipv6Addr.value, Ipv6Addr.low,
    Ipv6Addr.mk.injEq, ← UInt16.toNat_inj, UInt16.reduceToNat]
  omega

/-- The reserved ranges in terms of the segments. -/
theorem reserved_iff : ip.reserved = true ↔
    ip = ⟨0,0,0,0,0,0,0,1⟩ ∨ ip = ⟨0,0,0,0,0,0,0,0⟩ ∨ ip.s0.toNat / 2^8 = 0xff ∨
      ip.s0.toNat / 2^9 = 0x7e ∨ ip.s0.toNat / 2^6 = 0x3fa ∨ ip.s0.toNat / 2^6 = 0x3fb ∨
        (ip.s0.toNat = 0x2001 ∧ ip.s1.toNat = 0x0db8) := by
  have h0 : (⟨0,128⟩ : Prefix 128).contains ip.value = true ↔ _ := value_eq_iff ip 0
  have h1 : (⟨1,128⟩ : Prefix 128).contains ip.value = true ↔ _ := value_eq_iff ip 1
  have hff := range6_first ip (x := 0xff00) (k := 8) (by decide)
  have hfc := range6_first ip (x := 0xfc00) (k := 7) (by decide)
  have hfe := range6_first ip (x := 0xfe80) (k := 10) (by decide)
  have hsite := range6_first ip (x := 0xfec0) (k := 10) (by decide)
  have hdoc := range6_second ip (x := 0x2001) (y := 0x0db8) (by decide)
  rw [Ipv6Addr.reserved,reservedIpv6]
  simp only [List.any_cons, List.any_nil, Bool.or_eq_true, h0, h1, hff, hfc, hfe, hsite, hdoc,
    Bool.false_eq_true, or_false, Nat.reduceSub, Nat.reducePow, Nat.reduceDiv]

theorem masked_iff {s c d : UInt16} {k b : ℕ} (hk : k ≤ 16)
    (hmask : c.toNat = 2^16 - 2^k) (hvalue : d.toNat = b * 2^k) :
    s &&& c = d ↔ s.toNat / 2^k = b := by
  rw [← UInt16.toNat_inj,UInt16.toNat_and,hmask,hvalue]
  exact and_highBits_eq_iff s.toNat_lt hk

/-- An address that is no mapped one passes the filter exactly if it lies in no reserved range. -/
theorem isPublicIp_v6_iff (h : ip.toIpv4Mapped = none) :
    isPublicIp (.v6 ip) = true ↔ ip.reserved = false := by
  have hff := masked_iff (s := ip.s0) (c := 0xff00) (d := 0xff00) (k := 8) (b := 0xff)
    (by decide) (by decide) (by decide)
  have hfc := masked_iff (s := ip.s0) (c := 0xfe00) (d := 0xfc00) (k := 9) (b := 0x7e)
    (by decide) (by decide) (by decide)
  have hfe := masked_iff (s := ip.s0) (c := 0xffc0) (d := 0xfe80) (k := 6) (b := 0x3fa)
    (by decide) (by decide) (by decide)
  have hsite := masked_iff (s := ip.s0) (c := 0xffc0) (d := 0xfec0) (k := 6) (b := 0x3fb)
    (by decide) (by decide) (by decide)
  simp only [isPublicIp, h]
  rw [← Bool.not_eq_true,reserved_iff,Bool.not_eq_true',← Bool.not_eq_true,not_iff_not]
  simp only [Bool.or_eq_true, Ipv6Addr.isLoopback, Ipv6Addr.isUnspecified,
    Ipv6Addr.isMulticast, Ipv6Addr.isUniqueLocal, Ipv6Addr.isUnicastLinkLocal, decide_eq_true_eq,
    hff, hfc, hfe, hsite, Bool.and_eq_true]
  simp only [← UInt16.toNat_inj, UInt16.reduceToNat, or_assoc]

theorem isPublicIp_mapped {mapped : Ipv4Addr} (h : ip.toIpv4Mapped = some mapped) :
    isPublicIp (.v6 ip) = isPublicIpv4 mapped := by
  simp only [isPublicIp, h]

/-- A mapped address lies in no reserved range of IPv6. -/
theorem not_reserved_of_mapped {mapped : Ipv4Addr} (h : ip.toIpv4Mapped = some mapped) :
    ip.reserved = false := by
  simp only [Ipv6Addr.toIpv4Mapped, Option.ite_none_right_eq_some] at h
  obtain ⟨⟨h0,-,-,-,-,h5⟩,-⟩ := h
  rw [← Bool.not_eq_true,reserved_iff,h0]
  have hne : ∀ n, ip ≠ ⟨0,0,0,0,0,0,0,n⟩ := by
    rintro n rfl
    cases h5
  simp [hne]

end Ipv6

namespace Ipv6Addr

variable (ip : Ipv6Addr)

/-- `::a.b.c.d` -/
def toIpv4Compatible : Option Ipv4Addr :=
  if ip.s0 = 0 ∧ ip.s1 = 0 ∧ ip.s2 = 0 ∧ ip.s3 = 0 ∧ ip.s4 = 0 ∧ ip.s5 = 0 then
    some (ipv4Of ip.s6 ip.s7)
  else none

/-- `2002::/16` carries the address of the 6to4 gateway. -/
def to6to4 : Option Ipv4Addr := if ip.s0 = 0x2002 then some (ipv4Of ip.s1 ip.s2) else none

/-- `64:ff9b::/96` carries the address that a NAT64 gateway connects to. -/
def toNat64 : Option Ipv4Addr :=
  if ip.s0 = 0x64 ∧ ip.s1 = 0xff9b ∧ ip.s2 = 0 ∧ ip.s3 = 0 ∧ ip.s4 = 0 ∧ ip.s5 = 0 then
    some (ipv4Of ip.s6 ip.s7)
  else none

/-- The IPv4 addresses in forms that the filter does not look into. -/
def carried : List Ipv4Addr := [ip.toIpv4Compatible,ip.to6to4,ip.toNat64].reduceOption

/-- All IPv4 addresses that an IPv6 address embeds. -/
def embedded : List Ipv4Addr := ip.toIpv4Mapped.toList ++ ip.carried

theorem carried_of_mapped {mapped : Ipv4Addr} (h : ip.toIpv4Mapped = some mapped) :
    ip.carried = [] := by
  simp only [toIpv4Mapped, Option.ite_none_right_eq_some] at h
  obtain ⟨⟨h0,-,-,-,-,h5⟩,-⟩ := h
  simp [carried, toIpv4Compatible, to6to4, toNat64, h0, h5, List.reduceOption]

end Ipv6Addr

/-- What the filter is for: an address that passes is in no private or reserved range, and neither
is an IPv4 address that it embeds. -/
def FilterSound : IpAddr → Prop
  | .v4 ip => isPublicIp (.v4 ip) = true → ip.reserved = false
  | .v6 ip => isPublicIp (.v6 ip) = true →
    ip.reserved = false ∧ ∀ e ∈ ip.embedded, e.reserved = false

/-- The address itself is reserved, or no IPv4 address in an unchecked form is. -/
def CarriesPublic : IpAddr → Prop
  | .v4 _ => True
  | .v6 ip => ip.reserved = true ∨ ∀ e ∈ ip.carried, e.reserved = false

theorem filterSound_iff (ip : IpAddr) : FilterSound ip ↔ CarriesPublic ip := by
  cases ip with
  | v4 ip => exact iff_of_true (isPublicIpv4_iff ip).mp trivial
  | v6 ip =>
    simp only [FilterSound, CarriesPublic, Ipv6Addr.embedded]
    cases hmapped : ip.toIpv4Mapped with
    | some mapped =>
      rw [isPublicIp_mapped ip hmapped,ip.carried_of_mapped hmapped,isPublicIpv4_iff]
      simp [not_reserved_of_mapped ip hmapped]
    | none =>
      rw [isPublicIp_v6_iff ip hmapped]
      cases hreserved : ip.reserved <;> simp

theorem pinnedAddress_eq_ok {addresses : List IpAddr} {port : ℕ} {pinned : SocketAddr}
    (h : pinnedAddress addresses port = .ok pinned) :
    pinned.ip ∈ addresses ∧ ∀ ip ∈ addresses, isPublicIp ip = true := by
  cases addresses with
  | nil => cases h
  | cons first rest =>
    simp only [pinnedAddress] at h
    split_ifs at h with hany
    cases h
    refine ⟨List.mem_cons_self,?_⟩
    intro ip hip
    by_contra hnot
    exact hany (List.any_eq_true.mpr ⟨ip,hip,by simpa using hnot⟩)

/-- An address that was looked up for the host of a URL, all of whose addresses passed the
filter. -/
def Filtered {υ : Type} (lib : HostLibrary υ) (network : Network υ) (url : υ) (ip : IpAddr) :
    Prop :=
  ∃ host port addresses, lib.hostStr url = some host ∧ lib.portOrKnownDefault url = some port ∧
    network.lookupHost host port = some addresses ∧ ip ∈ addresses ∧
    ∀ other ∈ addresses, isPublicIp other = true

/-- No request is sent before the addresses have passed; the client is then built with one of
them. -/
theorem sent_filtered {υ : Type} {lib : HostLibrary υ} {network : Network υ}
    {request : HttpTransportRequest υ} {connected : SocketAddr}
    (h : (execute lib network request).connected = some connected) :
    ∃ host pinned, Filtered lib network request.url pinned.ip ∧
      (network.send host pinned request).connected = some connected := by
  unfold execute at h
  split at h
  · next host port hhost hport =>
    split at h
    · cases h
    · next addresses haddresses =>
      cases hpinned : pinnedAddress addresses port with
      | error e =>
        rw [hpinned] at h
        cases h
      | ok pinned =>
        obtain ⟨hmem,hpublic⟩ := pinnedAddress_eq_ok hpinned
        have hconnected : (network.send host pinned request).connected = some connected := by
          rw [hpinned] at h
          dsimp only at h
          split at h <;> exact h
        exact ⟨host,pinned,⟨host,port,addresses,hhost,hport,haddresses,hmem,hpublic⟩,hconnected⟩
  · cases h

/-- A connection is made around the filter exactly if it is one to a proxy at an address that the
filter has not let through. -/
theorem connected_filtered_iff {υ : Type} {lib : HostLibrary υ} {network : Network υ}
    {proxy : υ → Option SocketAddr} (hresolves : network.ResolvesTo proxy)
    {request : HttpTransportRequest υ} {connected : SocketAddr}
    (h : (execute lib network request).connected = some connected) :
    Filtered lib network request.url connected.ip ↔
      ∀ server ∈ proxy request.url, Filtered lib network request.url server.ip := by
  obtain ⟨host,pinned,hfiltered,hsent⟩ := sent_filtered h
  cases hproxy : proxy request.url with
  | none =>
    obtain rfl := hresolves.direct host pinned request hproxy connected hsent
    exact iff_of_true hfiltered (by simp)
  | some server =>
    obtain rfl := hresolves.proxied host pinned request server hproxy connected hsent
    simp

/-- The filter does what it is for on exactly the addresses that do not smuggle a reserved IPv4
address, and a connection is made to an address that it let through unless the environment names a
proxy at another one. -/
theorem public_filter {υ : Type} (lib : HostLibrary υ) (network : Network υ)
    (proxy : υ → Option SocketAddr) (hresolves : network.ResolvesTo proxy) :
    (∀ ip, FilterSound ip ↔ CarriesPublic ip) ∧
    ∀ (request : HttpTransportRequest υ) connected,
      (execute lib network request).connected = some connected →
        (Filtered lib network request.url connected.ip ↔
          ∀ server ∈ proxy request.url, Filtered lib network request.url server.ip) :=
  ⟨filterSound_iff,fun _ _ h => connected_filtered_iff hresolves h⟩

/-- The hosts of URLs that are just a host, at the port of HTTPS. -/
def bareHosts : HostLibrary String := ⟨some,fun _ => some 443⟩

/-- A network in which every name has one address and the client connects to a proxy, if there
is one. -/
def plainNetwork (ip : IpAddr) (proxy : Option SocketAddr) : Network String where
  lookupHost _ _ := some [ip]
  send _ pinned _ := ⟨some (proxy.getD pinned),some ⟨200,none,[]⟩⟩

theorem plainNetwork_resolvesTo (ip : IpAddr) (proxy : Option SocketAddr) :
    (plainNetwork ip proxy).ResolvesTo (fun _ => proxy) where
  direct := by
    rintro host pinned request rfl connected ⟨⟩
    rfl
  proxied := by
    rintro host pinned request server hserver connected ⟨⟩
    rw [Option.mem_def.mp hserver]
    rfl

def bareRequest : HttpTransportRequest String := ⟨"api.example.com","authorization",[],4096,[200]⟩

/-- Without a proxy the request goes to the public address of its host. -/
theorem bareRequest_filtered :
    Filtered bareHosts (plainNetwork (.v4 ⟨93,184,216,34⟩) none) "api.example.com"
      (.v4 ⟨93,184,216,34⟩) := by
  have hconnected : (execute bareHosts (plainNetwork (.v4 ⟨93,184,216,34⟩) none)
      bareRequest).connected = some ⟨.v4 ⟨93,184,216,34⟩,443⟩ := by decide
  have hresolves := plainNetwork_resolvesTo (.v4 ⟨93,184,216,34⟩) none
  have hfilter := public_filter bareHosts _ _ hresolves
  exact (hfilter.2 bareRequest _ hconnected).mpr (by simp)

/-- `64:ff9b::7f00:1` passes and carries 127.0.0.1, and a proxy on this machine is connected to. -/
theorem nat64_loopback_passes :
    (¬∀ ip, FilterSound ip) ∧
    ¬∀ (network : Network String) proxy, network.ResolvesTo proxy →
      ∀ request connected, (execute bareHosts network request).connected = some connected →
        Filtered bareHosts network request.url connected.ip := by
  constructor
  · intro h
    have hsound := h (.v6 ⟨0x64,0xff9b,0,0,0,0,0x7f00,1⟩) (by decide)
    exact absurd (hsound.2 ⟨127,0,0,1⟩ (by decide)) (by decide)
  · intro h
    have hconnected : (execute bareHosts
        (plainNetwork (.v4 ⟨93,184,216,34⟩) (some ⟨.v4 ⟨127,0,0,1⟩,3128⟩))
        bareRequest).connected = some ⟨.v4 ⟨127,0,0,1⟩,3128⟩ := by decide
    obtain ⟨host,port,addresses,-,-,hlookup,hmem,-⟩ :=
      h _ _ (plainNetwork_resolvesTo _ _) _ _ hconnected
    cases hlookup
    exact absurd hmem (by decide)

end Floatile.Services
