import Floatile.Lib.Prefix
import Floatile.Services.Http

/-! The production transport: the addresses of the host are looked up once, each has to be public,
and the client that makes the request is built with the host resolved to the first of them. The
name service and the client come from external packages and are a parameter. -/
namespace Floatile.Services

open Floatile.Core
open Floatile.Lib

structure Ipv4Addr where
  a : UInt8
  b : UInt8
  c : UInt8
  d : UInt8
  deriving DecidableEq, Repr

/-- Eight segments, the leading one first. -/
structure Ipv6Addr where
  s0 : UInt16
  s1 : UInt16
  s2 : UInt16
  s3 : UInt16
  s4 : UInt16
  s5 : UInt16
  s6 : UInt16
  s7 : UInt16
  deriving DecidableEq, Repr

inductive IpAddr where
  | v4 (ip : Ipv4Addr)
  | v6 (ip : Ipv6Addr)
  deriving DecidableEq, Repr

def Ipv4Addr.value (ip : Ipv4Addr) : ℕ :=
  ((ip.a.toNat * 2^8 + ip.b.toNat) * 2^8 + ip.c.toNat) * 2^8 + ip.d.toNat

def isPublicIpv4 (ip : Ipv4Addr) : Bool :=
  !(ip.a = 0 ||
    ip.a = 10 ||
    ip.a = 127 ||
    (ip.a = 100 && 64 ≤ ip.b && ip.b ≤ 127) ||
    (ip.a = 169 && ip.b = 254) ||
    (ip.a = 172 && 16 ≤ ip.b && ip.b ≤ 31) ||
    (ip.a = 192 && ip.b = 0 && ip.c = 0) ||
    (ip.a = 192 && ip.b = 0 && ip.c = 2) ||
    (ip.a = 192 && ip.b = 168) ||
    (ip.a = 198 && (ip.b = 18 || ip.b = 19)) ||
    (ip.a = 198 && ip.b = 51 && ip.c = 100) ||
    (ip.a = 203 && ip.b = 0 && ip.c = 113) ||
    224 ≤ ip.a)

namespace Ipv6Addr

variable (ip : Ipv6Addr)

def isUnspecified : Bool := ip = ⟨0,0,0,0,0,0,0,0⟩

def isLoopback : Bool := ip = ⟨0,0,0,0,0,0,0,1⟩

def isMulticast : Bool := ip.s0 &&& 0xff00 = 0xff00

def isUniqueLocal : Bool := ip.s0 &&& 0xfe00 = 0xfc00

def isUnicastLinkLocal : Bool := ip.s0 &&& 0xffc0 = 0xfe80

/-- The last two segments, read as an IPv4 address; `first` and `second` are such segments. -/
def ipv4Of (first second : UInt16) : Ipv4Addr :=
  ⟨(first >>> 8).toUInt8,first.toUInt8,(second >>> 8).toUInt8,second.toUInt8⟩

def toIpv4Mapped : Option Ipv4Addr :=
  if ip.s0 = 0 ∧ ip.s1 = 0 ∧ ip.s2 = 0 ∧ ip.s3 = 0 ∧ ip.s4 = 0 ∧ ip.s5 = 0xffff then
    some (ipv4Of ip.s6 ip.s7)
  else none

end Ipv6Addr

def isPublicIp : IpAddr → Bool
  | .v4 ip => isPublicIpv4 ip
  | .v6 ip =>
    match ip.toIpv4Mapped with
    | some mapped => isPublicIpv4 mapped
    | none =>
      !(ip.isLoopback ||
        ip.isUnspecified ||
        ip.isMulticast ||
        ip.isUniqueLocal ||
        ip.isUnicastLinkLocal ||
        ip.s0 &&& 0xffc0 = 0xfec0 ||
        (ip.s0 = 0x2001 && ip.s1 = 0x0db8))

structure SocketAddr where
  ip : IpAddr
  port : ℕ
  deriving DecidableEq, Repr

/-- What a server sends back, up to a failure of the connection in the body. -/
structure HttpExchange where
  status : ℕ
  contentLength : Option ℕ
  chunks : List (Option (List UInt8))

/-- What becomes of a request that a client sends: the address of its connection, if there is one,
and what comes back. -/
structure Sent where
  connected : Option SocketAddr
  exchange : Option HttpExchange

/-- The name service and the client for a host that is resolved to an address, as a request meets
them. -/
structure Network (υ : Type) where
  lookupHost : String → ℕ → Option (List IpAddr)
  send : String → SocketAddr → HttpTransportRequest υ → Sent

/-- What is documented of the client: it connects to the address that the host is resolved to,
unless the environment names a proxy for the URL. -/
structure Network.ResolvesTo {υ : Type} (network : Network υ) (proxy : υ → Option SocketAddr) :
    Prop where
  direct : ∀ host pinned request, proxy request.url = none →
    ∀ connected ∈ (network.send host pinned request).connected, connected = pinned
  proxied : ∀ host pinned request, ∀ server ∈ proxy request.url,
    ∀ connected ∈ (network.send host pinned request).connected, connected = server

/-- The host and port of a URL. -/
structure HostLibrary (υ : Type) where
  hostStr : υ → Option String
  portOrKnownDefault : υ → Option ℕ

/-- The loop over the pieces of a body. Buffers are shorter than `2^63`, so the sum of two lengths
does not saturate. -/
def readBody (maxResponseBytes : ℕ) :
    List UInt8 → List (Option (List UInt8)) → Except HttpServiceError (List UInt8)
  | body, [] => .ok body
  | _, none :: _ => .error .unavailable
  | body, some chunk :: chunks =>
    if maxResponseBytes < body.length + chunk.length then .error .responseRejected
    else readBody maxResponseBytes (body ++ chunk) chunks

variable {υ : Type}

/-- The address that a request is pinned to. -/
def pinnedAddress (addresses : List IpAddr) (port : ℕ) : Except HttpServiceError SocketAddr :=
  match addresses with
  | [] => .error .destinationNotPublic
  | first :: _ =>
    if addresses.any (fun ip => !isPublicIp ip) then .error .destinationNotPublic
    else .ok ⟨first,port⟩

def acceptResponse (request : HttpTransportRequest υ) (exchange : HttpExchange) :
    Except HttpServiceError HttpResponse :=
  if !request.allowedStatuses.contains exchange.status ||
      exchange.contentLength.any (fun length => request.maxResponseBytes < length) then
    .error .responseRejected
  else (readBody request.maxResponseBytes [] exchange.chunks).map
    (fun body => ⟨exchange.status,body⟩)

/-- An attempt: its result, and the address that it connects to if it gets that far. -/
structure TransportRun where
  result : Except HttpServiceError HttpResponse
  connected : Option SocketAddr

def execute (lib : HostLibrary υ) (network : Network υ) (request : HttpTransportRequest υ) :
    TransportRun :=
  match lib.hostStr request.url, lib.portOrKnownDefault request.url with
  | some host, some port =>
    match network.lookupHost host port with
    | none => ⟨.error .unavailable,none⟩
    | some addresses =>
      match pinnedAddress addresses port with
      | .error e => ⟨.error e,none⟩
      | .ok pinned =>
        let sent := network.send host pinned request
        match sent.exchange with
        | none => ⟨.error .unavailable,sent.connected⟩
        | some exchange => ⟨acceptResponse request exchange,sent.connected⟩
  | _, _ => ⟨.error .invalidInput,none⟩

theorem length_of_readBody {maxResponseBytes : ℕ} {chunks : List (Option (List UInt8))}
    {start body : List UInt8} (hstart : start.length ≤ maxResponseBytes)
    (h : readBody maxResponseBytes start chunks = .ok body) : body.length ≤ maxResponseBytes := by
  induction chunks generalizing start with
  | nil =>
    cases h
    exact hstart
  | cons chunk chunks ih =>
    cases chunk with
    | none => cases h
    | some chunk =>
      simp only [readBody] at h
      split_ifs at h with hlong
      apply ih _ h
      rw [List.length_append]
      omega

/-- An attempt that succeeds: the host and port of the URL are known, and an answer of the client
is accepted. -/
theorem execute_eq_ok {lib : HostLibrary υ} {network : Network υ}
    {request : HttpTransportRequest υ} {response : HttpResponse}
    (h : (execute lib network request).result = .ok response) :
    ∃ host port exchange, lib.hostStr request.url = some host ∧
      lib.portOrKnownDefault request.url = some port ∧
      acceptResponse request exchange = .ok response := by
  unfold execute at h
  split at h
  · next host port hhost hport =>
    split at h
    · cases h
    · split at h
      · cases h
      · dsimp only at h
        split at h
        · cases h
        · next exchange _ => exact ⟨host,port,exchange,hhost,hport,h⟩
  · cases h

theorem acceptResponse_eq_ok {request : HttpTransportRequest υ} {exchange : HttpExchange}
    {response : HttpResponse} (h : acceptResponse request exchange = .ok response) :
    exchange.status ∈ request.allowedStatuses ∧
      response.body.length ≤ request.maxResponseBytes := by
  unfold acceptResponse at h
  split_ifs at h with hrejected
  obtain ⟨body,hbody,rfl⟩ := Checked.map_eq_ok.mp h
  simp only [Bool.or_eq_true, Bool.not_eq_true', not_or, Bool.not_eq_false,
    List.contains_eq_mem, decide_eq_true_eq] at hrejected
  exact ⟨hrejected.1,length_of_readBody (Nat.zero_le _) hbody⟩

end Floatile.Services
