import Mathlib
import BrowserServe.Library.IpRange
import BrowserServe.Library.Program
import BrowserServe.ProxyParse

namespace BrowserServe
open Library
set_option autoImplicit true

def blockedV4 (a b c d : UInt8) : Bool :=
  IpAddr.isUnspecifiedV4 a b c d || IpAddr.isLoopbackV4 a || IpAddr.isPrivateV4 a b ||
    IpAddr.isLinkLocalV4 a b || IpAddr.isMulticastV4 a || IpAddr.isBroadcastV4 a b c d ||
    a = 0 || 240 ≤ a || (a = 100 && 64 ≤ b && b < 128) || (a = 192 && b = 0 && c = 0) ||
    (a = 192 && b = 0 && c = 2) || (a = 198 && (b = 18 || b = 19)) ||
    (a = 198 && b = 51 && c = 100) || (a = 203 && b = 0 && c = 113)

def blockedV6 (ip : Vector UInt16 8) : Bool :=
  match IpAddr.toIpv4Mapped ip with
  | some (a, b, c, d) => blockedV4 a b c d
  | none =>
    let compatible := ip.toList.take 6 = [0, 0, 0, 0, 0, 0] && !IpAddr.isUnspecifiedV6 ip &&
      !IpAddr.isLoopbackV6 ip
    let nat64 := ip[0] = 0x64 && ip[1] = 0xff9b
    if compatible || nat64 then
      let (a, b, c, d) := IpAddr.lastV4 ip
      blockedV4 a b c d
    else
      IpAddr.isUnspecifiedV6 ip || IpAddr.isLoopbackV6 ip || IpAddr.isMulticastV6 ip ||
        ip[0] &&& 0xfe00 = 0xfc00 || ip[0] &&& 0xffc0 = 0xfe80 || ip[0] &&& 0xffc0 = 0xfec0 ||
        (ip[0] = 0x2001 && ip[1] = 0x0db8)

def isBlockedIp : IpAddr → Bool
  | .v4 a b c d => blockedV4 a b c d
  | .v6 segments => blockedV6 segments

/-- The IPv4 ranges that a proxy must not be in. -/
def REFUSED_V4 : List Cidr :=
  [⟨.v4 0 0 0 0, 8⟩, ⟨.v4 10 0 0 0, 8⟩, ⟨.v4 100 64 0 0, 10⟩, ⟨.v4 127 0 0 0, 8⟩,
    ⟨.v4 169 254 0 0, 16⟩, ⟨.v4 172 16 0 0, 12⟩, ⟨.v4 192 0 0 0, 24⟩, ⟨.v4 192 0 2 0, 24⟩,
    ⟨.v4 192 168 0 0, 16⟩, ⟨.v4 198 18 0 0, 15⟩, ⟨.v4 198 51 100 0, 24⟩, ⟨.v4 203 0 113 0, 24⟩,
    ⟨.v4 224 0 0 0, 4⟩, ⟨.v4 240 0 0 0, 4⟩]

def BENCHMARKING_V6 : Cidr := ⟨ipv6 [0x2001, 2], 48⟩

/-- Unspecified, loopback, multicast, unique-local, link-local, documentation, benchmarking. -/
def REFUSED_V6 : List Cidr :=
  [⟨ipv6 [], 128⟩, ⟨ipv6 [0, 0, 0, 0, 0, 0, 0, 1], 128⟩, ⟨ipv6 [0xff00], 8⟩, ⟨ipv6 [0xfc00], 7⟩,
    ⟨ipv6 [0xfe80], 10⟩, ⟨ipv6 [0x2001, 0xdb8], 32⟩, BENCHMARKING_V6]

def LAST_OCTETS : Nat × Nat × Nat × Nat := (12, 13, 14, 15)

/-- After a prefix of 48 bits the ninth octet is not part of the address. -/
def LOCAL_NAT64 : Embedding := ⟨⟨ipv6 [0x64, 0xff9b, 1], 48⟩, (6, 7, 9, 10)⟩

/-- The mapped, the compatible and the NAT64 addresses. -/
def EMBEDDINGS : List Embedding :=
  [⟨⟨ipv6 [0, 0, 0, 0, 0, 0xffff], 96⟩, LAST_OCTETS⟩, ⟨⟨ipv6 [], 96⟩, LAST_OCTETS⟩,
    ⟨⟨ipv6 [0x64, 0xff9b], 96⟩, LAST_OCTETS⟩, LOCAL_NAT64]

def refusedV4 (ip : IpAddr) : Bool := REFUSED_V4.any (·.contains ip)

/-- The addresses that the relay is not to be pointed at. -/
def refused (ip : IpAddr) : Bool :=
  refusedV4 ip || REFUSED_V6.any (·.contains ip) ||
    EMBEDDINGS.any fun e => e.range.contains ip && refusedV4 (e.embedded ip)

/-- The last octets of an address for local NAT64, where a prefix of 96 bits leaves the IPv4
address. -/
def LOCAL_NAT64_LAST : Embedding := ⟨LOCAL_NAT64.range, LAST_OCTETS⟩

/-- The addresses for benchmarks, and those for local NAT64 whose last octets hide a refused
address. -/
def missed (ip : IpAddr) : Bool :=
  BENCHMARKING_V6.contains ip ||
    (LOCAL_NAT64.range.contains ip && refusedV4 (LOCAL_NAT64.embedded ip) &&
      !refusedV4 (LOCAL_NAT64_LAST.embedded ip))

section
variable {a b c d : UInt8}

theorem refusedV4_iff : refusedV4 (.v4 a b c d) = true ↔
    a.toNat = 0 ∨ a.toNat = 10 ∨ (a.toNat = 100 ∧ b.toNat / 64 = 1) ∨ a.toNat = 127 ∨
      (a.toNat = 169 ∧ b.toNat = 254) ∨ (a.toNat = 172 ∧ b.toNat / 16 = 1) ∨
      (a.toNat = 192 ∧ b.toNat = 0 ∧ c.toNat = 0) ∨ (a.toNat = 192 ∧ b.toNat = 0 ∧ c.toNat = 2) ∨
      (a.toNat = 192 ∧ b.toNat = 168) ∨ (a.toNat = 198 ∧ b.toNat / 2 = 9) ∨
      (a.toNat = 198 ∧ b.toNat = 51 ∧ c.toNat = 100) ∨
      (a.toNat = 203 ∧ b.toNat = 0 ∧ c.toNat = 113) ∨ a.toNat / 16 = 14 ∨ a.toNat / 16 = 15 := by
  simp (disch := decide) only [refusedV4, REFUSED_V4, List.any_cons, List.any_nil, Bool.or_false,
    Bool.or_eq_true, Cidr.contains_v4_first, Cidr.contains_v4_second,
    Cidr.contains_v4_third]
  simp

/-- Over IPv4 the relay refuses exactly the ranges. -/
theorem blockedV4_iff : blockedV4 a b c d = true ↔ refusedV4 (.v4 a b c d) = true := by
  rw [refusedV4_iff]
  simp only [blockedV4, IpAddr.isUnspecifiedV4, IpAddr.isLoopbackV4, IpAddr.isPrivateV4,
    IpAddr.isLinkLocalV4, IpAddr.isMulticastV4, IpAddr.isBroadcastV4, Bool.or_eq_true,
    Bool.and_eq_true, decide_eq_true_iff, ← UInt8.toNat_inj, UInt8.le_iff_toNat_le,
    UInt8.lt_iff_toNat_lt, UInt8.reduceToNat]
  have ha := a.toNat_lt
  have hshared : (64 ≤ b.toNat ∧ b.toNat < 128) ↔ b.toNat / 64 = 1 := by omega
  have hprivate : (a.toNat = 172 ∧ 16 ≤ b.toNat) ∧ b.toNat ≤ 31 ↔
      a.toNat = 172 ∧ b.toNat / 16 = 1 := by omega
  have hbenchmark : b.toNat = 18 ∨ b.toNat = 19 ↔ b.toNat / 2 = 9 := by omega
  have hmulticast : 224 ≤ a.toNat ∧ a.toNat ≤ 239 ↔ a.toNat / 16 = 14 := by omega
  have hreserved : 240 ≤ a.toNat ↔ a.toNat / 16 = 15 := by omega
  simp only [and_assoc] at hprivate ⊢
  rw [hshared, hprivate, hbenchmark, hmulticast, hreserved]
  constructor
  · rintro h
    simp only [or_assoc] at h
    rcases h with h | h | h | h | h | h | h | h | h | h | h | h | h | h | h | h
    all_goals simp [h]
  · intro h
    rcases h with h | h | h | h | h | h | h | h | h | h | h | h | h | h
    all_goals simp [h]

end

section
variable {ip : Vector UInt16 8}

/-- The ranges that the code looks for in an IPv6 address itself. -/
def ownRange (ip : Vector UInt16 8) : Prop :=
  ip.toList = [0, 0, 0, 0, 0, 0, 0, 0] ∨ ip.toList = [0, 0, 0, 0, 0, 0, 0, 1] ∨
    ip[0].toNat / 256 = 0xff ∨ ip[0].toNat / 512 = 0x7e ∨ ip[0].toNat / 64 = 0x3fa ∨
    (ip[0].toNat = 0x2001 ∧ ip[1].toNat = 0xdb8)

/-- The IPv6 addresses whose last octets the code takes for an IPv4 address. -/
def readsLast (ip : Vector UInt16 8) : Prop :=
  ip.toList.take 6 = [0, 0, 0, 0, 0, 0xffff] ∨
    (ip.toList.take 6 = [0, 0, 0, 0, 0, 0] ∧ ip.toList ≠ [0, 0, 0, 0, 0, 0, 0, 0] ∧
      ip.toList ≠ [0, 0, 0, 0, 0, 0, 0, 1]) ∨ (ip[0] = 0x64 ∧ ip[1] = 0xff9b)

instance : Decidable (readsLast ip) := inferInstanceAs (Decidable (_ ∨ _))

theorem toList_eq_iff (segments : List UInt16) :
    ip.toList = segments ↔ (IpAddr.v6 ip).parts = segments.map UInt16.toNat := by
  rw [← List.take_of_length_le (l := ip.toList) (i := 8) (by simp), ← IpAddr.parts_take,
    List.take_of_length_le]
  simp [IpAddr.parts]

theorem refusedV6_iff : (REFUSED_V6.any fun range => range.contains (.v6 ip)) = true ↔
    ownRange ip ∨ BENCHMARKING_V6.contains (.v6 ip) = true := by
  have hunspecified := Cidr.contains_v6 ip [] 7 16 (by decide) (by decide)
  have hloopback := Cidr.contains_v6 ip [0, 0, 0, 0, 0, 0, 0, 1] 7 16 (by decide) (by decide)
  have hlocal := Cidr.contains_v6 ip [0xfc00] 0 7 (by decide) (by decide)
  have hlink := Cidr.contains_v6 ip [0xfe80] 0 10 (by decide) (by decide)
  have hmulticast := Cidr.contains_v6 ip [0xff00] 0 8 (by decide) (by decide)
  have hdocumentation := Cidr.contains_v6 ip [0x2001, 0xdb8] 1 16 (by decide) (by decide)
  rw [IpAddr.parts_v6] at *
  simp [List.range_succ] at hunspecified hloopback hlocal hlink hmulticast hdocumentation
  simp only [REFUSED_V6, List.any_cons, List.any_nil, Bool.or_eq_true, Bool.or_false, hunspecified,
    hloopback, hlocal, hlink, hmulticast, hdocumentation, ownRange, toList_eq_iff, IpAddr.parts_v6]
  simp [and_assoc, or_assoc]

theorem blockedV6_iff : blockedV6 ip = true ↔
    if readsLast ip then refusedV4 (LOCAL_NAT64_LAST.embedded (.v6 ip)) = true
    else ownRange ip ∨ (ip.get 0).toNat / 64 = 0x3fb := by
  have hlast : LOCAL_NAT64_LAST.embedded (.v6 ip) = .v4 (IpAddr.lastV4 ip).1 (IpAddr.lastV4 ip).2.1
      (IpAddr.lastV4 ip).2.2.1 (IpAddr.lastV4 ip).2.2.2 := by
    simp only [Embedding.embedded, IpAddr.octets, toList_eight]
    rfl
  have hlocal : ip[0] &&& 0xfe00 = 0xfc00 ↔ ip[0].toNat / 2 ^ 9 = 0x7e :=
    UInt16.land_high_eq (by decide) _ _ rfl rfl
  have hlink : ip[0] &&& 0xffc0 = 0xfe80 ↔ ip[0].toNat / 2 ^ 6 = 0x3fa :=
    UInt16.land_high_eq (by decide) _ _ rfl rfl
  have hsite : ip[0] &&& 0xffc0 = 0xfec0 ↔ (ip.get 0).toNat / 2 ^ 6 = 0x3fb :=
    UInt16.land_high_eq (by decide) _ _ rfl rfl
  have hmulticast : ip.get 0 &&& 0xff00 = 0xff00 ↔ ip[0].toNat / 2 ^ 8 = 0xff :=
    UInt16.land_high_eq (by decide) _ _ rfl rfl
  rw [hlast, ← blockedV4_iff, blockedV6, IpAddr.toIpv4Mapped]
  by_cases hmapped : ip.toList.take 6 = [0, 0, 0, 0, 0, 0xffff]
  · have hreads : readsLast ip := .inl hmapped
    rw [if_pos hmapped, if_pos hreads]
  · rw [if_neg hmapped]
    simp only [readsLast, hmapped, false_or, IpAddr.isUnspecifiedV6, IpAddr.isLoopbackV6,
      IpAddr.isMulticastV6, Bool.or_eq_true, Bool.and_eq_true, Bool.not_eq_true',
        decide_eq_true_iff,
      decide_eq_false_iff_not, and_assoc]
    split
    · exact Iff.rfl
    · simp only [Bool.or_eq_true, Bool.and_eq_true, decide_eq_true_iff, hlocal, hlink, hsite,
        hmulticast, ownRange, ← UInt16.toNat_inj, UInt16.reduceToNat, Nat.reducePow]
      rw [or_right_comm]
      simp only [or_assoc]

theorem not_readsLast (h : ownRange ip) : ¬readsLast ip := by
  simp only [ownRange, readsLast, toList_eight, List.take, List.cons.injEq, and_true, ne_eq,
    ← UInt16.toNat_inj, UInt16.reduceToNat] at h ⊢
  omega

theorem readsLast_of_nat64 {n : Nat} {rest : List UInt16}
    (h : ip.toList.take (n + 2) = 0x64 :: 0xff9b :: rest) : readsLast ip := by
  rw [toList_eight] at h
  obtain ⟨hfirst, h⟩ := List.cons.inj h
  exact .inr (.inr ⟨hfirst, (List.cons.inj h).1⟩)

/-- An IPv6 address has an IPv4 address in its last octets, or in those for local NAT64. -/
theorem embeddings_iff : (EMBEDDINGS.any fun e => e.range.contains (.v6 ip) &&
      refusedV4 (e.embedded (.v6 ip))) = true ↔
    ((ip.toList.take 6 = [0, 0, 0, 0, 0, 0xffff] ∨ ip.toList.take 6 = [0, 0, 0, 0, 0, 0] ∨
      ip.toList.take 6 = [0x64, 0xff9b, 0, 0, 0, 0]) ∧
        refusedV4 (LOCAL_NAT64_LAST.embedded (.v6 ip)) = true) ∨
      (LOCAL_NAT64.range.contains (.v6 ip) = true ∧
        refusedV4 (LOCAL_NAT64.embedded (.v6 ip)) = true) := by
  have hlast : ∀ range, Embedding.embedded ⟨range, LAST_OCTETS⟩ (.v6 ip) =
      LOCAL_NAT64_LAST.embedded (.v6 ip) := fun range => rfl
  have hmapped := Cidr.contains_v6 ip [0, 0, 0, 0, 0, 0xffff] 5 16 (by decide) (by decide)
  have hcompatible := Cidr.contains_v6 ip [] 5 16 (by decide) (by decide)
  have hnat64 := Cidr.contains_v6 ip [0x64, 0xff9b] 5 16 (by decide) (by decide)
  rw [IpAddr.parts_v6] at *
  simp [List.range_succ] at hmapped hcompatible hnat64
  simp only [EMBEDDINGS, List.any_cons, List.any_nil, Bool.or_eq_true, Bool.and_eq_true,
    Bool.or_false, hlast, hmapped, hcompatible, hnat64, ← IpAddr.parts_take, IpAddr.parts_v6]
  simp [and_assoc, or_and_right, or_assoc]

theorem benchmarking_iff : BENCHMARKING_V6.contains (.v6 ip) = true ↔
    ip.toList.take 3 = [0x2001, 2, 0] := by
  have h := Cidr.contains_v6 ip [0x2001, 2] 2 16 (by decide) (by decide)
  rw [IpAddr.parts_v6] at h
  simp [List.range_succ] at h
  rw [BENCHMARKING_V6, h, ← IpAddr.parts_take, IpAddr.parts_v6]
  simp [and_assoc]

theorem localNat64_iff : LOCAL_NAT64.range.contains (.v6 ip) = true ↔
    ip.toList.take 3 = [0x64, 0xff9b, 1] := by
  have h := Cidr.contains_v6 ip [0x64, 0xff9b, 1] 2 16 (by decide) (by decide)
  rw [IpAddr.parts_v6] at h
  simp [List.range_succ] at h
  rw [LOCAL_NAT64, h, ← IpAddr.parts_take, IpAddr.parts_v6]
  simp [and_assoc]

theorem refused_v6_iff : refused (.v6 ip) = true ↔
    ownRange ip ∨ BENCHMARKING_V6.contains (.v6 ip) = true ∨
      ((ip.toList.take 6 = [0, 0, 0, 0, 0, 0xffff] ∨ ip.toList.take 6 = [0, 0, 0, 0, 0, 0] ∨
        ip.toList.take 6 = [0x64, 0xff9b, 0, 0, 0, 0]) ∧
          refusedV4 (LOCAL_NAT64_LAST.embedded (.v6 ip)) = true) ∨
      (LOCAL_NAT64.range.contains (.v6 ip) = true ∧
        refusedV4 (LOCAL_NAT64.embedded (.v6 ip)) = true) := by
  have hfamily : refusedV4 (.v6 ip) = false := rfl
  rw [refused, hfamily, Bool.false_or, Bool.or_eq_true, refusedV6_iff, embeddings_iff, or_assoc]

/-- An address of a refused range that the code lets through. -/
theorem missed_v6_iff : (refused (.v6 ip) = true ∧ blockedV6 ip = false) ↔
    missed (.v6 ip) = true := by
  have hmissed : missed (.v6 ip) = true ↔ BENCHMARKING_V6.contains (.v6 ip) = true ∨
      ((LOCAL_NAT64.range.contains (.v6 ip) = true ∧
        refusedV4 (LOCAL_NAT64.embedded (.v6 ip)) = true) ∧
        ¬refusedV4 (LOCAL_NAT64_LAST.embedded (.v6 ip)) = true) := by
    simp only [missed, Bool.or_eq_true, Bool.and_eq_true, Bool.not_eq_true', Bool.not_eq_true]
  rw [hmissed, ← Bool.not_eq_true, blockedV6_iff, refused_v6_iff, benchmarking_iff, localNat64_iff]
  constructor
  · rintro ⟨hrefused, hblocked⟩
    rcases hrefused with hown | hbenchmark | ⟨hrange, hlast⟩ | ⟨hlocal, hembedded⟩
    · rw [if_neg (not_readsLast hown)] at hblocked
      exact absurd (.inl hown) hblocked
    · exact .inl hbenchmark
    · by_cases hown : ownRange ip
      · rw [if_neg (not_readsLast hown)] at hblocked
        exact absurd (.inl hown) hblocked
      · have hreads : readsLast ip := by
          rcases hrange with hmapped | hcompatible | hnat64
          · exact .inl hmapped
          · exact .inr (.inl ⟨hcompatible, fun h => hown (.inl h), fun h => hown (.inr (.inl h))⟩)
          · exact readsLast_of_nat64 hnat64
        rw [if_pos hreads] at hblocked
        exact absurd hlast hblocked
    · rw [if_pos (readsLast_of_nat64 hlocal)] at hblocked
      exact .inr ⟨⟨hlocal, hembedded⟩, hblocked⟩
  · rintro (hbenchmark | ⟨⟨hlocal, hembedded⟩, hlast⟩)
    · refine ⟨.inr (.inl hbenchmark), ?_⟩
      have hnone : ¬readsLast ip ∧ ¬(ownRange ip ∨ ip[0].toNat / 64 = 0x3fb) := by
        simp only [ownRange, readsLast, toList_eight, List.take, List.cons.injEq, and_true, ne_eq,
          ← UInt16.toNat_inj, UInt16.reduceToNat] at hbenchmark ⊢
        omega
      rw [if_neg hnone.1]
      exact hnone.2
    · refine ⟨.inr (.inr (.inr ⟨hlocal, hembedded⟩)), ?_⟩
      rw [if_pos (readsLast_of_nat64 hlocal)]
      exact hlast

end

theorem missed_iff (ip : IpAddr) :
    (refused ip = true ∧ isBlockedIp ip = false) ↔ missed ip = true := by
  cases ip with
  | v6 segments => exact missed_v6_iff
  | v4 a b c d =>
    have hmissed : missed (.v4 a b c d) = false := rfl
    have hrefused : refused (.v4 a b c d) = (refusedV4 (.v4 a b c d) || false || false) := rfl
    rw [hmissed, hrefused, Bool.or_false, Bool.or_false, ← blockedV4_iff, isBlockedIp]
    cases blockedV4 a b c d with
    | true => simp
    | false => simp

structure SocketAddr where
  ip : IpAddr
  port : Nat
  deriving DecidableEq

/-- What is asked of the host to connect to the upstream. -/
inductive DialOp where
  | lookupHost (host : Text) (port : Nat)
  | tlsConnector
  | connect (addr : SocketAddr)
  | tlsHandshake (host : Text)

@[reducible] def DialOp.Answer : DialOp → Type
  | lookupHost _ _ => Except IoError (List SocketAddr)
  | tlsConnector | tlsHandshake _ => Except ProxyError Unit
  | connect _ => Except IoError Unit

abbrev DialM : Type → Type := Program DialOp DialOp.Answer

def askDial (op : DialOp) : DialM op.Answer := Program.ask op

def allowedAddrs (allowPrivate : Bool) (addrs : List SocketAddr) :
    Except ProxyError (List SocketAddr) :=
  let allowed := addrs.filter fun a => allowPrivate || !isBlockedIp a.ip
  if allowed.isEmpty then .error (.addressNotAllowed "host is on a private or local network")
  else .ok allowed

def resolveAllowed (host : Text) (port : Nat) (allowPrivate : Bool) :
    DialM (Except ProxyError (List SocketAddr)) :=
  match parseIpAddr host with
  | some ip => pure (allowedAddrs allowPrivate [⟨ip, port⟩])
  | none => do
    match ← askDial (.lookupHost host port) with
    | .error _ => pure (.error (.addressNotAllowed "host does not resolve"))
    | .ok addrs => pure (allowedAddrs allowPrivate addrs)

/-- The relay's dialer with its addresses; `Dialer` has what connecting to them comes to. -/
structure CheckedDialer where
  upstream : ProxyUpstream
  addrs : List SocketAddr
  tls : Bool

namespace CheckedDialer

def withTls (upstream : ProxyUpstream) (addrs : List SocketAddr) :
    DialM (Except ProxyError CheckedDialer) :=
  match upstream.scheme with
  | .https => do
    match ← askDial .tlsConnector with
    | .error e => pure (.error e)
    | .ok () => pure (.ok ⟨upstream, addrs, true⟩)
  | .http | .socks5 => pure (.ok ⟨upstream, addrs, false⟩)

def new (upstream : ProxyUpstream) (allowPrivate : Bool) :
    DialM (Except ProxyError CheckedDialer) := do
  match ← resolveAllowed upstream.host upstream.port allowPrivate with
  | .error e => pure (.error e)
  | .ok addrs => withTls upstream addrs

/-- `TcpStream::connect`: one address after the other, up to the first that accepts. -/
def tcpConnect (lastErr : IoError) : List SocketAddr → DialM (Except IoError Unit)
  | [] => pure (.error lastErr)
  | addr :: addrs => do
    match ← askDial (.connect addr) with
    | .ok () => pure (.ok ())
    | .error e => tcpConnect e addrs

def NO_ADDRESS : IoError := ⟨"invalid input parameter", "could not resolve to any address"⟩

def openInner (dialer : CheckedDialer) : DialM (Except ProxyError Unit) := do
  match ← tcpConnect NO_ADDRESS dialer.addrs with
  | .error e => pure (.error (unreachable e))
  | .ok () => if dialer.tls then askDial (.tlsHandshake dialer.upstream.host) else pure (.ok ())

/-- What a relay dials for `clients` connections. -/
def serveAll (dialer : CheckedDialer) : Nat → DialM Unit
  | 0 => pure ()
  | clients + 1 => do
    let _ ← dialer.openInner
    dialer.serveAll clients

/-- A relay that could not be started dials nothing. -/
def serveStarted (clients : Nat) : Except ProxyError CheckedDialer → DialM Unit
  | .error _ => pure ()
  | .ok dialer => dialer.serveAll clients

end CheckedDialer

/-- A relay from its start on. -/
def relayDials (upstream : ProxyUpstream) (allowPrivate : Bool) (clients : Nat) : DialM Unit := do
  let started ← CheckedDialer.new upstream allowPrivate
  CheckedDialer.serveStarted clients started

/-- Operations that connect to addresses of a kind only. -/
def ConnectsTo (kind : IpAddr → Prop) : DialOp → Prop
  | .connect addr => kind addr.ip
  | _ => True

/-- A host that resolves names one way. -/
def Resolves (resolve : Text → Nat → Except IoError (List SocketAddr)) :
    (op : DialOp) → op.Answer → Prop
  | .lookupHost host port, answer => answer = resolve host port
  | _, _ => True

/-- The addresses that an upstream's host stands for. -/
def hostAddrs (resolve : Text → Nat → Except IoError (List SocketAddr)) (host : Text) (port : Nat) :
    List SocketAddr :=
  match parseIpAddr host with
  | some ip => [⟨ip, port⟩]
  | none => (resolve host port).toOption.getD []

section
variable {kind : IpAddr → Prop} {resolve : Text → Nat → Except IoError (List SocketAddr)}

theorem tcpConnect_asks {addrs : List SocketAddr} {lastErr : IoError} :
    (CheckedDialer.tcpConnect lastErr addrs).Asks (ConnectsTo kind) (Resolves resolve) ↔
      ∀ addr ∈ addrs, kind addr.ip := by
  induction addrs generalizing lastErr with
  | nil => exact ⟨fun _ addr hmem => (List.not_mem_nil hmem).elim, fun _ => trivial⟩
  | cons addr addrs ih =>
    rw [List.forall_mem_cons]
    constructor
    · intro h
      exact ⟨h.1, ih.mp (h.2 (.error lastErr) trivial)⟩
    · rintro ⟨haddr, haddrs⟩
      refine ⟨haddr, fun answer _ => ?_⟩
      cases answer with
      | ok _ => exact Program.asks_pure
      | error e => exact ih.mpr haddrs

theorem openInner_asks {dialer : CheckedDialer} :
    dialer.openInner.Asks (ConnectsTo kind) (Resolves resolve) ↔
      ∀ addr ∈ dialer.addrs, kind addr.ip := by
  constructor
  · intro h
    exact tcpConnect_asks.mp (Program.asks_of_bind h)
  · intro h
    apply Program.asks_bind (tcpConnect_asks.mpr h)
    intro connected
    cases connected with
    | error e => exact Program.asks_pure
    | ok _ =>
      dsimp only
      split
      · exact Program.asks_ask trivial
      · exact Program.asks_pure

theorem serveAll_asks {dialer : CheckedDialer} (h : ∀ addr ∈ dialer.addrs, kind addr.ip)
    (clients : Nat) : (dialer.serveAll clients).Asks (ConnectsTo kind) (Resolves resolve) := by
  induction clients with
  | zero => exact Program.asks_pure
  | succ clients ih => exact Program.asks_bind (openInner_asks.mpr h) fun _ => ih

theorem withTls_asks {upstream : ProxyUpstream} {addrs : List SocketAddr} :
    (∀ clients, (CheckedDialer.withTls upstream addrs >>= CheckedDialer.serveStarted clients).Asks
      (ConnectsTo kind) (Resolves resolve)) ↔ ∀ addr ∈ addrs, kind addr.ip := by
  unfold CheckedDialer.withTls
  cases upstream.scheme with
  | https =>
    constructor
    · intro h
      have hserve := (h 1).2 (.ok ()) trivial
      exact openInner_asks.mp (Program.asks_of_bind hserve)
    · intro h clients
      refine ⟨trivial, fun answer _ => ?_⟩
      cases answer with
      | error e => exact Program.asks_pure
      | ok _ => exact serveAll_asks h clients
  | http =>
    constructor
    · intro h
      exact openInner_asks.mp (Program.asks_of_bind (h 1))
    · exact fun h clients => serveAll_asks h clients
  | socks5 =>
    constructor
    · intro h
      exact openInner_asks.mp (Program.asks_of_bind (h 1))
    · exact fun h clients => serveAll_asks h clients

/-- What is dialled once the addresses are known. -/
def dialAllowed (upstream : ProxyUpstream) (clients : Nat)
    (allowed : Except ProxyError (List SocketAddr)) : DialM Unit :=
  (match allowed with
    | .error e => pure (.error e)
    | .ok addrs => CheckedDialer.withTls upstream addrs) >>= CheckedDialer.serveStarted clients

theorem dialAllowed_asks {upstream : ProxyUpstream} {allowPrivate : Bool}
    {addrs : List SocketAddr} :
    (∀ clients, (dialAllowed upstream clients (allowedAddrs allowPrivate addrs)).Asks
      (ConnectsTo kind) (Resolves resolve)) ↔
      ∀ addr ∈ addrs, allowPrivate = true ∨ isBlockedIp addr.ip = false → kind addr.ip := by
  have hallowed : ∀ addr, addr ∈ addrs.filter (fun a => allowPrivate || !isBlockedIp a.ip) ↔
      addr ∈ addrs ∧ (allowPrivate = true ∨ isBlockedIp addr.ip = false) := by
    intro addr
    rw [List.mem_filter, Bool.or_eq_true, Bool.not_eq_true']
  unfold allowedAddrs
  dsimp only
  split
  · rename_i hempty
    rw [List.isEmpty_iff] at hempty
    constructor
    · intro _ addr hmem hlet
      have hin := (hallowed addr).mpr ⟨hmem, hlet⟩
      rw [hempty] at hin
      cases hin
    · exact fun _ clients => Program.asks_pure
  · refine withTls_asks.trans ?_
    constructor
    · exact fun h addr hmem hlet => h addr ((hallowed addr).mpr ⟨hmem, hlet⟩)
    · intro h addr hmem
      obtain ⟨hin, hlet⟩ := (hallowed addr).mp hmem
      exact h addr hin hlet

/-- A relay connects to the addresses of its host that are not blocked, and may to each. -/
theorem relayDials_asks {upstream : ProxyUpstream} {allowPrivate : Bool} :
    (∀ clients, (relayDials upstream allowPrivate clients).Asks (ConnectsTo kind)
      (Resolves resolve)) ↔ ∀ addr ∈ hostAddrs resolve upstream.host upstream.port,
        allowPrivate = true ∨ isBlockedIp addr.ip = false → kind addr.ip := by
  unfold relayDials CheckedDialer.new resolveAllowed hostAddrs
  cases parseIpAddr upstream.host with
  | some ip => exact dialAllowed_asks
  | none =>
    dsimp only
    cases hresolve : resolve upstream.host upstream.port with
    | error e =>
      constructor
      · exact fun _ addr hmem => (List.not_mem_nil hmem).elim
      · intro _ clients
        refine ⟨trivial, fun answer hanswer => ?_⟩
        have htold : answer = .error e := hanswer.trans hresolve
        subst htold
        exact Program.asks_pure
    | ok addrs =>
      have hdial : (∀ clients, (dialAllowed upstream clients (allowedAddrs allowPrivate addrs)).Asks
          (ConnectsTo kind) (Resolves resolve)) ↔ _ := dialAllowed_asks
      refine Iff.trans ?_ hdial
      constructor
      · exact fun h clients => (h clients).2 (.ok addrs) hresolve.symm
      · intro h clients
        refine ⟨trivial, fun answer hanswer => ?_⟩
        have htold : answer = .ok addrs := hanswer.trans hresolve
        subst htold
        exact h clients

end

/-- The relay connects to no refused address, exactly where its upstream stands for none that is
missed; over IPv4 the check refuses exactly the ranges. -/
theorem relay_avoids_refused_iff (resolve : Text → Nat → Except IoError (List SocketAddr))
    (upstream : ProxyUpstream) :
    ((∀ clients, (relayDials upstream false clients).Asks (ConnectsTo (refused · = false))
        (Resolves resolve)) ∧
      ∀ a b c d, isBlockedIp (.v4 a b c d) = REFUSED_V4.any (·.contains (.v4 a b c d))) ↔
      ∀ addr ∈ hostAddrs resolve upstream.host upstream.port, missed addr.ip = false := by
  have hfour : ∀ a b c d, isBlockedIp (.v4 a b c d) = REFUSED_V4.any (·.contains (.v4 a b c d)) :=
    fun a b c d => Bool.eq_iff_iff.mpr blockedV4_iff
  rw [and_iff_left hfour, relayDials_asks]
  constructor
  · intro h addr hmem
    rw [← Bool.not_eq_true, ← missed_iff]
    rintro ⟨hrefused, hblocked⟩
    rw [h addr hmem (.inr hblocked)] at hrefused
    cases hrefused
  · intro h addr hmem hlet
    rw [← Bool.not_eq_true]
    intro hrefused
    have hmissed := (missed_iff addr.ip).mp ⟨hrefused, hlet.resolve_left Bool.false_ne_true⟩
    rw [h addr hmem] at hmissed
    cases hmissed

/-- An address for benchmarks over IPv6 is connected to. -/
theorem relay_dials_benchmarking : ∃ upstream,
    ProxyUpstream.parse (text "http://[2001:2::1]:8080") = .ok upstream ∧
      ¬∀ clients, (relayDials upstream false clients).Asks (ConnectsTo (refused · = false))
        (Resolves fun _ _ => .ok []) := by
  refine ⟨⟨.http, text "2001:2::1", 8080, none, none⟩, rfl, ?_⟩
  intro h
  have hparse : parseIpAddr (text "2001:2::1") = some (ipv6 [0x2001, 2, 0, 0, 0, 0, 0, 1]) := by
    decide +kernel
  have haddr : ⟨ipv6 [0x2001, 2, 0, 0, 0, 0, 0, 1], 8080⟩ ∈
      hostAddrs (fun _ _ => .ok []) (text "2001:2::1") 8080 := by
    rw [hostAddrs, hparse]
    exact List.mem_singleton.mpr rfl
  have hkept := relayDials_asks.mp h _ haddr (.inr (by decide +kernel))
  revert hkept
  decide +kernel

end BrowserServe
