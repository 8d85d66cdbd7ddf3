import BrowserServe.Library.IpAddr
import Mathlib.Data.Nat.Digits.Defs

namespace BrowserServe.Library
set_option autoImplicit true

namespace IpAddr

/-- The bits of a part: an octet, or a segment. -/
def partBits : IpAddr → Nat
  | v4 _ _ _ _ => 8
  | v6 _ => 16

def parts : IpAddr → List Nat
  | v4 a b c d => [a.toNat, b.toNat, c.toNat, d.toNat]
  | v6 segments => segments.toList.map UInt16.toNat

def bits (ip : IpAddr) : Nat := ip.partBits * ip.parts.length

def toNat (ip : IpAddr) : Nat := Nat.ofDigits (2 ^ ip.partBits) ip.parts.reverse

/-- What the standard library knows of an IPv4 address. -/
def isUnspecifiedV4 (a b c d : UInt8) : Bool := a = 0 && b = 0 && c = 0 && d = 0

def isLoopbackV4 (a : UInt8) : Bool := a = 127

def isPrivateV4 (a b : UInt8) : Bool :=
  a = 10 || (a = 172 && 16 ≤ b && b ≤ 31) || (a = 192 && b = 168)

def isLinkLocalV4 (a b : UInt8) : Bool := a = 169 && b = 254

def isMulticastV4 (a : UInt8) : Bool := 224 ≤ a && a ≤ 239

def isBroadcastV4 (a b c d : UInt8) : Bool := a = 255 && b = 255 && c = 255 && d = 255

/-- What it knows of an IPv6 address. -/
def isUnspecifiedV6 (segments : Vector UInt16 8) : Bool :=
  segments.toList = [0, 0, 0, 0, 0, 0, 0, 0]

def isLoopbackV6 (segments : Vector UInt16 8) : Bool :=
  segments.toList = [0, 0, 0, 0, 0, 0, 0, 1]

def isMulticastV6 (segments : Vector UInt16 8) : Bool := segments.get 0 &&& 0xff00 = 0xff00

/-- The last four octets of an IPv6 address. -/
def lastV4 (segments : Vector UInt16 8) : UInt8 × UInt8 × UInt8 × UInt8 :=
  ((segments[6] >>> 8).toUInt8, segments[6].toUInt8, (segments[7] >>> 8).toUInt8,
    segments[7].toUInt8)

def toIpv4Mapped (segments : Vector UInt16 8) : Option (UInt8 × UInt8 × UInt8 × UInt8) :=
  if segments.toList.take 6 = [0, 0, 0, 0, 0, 0xffff] then some (lastV4 segments) else none

end IpAddr

/-- The addresses that have their first `length` bits from `base`. -/
structure Cidr where
  base : IpAddr
  length : Nat

def Cidr.contains (range : Cidr) (ip : IpAddr) : Bool :=
  range.base.partBits = ip.partBits &&
    ip.toNat / 2 ^ (ip.bits - range.length) = range.base.toNat / 2 ^ (ip.bits - range.length)

/-- A range of IPv6 addresses that have an IPv4 address at four of their octets. -/
structure Embedding where
  range : Cidr
  positions : Nat × Nat × Nat × Nat

def Embedding.embedded (e : Embedding) (ip : IpAddr) : IpAddr :=
  .v4 (ip.octets.getD e.positions.1 0) (ip.octets.getD e.positions.2.1 0)
    (ip.octets.getD e.positions.2.2.1 0) (ip.octets.getD e.positions.2.2.2 0)

theorem IpAddr.part_lt (ip : IpAddr) : ∀ part ∈ ip.parts, part < 2 ^ ip.partBits := by
  intro part hpart
  cases ip with
  | v4 a b c d =>
    simp only [parts, List.mem_cons, List.not_mem_nil, or_false] at hpart
    rcases hpart with rfl | rfl | rfl | rfl
    · exact a.toNat_lt
    · exact b.toNat_lt
    · exact c.toNat_lt
    · exact d.toNat_lt
  | v6 segments =>
    obtain ⟨segment, _, rfl⟩ := List.mem_map.mp hpart
    exact segment.toNat_lt

theorem IpAddr.parts_length {ip other : IpAddr} (h : ip.partBits = other.partBits) :
    ip.parts.length = other.parts.length := by
  cases ip with
  | v4 a b c d =>
    cases other with
    | v4 x y z w => rfl
    | v6 segments => cases h
  | v6 segments =>
    cases other with
    | v4 x y z w => cases h
    | v6 others => simp [parts]

/-- A mask of a number's leading bits. -/
theorem land_high {x k w : Nat} (hx : x < 2 ^ w) (hk : k ≤ w) :
    x &&& (2 ^ w - 2 ^ k) = x / 2 ^ k * 2 ^ k := by
  have hmask : 2 ^ w - 2 ^ k = (2 ^ (w - k) - 1) * 2 ^ k := by
    rw [Nat.sub_mul, ← Nat.pow_add, Nat.sub_add_cancel hk, Nat.one_mul]
  apply Nat.eq_of_testBit_eq
  intro j
  rw [Nat.testBit_and, hmask, Nat.testBit_mul_two_pow, Nat.testBit_mul_two_pow,
    Nat.testBit_two_pow_sub_one, Nat.testBit_div_two_pow]
  by_cases hj : k ≤ j
  · have hsum : j - k + k = j := Nat.sub_add_cancel hj
    rw [hsum]
    by_cases hw : j < w
    · have hin : j - k < w - k := by omega
      simp [hj, hin]
    · have hhigh : x.testBit j = false :=
        Nat.testBit_lt_two_pow (Nat.lt_of_lt_of_le hx (Nat.pow_le_pow_right (by decide) (by omega)))
      rw [hhigh, Bool.false_and, Bool.and_false]
  · simp [hj]

theorem land_high_eq {x k w v : Nat} (hx : x < 2 ^ w) (hk : k ≤ w) :
    x &&& (2 ^ w - 2 ^ k) = v * 2 ^ k ↔ x / 2 ^ k = v := by
  rw [land_high hx hk]
  exact Nat.mul_left_inj (Nat.two_pow_pos k).ne'

theorem UInt16.land_high_eq {x : UInt16} {k v : Nat} (hk : k ≤ 16) (mask value : UInt16)
    (hmask : mask.toNat = 2 ^ 16 - 2 ^ k) (hvalue : value.toNat = v * 2 ^ k) :
    x &&& mask = value ↔ x.toNat / 2 ^ k = v := by
  rw [← UInt16.toNat_inj, UInt16.toNat_and, hmask, hvalue]
  exact Library.land_high_eq x.toNat_lt hk

theorem add_mul_inj {p q f g n : Nat} (hp : p < n) (hq : q < n) :
    p + n * f = q + n * g ↔ p = q ∧ f = g := by
  constructor
  · intro h
    have hmod := congrArg (· % n) h
    have hdiv := congrArg (· / n) h
    have hpos : 0 < n := Nat.zero_lt_of_lt hp
    simp only [Nat.add_mul_mod_self_left, Nat.mod_eq_of_lt hp, Nat.mod_eq_of_lt hq] at hmod
    simp only [Nat.add_mul_div_left _ _ hpos, Nat.div_eq_of_lt hp, Nat.div_eq_of_lt hq,
      Nat.zero_add] at hdiv
    exact ⟨hmod, hdiv⟩
  · rintro ⟨rfl, rfl⟩
    rfl

/-- The leading bits of a number: its first digits, and the first bits of the next one. -/
theorem ofDigits_reverse_div {w k : Nat} {before after : List Nat} {part : Nat} (hk : k ≤ w)
    (hdigits : ∀ digit ∈ before ++ part :: after, digit < 2 ^ w) :
    Nat.ofDigits (2 ^ w) (before ++ part :: after).reverse / 2 ^ (w * after.length + (w - k)) =
      part / 2 ^ (w - k) + 2 ^ k * Nat.ofDigits (2 ^ w) before.reverse := by
  have hreverse : (before ++ part :: after).reverse = after.reverse ++ part :: before.reverse := by
    simp
  have hdrop := Nat.ofDigits_div_pow_eq_ofDigits_drop after.length (Nat.two_pow_pos w)
    (before ++ part :: after).reverse fun digit hdigit => hdigits digit (List.mem_reverse.mp hdigit)
  rw [hreverse, List.drop_left' List.length_reverse, Nat.ofDigits_cons] at hdrop
  have hpow : 2 ^ w = 2 ^ (w - k) * 2 ^ k := by rw [← Nat.pow_add, Nat.sub_add_cancel hk]
  calc Nat.ofDigits (2 ^ w) (before ++ part :: after).reverse / 2 ^ (w * after.length + (w - k))
    _ = Nat.ofDigits (2 ^ w) (after.reverse ++ part :: before.reverse) / (2 ^ w) ^ after.length /
        2 ^ (w - k) := by rw [hreverse, Nat.pow_add, Nat.pow_mul, Nat.div_div_eq_div_mul]
    _ = (part + 2 ^ (w - k) * (2 ^ k * Nat.ofDigits (2 ^ w) before.reverse)) / 2 ^ (w - k) := by
      rw [hdrop, ← Nat.mul_assoc, ← hpow]
    _ = part / 2 ^ (w - k) + 2 ^ k * Nat.ofDigits (2 ^ w) before.reverse :=
      Nat.add_mul_div_left _ _ (Nat.two_pow_pos _)

theorem div_two_pow_lt {part w k : Nat} (hk : k ≤ w) (h : part < 2 ^ w) :
    part / 2 ^ (w - k) < 2 ^ k := by
  apply Nat.div_lt_of_lt_mul
  rw [← Nat.pow_add, Nat.sub_add_cancel hk]
  exact h

theorem parts_split (ip : IpAddr) {m : Nat} (hm : m < ip.parts.length) :
    ip.parts = ip.parts.take m ++ ip.parts.getD m 0 :: ip.parts.drop (m + 1) := by
  have hget : ip.parts.getD m 0 = ip.parts[m] := by simp [hm]
  rw [hget, ← List.drop_eq_getElem_cons hm, List.take_append_drop]

/-- The first bits of an address: its first parts, and the first bits of the next one. -/
theorem IpAddr.leading (ip : IpAddr) {m k : Nat} (hm : m < ip.parts.length) (hk : k ≤ ip.partBits) :
    ip.toNat / 2 ^ (ip.bits - (ip.partBits * m + k)) =
      ip.parts.getD m 0 / 2 ^ (ip.partBits - k) +
        2 ^ k * Nat.ofDigits (2 ^ ip.partBits) (ip.parts.take m).reverse := by
  have hsplit := parts_split ip hm
  have hexponent : ip.bits - (ip.partBits * m + k) =
      ip.partBits * (ip.parts.drop (m + 1)).length + (ip.partBits - k) := by
    obtain ⟨left, hleft⟩ : ∃ left, ip.parts.length = m + 1 + left :=
      Nat.exists_eq_add_of_le hm
    rw [bits, List.length_drop, hleft, Nat.add_sub_cancel_left, Nat.mul_add, Nat.mul_succ]
    omega
  have hdigits : ∀ digit ∈ ip.parts.take m ++ ip.parts.getD m 0 :: ip.parts.drop (m + 1),
      digit < 2 ^ ip.partBits := by
    rw [← hsplit]
    exact ip.part_lt
  have hdiv := ofDigits_reverse_div hk hdigits
  rw [← hsplit] at hdiv
  rw [hexponent, toNat, hdiv]

/-- A range is the addresses of its family with the same first parts, and the same first bits of
the next one. -/
theorem Cidr.contains_iff (base ip : IpAddr) (m k : Nat) (hm : m < base.parts.length)
    (hk : k ≤ base.partBits) :
    Cidr.contains ⟨base, base.partBits * m + k⟩ ip = true ↔
      base.partBits = ip.partBits ∧ ip.parts.take m = base.parts.take m ∧
        ip.parts.getD m 0 / 2 ^ (base.partBits - k) =
          base.parts.getD m 0 / 2 ^ (base.partBits - k) := by
  rw [contains, Bool.and_eq_true, decide_eq_true_iff, decide_eq_true_iff]
  apply and_congr_right
  intro hfamily
  have hlength := IpAddr.parts_length hfamily
  have hbits : base.bits = ip.bits := by rw [IpAddr.bits, IpAddr.bits, hfamily, hlength]
  have hip := ip.leading (hlength ▸ hm) (hfamily ▸ hk)
  have hbase := base.leading hm hk
  dsimp only
  rw [← hbits, hbase]
  rw [← hfamily, ← hbits] at hip
  rw [hip]
  have hpart : ∀ other : IpAddr, other.partBits = base.partBits → m < other.parts.length →
      other.parts.getD m 0 / 2 ^ (base.partBits - k) < 2 ^ k := by
    intro other hother hm
    apply div_two_pow_lt hk
    rw [← hother]
    apply other.part_lt
    have hget : other.parts.getD m 0 = other.parts[m] := by simp [hm]
    rw [hget]
    exact List.getElem_mem hm
  rw [add_mul_inj (hpart ip hfamily.symm (hlength ▸ hm)) (hpart base rfl hm), and_comm]
  apply and_congr_left
  intro _
  constructor
  · intro heq
    have htake : ∀ other : IpAddr, other.partBits = base.partBits →
        ∀ part ∈ (other.parts.take m).reverse, part < 2 ^ base.partBits := by
      intro other hother part hmem
      rw [← hother]
      exact other.part_lt part (List.mem_of_mem_take (List.mem_reverse.mp hmem))
    apply List.reverse_injective
    apply Nat.ofDigits_inj_of_len_eq _ _ (htake ip hfamily.symm) (htake base rfl) heq
    · apply Nat.one_lt_two_pow
      cases base with
      | v4 a b c d => exact Nat.succ_ne_zero 7
      | v6 segments => exact Nat.succ_ne_zero 15
    · simp [hlength]
  · intro heq
    rw [heq]

section
variable {a b c d x y z w : UInt8} {k : Nat}

/-- The ranges whose base ends in its first, its second or its third octet. -/
theorem Cidr.contains_v4_first (hk : k ≤ 8) :
    Cidr.contains ⟨.v4 x y z w, k⟩ (.v4 a b c d) = true ↔
      a.toNat / 2 ^ (8 - k) = x.toNat / 2 ^ (8 - k) := by
  have h := Cidr.contains_iff (.v4 x y z w) (.v4 a b c d) 0 k (show 0 < 4 by decide) hk
  rw [Nat.mul_zero, Nat.zero_add] at h
  exact h.trans ((and_iff_right rfl).trans (and_iff_right rfl))

theorem Cidr.contains_v4_second (hk : k ≤ 8) :
    Cidr.contains ⟨.v4 x y z w, k + 8⟩ (.v4 a b c d) = true ↔
      a.toNat = x.toNat ∧ b.toNat / 2 ^ (8 - k) = y.toNat / 2 ^ (8 - k) := by
  have h := Cidr.contains_iff (.v4 x y z w) (.v4 a b c d) 1 k (show 1 < 4 by decide) hk
  rw [Nat.mul_one, Nat.add_comm] at h
  refine h.trans ((and_iff_right rfl).trans (and_congr_left fun _ => ?_))
  simp [IpAddr.parts]

theorem Cidr.contains_v4_third (hk : k ≤ 8) :
    Cidr.contains ⟨.v4 x y z w, k + 16⟩ (.v4 a b c d) = true ↔
      a.toNat = x.toNat ∧ b.toNat = y.toNat ∧ c.toNat / 2 ^ (8 - k) = z.toNat / 2 ^ (8 - k) := by
  have h := Cidr.contains_iff (.v4 x y z w) (.v4 a b c d) 2 k (show 2 < 4 by decide) hk
  rw [Nat.add_comm] at h
  refine h.trans ((and_iff_right rfl).trans ?_)
  rw [← and_assoc]
  refine and_congr_left fun _ => ?_
  simp [IpAddr.parts]

theorem toList_eight (v : Vector α 8) :
    v.toList = [v[0], v[1], v[2], v[3], v[4], v[5], v[6], v[7]] := by
  obtain ⟨⟨l⟩, h⟩ := v
  match l, h with
  | [_, _, _, _, _, _, _, _], _ => rfl

theorem IpAddr.parts_v6 (ip : Vector UInt16 8) : (IpAddr.v6 ip).parts =
    [ip[0].toNat, ip[1].toNat, ip[2].toNat, ip[3].toNat, ip[4].toNat, ip[5].toNat, ip[6].toNat,
      ip[7].toNat] := by
  rw [parts, toList_eight]
  rfl

theorem IpAddr.parts_take {ip : Vector UInt16 8} (n : Nat) (segments : List UInt16) :
    (IpAddr.v6 ip).parts.take n = segments.map UInt16.toNat ↔ ip.toList.take n = segments := by
  rw [parts, ← List.map_take]
  exact List.map_inj_right fun _ _ => UInt16.toNat_inj.mp

theorem ipv6_parts (groups : List Nat) :
    (ipv6 groups).parts = (List.range 8).map fun i => groups.getD i 0 % 2 ^ 16 := by
  rw [ipv6, IpAddr.parts_v6]
  simp [List.range_succ]

/-- An IPv6 range by the groups of its base. -/
theorem Cidr.contains_v6 (ip : Vector UInt16 8) (groups : List Nat) (m k : Nat) (hm : m < 8)
    (hk : k ≤ 16) : Cidr.contains ⟨ipv6 groups, 16 * m + k⟩ (.v6 ip) = true ↔
      (IpAddr.v6 ip).parts.take m =
          ((List.range 8).map fun i => groups.getD i 0 % 2 ^ 16).take m ∧
        (IpAddr.v6 ip).parts.getD m 0 / 2 ^ (16 - k) =
          ((List.range 8).map fun i => groups.getD i 0 % 2 ^ 16).getD m 0 / 2 ^ (16 - k) := by
  have hlength : (ipv6 groups).parts.length = 8 := by simp [ipv6_parts]
  rw [← ipv6_parts]
  exact (Cidr.contains_iff (ipv6 groups) (.v6 ip) m k (hlength ▸ hm) hk).trans (and_iff_right rfl)

end

end BrowserServe.Library
