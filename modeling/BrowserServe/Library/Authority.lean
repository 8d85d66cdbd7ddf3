import BrowserServe.Library.FormUrl
import BrowserServe.Library.HttpHead

namespace BrowserServe.Library
set_option autoImplicit true

theorem splitOnce_eq_some_iff {c : Char} {t : Text} :
    splitOnce c t = some (before, after) ↔ t = before ++ c :: after ∧ c ∉ before := by
  constructor
  · intro h
    by_cases hmem : c ∈ t
    · obtain ⟨front, back, rfl, hfront⟩ := List.eq_append_cons_of_mem hmem
      rw [splitOnce_append hfront] at h
      cases h
      exact ⟨rfl, hfront⟩
    · rw [splitOnce_eq_none hmem] at h
      cases h
  · rintro ⟨rfl, hbefore⟩
    exact splitOnce_append hbefore after

theorem rsplitOnce_eq_some_iff {c : Char} {t : Text} :
    rsplitOnce c t = some (before, after) ↔ t = before ++ c :: after ∧ c ∉ after := by
  rw [rsplitOnce, Option.map_eq_some_iff]
  constructor
  · rintro ⟨⟨back, front⟩, hsplit, hpair⟩
    cases hpair
    obtain ⟨hreverse, hmem⟩ := splitOnce_eq_some_iff.mp hsplit
    rw [List.reverse_eq_iff, List.reverse_append, List.reverse_cons, List.append_assoc] at hreverse
    exact ⟨hreverse, fun h => hmem (List.mem_reverse.mp h)⟩
  · rintro ⟨rfl, hafter⟩
    refine ⟨(after.reverse, before.reverse), splitOnce_eq_some_iff.mpr ⟨?_, ?_⟩, ?_⟩
    · rw [List.reverse_append, List.reverse_cons, List.append_assoc, List.singleton_append]
    · exact fun h => hafter (List.mem_reverse.mp h)
    · exact Prod.ext (List.reverse_reverse before) (List.reverse_reverse after)

theorem splitOnce_eq_none_iff {c : Char} {t : Text} : splitOnce c t = none ↔ c ∉ t := by
  constructor
  · intro h hmem
    obtain ⟨front, back, rfl, hfront⟩ := List.eq_append_cons_of_mem hmem
    rw [splitOnce_append hfront] at h
    cases h
  · exact splitOnce_eq_none

theorem rsplitOnce_eq_none_iff {c : Char} {t : Text} : rsplitOnce c t = none ↔ c ∉ t := by
  rw [rsplitOnce, Option.map_eq_none_iff, splitOnce_eq_none_iff, List.mem_reverse]

theorem stripPrefix_eq_some_iff {c : Char} {t : Text} :
    stripPrefix c t = some rest ↔ t = c :: rest := by
  cases t with
  | nil => exact ⟨nofun, nofun⟩
  | cons d t =>
    rw [stripPrefix]
    split
    · rename_i heq
      rw [heq, Option.some_inj, List.cons.injEq]
      exact ⟨fun h => ⟨rfl, h⟩, fun h => h.2⟩
    · rename_i hne
      exact ⟨nofun, fun h => absurd (List.cons.inj h).1.symm hne⟩

theorem stripPrefix_eq_none {c : Char} {t : Text} (h : t.head? ≠ some c) :
    stripPrefix c t = none := by
  cases hstrip : stripPrefix c t with
  | none => rfl
  | some rest =>
    rw [stripPrefix_eq_some_iff] at hstrip
    rw [hstrip] at h
    exact absurd rfl h

/-- A port number: decimal digits, from 1 to 65535. -/
structure IsPort (digits : Text) (port : Nat) : Prop where
  nonempty : digits ≠ []
  isDigit : ∀ d ∈ digits, d.isDigit = true
  value : Nat.ofDigitChars 10 digits 0 = port
  pos : 0 < port
  lt : port < 2 ^ 16

theorem IsPort.no_sign (h : IsPort digits port) (rest : Text) : digits ≠ '+' :: rest := by
  rintro rfl
  exact absurd (h.isDigit '+' List.mem_cons_self) (by decide)

theorem IsPort.not_mem {c : Char} (h : IsPort digits port) (hc : c.isDigit = false) :
    c ∉ digits := by
  intro hmem
  rw [h.isDigit c hmem] at hc
  cases hc

theorem isPort_toDigits (hpos : 0 < port) (hlt : port < 2 ^ 16) :
    IsPort (text (toString port)) port := by
  have htext : text (toString port) = Nat.toDigits 10 port := Nat.toList_repr
  rw [htext]
  exact {
    nonempty := Nat.toDigits_ne_nil
    isDigit := fun d hd => Nat.isDigit_of_mem_toDigits (by decide) (by decide) hd
    value := Nat.ofDigitChars_ten_toDigits
    pos := hpos
    lt := hlt }

theorem parsePort_digits {digits p : Text} (hstrip : (stripPrefix '+' p).getD p = digits) :
    (parseUnsigned 16 p).filter (· ≠ 0) = some port ↔ IsPort digits port := by
  rw [Option.filter_eq_some_iff, parseUnsigned]
  simp only [hstrip, ← Nat.ofDigitChars_eq_foldl, decide_eq_true_eq]
  constructor
  · rintro ⟨hparse, hne⟩
    split at hparse
    · rename_i hdigits
      split at hparse
      · rename_i hlt
        cases hparse
        exact ⟨hdigits.1, List.all_eq_true.mp hdigits.2, rfl, Nat.pos_of_ne_zero hne, hlt⟩
      · cases hparse
    · cases hparse
  · intro h
    rw [if_pos ⟨h.nonempty, List.all_eq_true.mpr h.isDigit⟩, h.value, if_pos h.lt]
    exact ⟨rfl, Nat.ne_of_gt h.pos⟩

/-- What is read as a port may have a plus sign. -/
theorem parsePort_iff : (parseUnsigned 16 p).filter (· ≠ 0) = some port ↔
    IsPort p port ∨ ∃ digits, p = '+' :: digits ∧ IsPort digits port := by
  cases hstrip : stripPrefix '+' p with
  | none =>
    rw [parsePort_digits (by rw [hstrip])]
    constructor
    · exact .inl
    · rintro (h | ⟨digits, rfl, h⟩)
      · exact h
      · cases hstrip
  | some digits =>
    rw [parsePort_digits (by rw [hstrip])]
    rw [stripPrefix_eq_some_iff] at hstrip
    subst hstrip
    constructor
    · exact fun h => .inr ⟨digits, rfl, h⟩
    · rintro (h | ⟨_, heq, h⟩)
      · exact absurd rfl (h.no_sign digits)
      · cases heq
        exact h

/-- The characters that addresses are written with. -/
def isAddrChar (c : Char) : Bool := (digitValue 16 c).isSome || c = ':' || c = '.'

/-- Every text that a parser takes off is of these characters. -/
def Parser.TakesOff (p : Parser α) : Prop :=
  ∀ t value rest, p t = some (value, rest) →
    ∃ used, t = used ++ rest ∧ ∀ c ∈ used, isAddrChar c = true

theorem isAddrChar_digit {radix : Nat} {c : Char} (hradix : radix ≤ 16)
    (h : (digitValue radix c).isSome = true) : isAddrChar c = true := by
  obtain ⟨n, hn⟩ := Option.isSome_iff_exists.mp h
  obtain ⟨hvalue, hlt⟩ := Option.filter_eq_some_iff.mp hn
  have hdigit : digitValue 16 c = some n :=
    Option.filter_eq_some_iff.mpr
      ⟨hvalue, decide_eq_true (Nat.lt_of_lt_of_le (of_decide_eq_true hlt) hradix)⟩
  rw [isAddrChar, hdigit]
  rfl

theorem readNumber_takesOff {radix : Nat} (hradix : radix ≤ 16) (maxDigits : Nat)
    (allowZeroPrefix : Bool) (bound : Nat) :
    (readNumber radix maxDigits allowZeroPrefix bound).TakesOff := by
  intro t value rest h
  rw [readNumber, List.span_eq_takeWhile_dropWhile] at h
  dsimp only at h
  split at h
  · cases h
  · split at h
    · cases h
      refine ⟨_, List.takeWhile_append_dropWhile.symm, fun c hc => ?_⟩
      exact isAddrChar_digit hradix
        (List.mem_takeWhile_imp (p := fun c => (digitValue radix c).isSome) hc)
    · cases h

theorem readSeparator_takesOff {sep : Char} (hsep : isAddrChar sep = true) (index : Nat)
    {inner : Parser α} (h : inner.TakesOff) : (readSeparator sep index inner).TakesOff := by
  intro t value rest hread
  rw [readSeparator] at hread
  split at hread
  · exact h t value rest hread
  · obtain ⟨after, hstrip, hinner⟩ := Option.bind_eq_some_iff.mp hread
    obtain ⟨used, rfl, hused⟩ := h after value rest hinner
    refine ⟨sep :: used, stripPrefix_eq_some_iff.mp hstrip, ?_⟩
    exact List.forall_mem_cons.mpr ⟨hsep, hused⟩

theorem Parser.TakesOff.bind {p : Parser α} {q : α → Parser β} (hp : p.TakesOff)
    (hq : ∀ a, (q a).TakesOff) :
    Parser.TakesOff fun t => (p t).bind fun (a, t) => q a t := by
  intro t value rest h
  obtain ⟨⟨a, after⟩, hfirst, hnext⟩ := Option.bind_eq_some_iff.mp h
  obtain ⟨front, rfl, hfront⟩ := hp t a after hfirst
  obtain ⟨back, rfl, hback⟩ := hq a after value rest hnext
  exact ⟨front ++ back, (List.append_assoc ..).symm,
    List.forall_mem_append.mpr ⟨hfront, hback⟩⟩

theorem Parser.TakesOff.pure (a : α) : Parser.TakesOff fun t => some (a, t) := by
  intro t value rest h
  cases h
  exact ⟨[], rfl, nofun⟩

theorem readIpv4Addr_takesOff : readIpv4Addr.TakesOff := by
  have hoctet (i : Nat) : (readSeparator '.' i (readNumber 10 3 false 256)).TakesOff :=
    readSeparator_takesOff (by decide) i (readNumber_takesOff (by decide) 3 false 256)
  exact (hoctet 0).bind fun a => (hoctet 1).bind fun b => (hoctet 2).bind fun c =>
    (hoctet 3).bind fun d => .pure (a, b, c, d)

theorem readGroups_takesOff (limit : Nat) : ∀ left,
    Parser.TakesOff fun t => let r := readGroups limit left t; some ((r.1, r.2.1), r.2.2) := by
  intro left
  induction left with
  | zero =>
    intro t value rest h
    cases h
    exact ⟨[], rfl, nofun⟩
  | succ left ih =>
    intro t value rest h
    dsimp only at h
    rw [readGroups] at h
    split at h
    · rename_i hread
      split at hread
      · cases h
        exact readSeparator_takesOff (by decide) _ readIpv4Addr_takesOff _ _ _ hread
      · cases hread
    · split at h
      · rename_i group after hread
        obtain ⟨front, rfl, hfront⟩ := readSeparator_takesOff (by decide) _
          (readNumber_takesOff (by decide) 4 true 65536) _ _ _ hread
        obtain ⟨back, hback, hchars⟩ := ih after _ _ rfl
        cases h
        refine ⟨front ++ back, ?_, List.forall_mem_append.mpr ⟨hfront, hchars⟩⟩
        rw [List.append_assoc]
        exact congrArg (front ++ ·) hback
      · cases h
        exact ⟨[], rfl, nofun⟩

theorem readIpv6Addr_takesOff : readIpv6Addr.TakesOff := by
  intro t value rest h
  obtain ⟨front, hfront, hfrontChars⟩ := readGroups_takesOff 8 8 t _ _ rfl
  rw [readIpv6Addr] at h
  dsimp only at h hfront
  split at h
  · cases h
    exact ⟨front, hfront, hfrontChars⟩
  · split at h
    · cases h
    · obtain ⟨after, hfirst, h⟩ := Option.bind_eq_some_iff.mp h
      obtain ⟨last, hsecond, h⟩ := Option.bind_eq_some_iff.mp h
      obtain ⟨back, hback, hbackChars⟩ := readGroups_takesOff _ _ last _ _ rfl
      cases h
      rw [stripPrefix_eq_some_iff] at hfirst hsecond
      refine ⟨front ++ ':' :: ':' :: back, ?_, ?_⟩
      · rw [hfront, hfirst, hsecond, List.append_assoc, List.cons_append, List.cons_append, ← hback]
      · refine List.forall_mem_append.mpr ⟨hfrontChars, ?_⟩
        have hcolon : isAddrChar ':' = true := by decide
        exact List.forall_mem_cons.mpr ⟨hcolon, List.forall_mem_cons.mpr ⟨hcolon, hbackChars⟩⟩

theorem parseIpAddr_chars {t : Text} (h : parseIpAddr t = some addr) :
    ∀ c ∈ t, isAddrChar c = true := by
  rw [parseIpAddr] at h
  split at h
  · rename_i hread
    have htaken : ∃ used, t = used ++ [] ∧ ∀ c ∈ used, isAddrChar c = true := by
      rw [readIpAddr] at hread
      split at hread
      · rename_i hv4
        cases hread
        exact readIpv4Addr_takesOff _ _ _ hv4
      · exact readIpv6Addr_takesOff _ _ _ hread
    obtain ⟨used, rfl, hchars⟩ := htaken
    rw [List.append_nil]
    exact hchars
  · cases h

def IsIpv6 (host : Text) : Prop := ∃ segments, parseIpAddr host = some (.v6 segments)

theorem IsIpv6.not_mem {c : Char} (h : IsIpv6 host) (hc : isAddrChar c = false) : c ∉ host := by
  obtain ⟨segments, hparse⟩ := h
  intro hmem
  rw [parseIpAddr_chars hparse c hmem] at hc
  cases hc

theorem IsIpv6.ne_nil (h : IsIpv6 host) : host ≠ [] := by
  rintro rfl
  obtain ⟨segments, hparse⟩ := h
  have hnone : parseIpAddr [] = none := by decide
  rw [hnone] at hparse
  cases hparse

/-- The characters that tell the parts of a URI apart. -/
def isGenDelim (c : Char) : Bool := [':', '/', '?', '#', '[', ']', '@'].contains c

/-- A host by its name, or an IPv4 address. -/
def IsHostName (host : Text) : Prop := host ≠ [] ∧ ∀ c ∈ host, isGenDelim c = false

theorem IsHostName.not_mem {c : Char} (h : IsHostName host) (hc : isGenDelim c = true) :
    c ∉ host := by
  intro hmem
  rw [h.2 c hmem] at hc
  cases hc

theorem exists_isGenDelim (hne : host ≠ []) (h : ¬IsHostName host) :
    ∃ c ∈ host, isGenDelim c = true := by
  by_contra hnone
  refine h ⟨hne, fun c hc => ?_⟩
  cases hdelim : isGenDelim c with
  | false => rfl
  | true => exact absurd ⟨c, hc, hdelim⟩ hnone

theorem IsHostName.not_open (h : IsHostName host) : host.head? ≠ some '[' := fun hhead =>
  h.not_mem (by decide) (List.mem_of_head? hhead)

theorem IsIpv6.isHostName (h : IsIpv6 host) (hcolon : ':' ∉ host) : IsHostName host := by
  refine ⟨h.ne_nil, fun c hc => ?_⟩
  cases hdelim : isGenDelim c with
  | false => rfl
  | true =>
    have hmem : c ∈ [':', '/', '?', '#', '[', ']', '@'] := List.contains_iff_mem.mp hdelim
    simp only [List.mem_cons, List.not_mem_nil, or_false] at hmem
    rcases hmem with rfl | rfl | rfl | rfl | rfl | rfl | rfl
    · exact absurd hc hcolon
    all_goals exact absurd hc (h.not_mem (by decide))

/-- What follows a host: nothing where a port is known without it, or a colon and the port. -/
inductive PortPart (known : Option Nat) : Text → Nat → Prop
  | absent (h : known = some port) : PortPart known [] port
  | given (h : IsPort digits port) : PortPart known (':' :: digits) port

theorem PortPart.not_mem {c : Char} (h : PortPart known tail port) (hdigit : c.isDigit = false)
    (hcolon : c ≠ ':') : c ∉ tail := by
  cases h with
  | absent => exact List.not_mem_nil
  | given hport => exact List.not_mem_cons_of_ne_of_not_mem hcolon (hport.not_mem hdigit)

theorem PortPart.no_sign : ¬PortPart known (':' :: '+' :: digits) port := by
  intro h
  cases h with
  | given h => exact h.no_sign digits rfl

/-- The authority of a URI without userinfo: `host[:port]` or `[IPv6][:port]`. -/
inductive IsAuthority (known : Option Nat) : Text → Text → Nat → Prop
  | name (hhost : IsHostName host) (hport : PortPart known tail port) :
      IsAuthority known (host ++ tail) host port
  | ipv6 (hhost : IsIpv6 host) (hport : PortPart known tail port) :
      IsAuthority known ('[' :: (host ++ ']' :: tail)) host port

/-- A port that is not known without it is written. -/
theorem IsAuthority.isPort (h : IsAuthority none s host port) : ∃ digits, IsPort digits port := by
  have hpart {tail : Text} (hport : PortPart none tail port) : ∃ digits, IsPort digits port := by
    cases hport with
    | absent h => cases h
    | given h => exact ⟨_, h⟩
  cases h with
  | name _ hport => exact hpart hport
  | ipv6 _ hport => exact hpart hport

/-- A URI with the given start in any case: its authority up to the first `/` or `?`, and what
comes from there on. -/
inductive AbsoluteForm (start : Text) : Text → Text → Text → Prop
  | mk (hstart : eqIgnoreAsciiCase front start = true)
      (hauthority : ∀ c ∈ authority, c ≠ '/' ∧ c ≠ '?')
      (hpath : path = [] ∨ path.head? = some '/' ∨ path.head? = some '?') :
      AbsoluteForm start (front ++ (authority ++ path)) authority path

theorem takeWhile_authority {authority path : Text}
    (hauthority : ∀ c ∈ authority, c ≠ '/' ∧ c ≠ '?')
    (hpath : path = [] ∨ path.head? = some '/' ∨ path.head? = some '?') :
    (authority ++ path).span (fun c => c ≠ '/' ∧ c ≠ '?') = (authority, path) := by
  have hall : ∀ c ∈ authority, decide (c ≠ '/' ∧ c ≠ '?') = true := fun c hc =>
    decide_eq_true (hauthority c hc)
  rw [List.span_eq_takeWhile_dropWhile, List.takeWhile_append_of_pos hall,
    List.dropWhile_append_of_pos hall]
  rcases hpath with rfl | hpath | hpath
  · rw [List.takeWhile_nil, List.dropWhile_nil, List.append_nil]
  all_goals
    obtain ⟨rest, rfl⟩ := List.head?_eq_some_iff.mp hpath
    rw [List.takeWhile_cons_of_neg (by simp), List.dropWhile_cons_of_neg (by simp), List.append_nil]

theorem AbsoluteForm.unique (h : AbsoluteForm start target authority path)
    (h' : AbsoluteForm start target authority' path') : authority' = authority ∧ path' = path := by
  generalize heq : target = target' at h'
  cases h with
  | mk hstart hauthority hpath =>
    cases h' with
    | mk hstart' hauthority' hpath' =>
      have hlength := (length_of_eqIgnoreAsciiCase hstart).trans
        (length_of_eqIgnoreAsciiCase hstart').symm
      have hrest := (List.append_inj heq hlength).2
      have hspan := takeWhile_authority hauthority hpath
      rw [hrest, takeWhile_authority hauthority' hpath'] at hspan
      exact Prod.mk.inj hspan

end BrowserServe.Library
