import Mathlib.Algebra.Group.Nat.Defs
import Mathlib.Data.List.Basic

namespace BrowserServe.Library
set_option autoImplicit true

/-- The standard library's texts, as their characters. -/
abbrev Text := List Char

def text (s : String) : Text := s.toList

def asBytes (t : Text) : List UInt8 := t.flatMap String.utf8EncodeChar

def eqIgnoreAsciiCase (s t : Text) : Bool := s.map Char.toLower == t.map Char.toLower

def toAsciiLowercase (t : Text) : Text := t.map Char.toLower

/-- Unicode's `White_Space`. -/
def isWhitespace (c : Char) : Bool :=
  (9 ≤ c.toNat && c.toNat ≤ 13) || (0x2000 ≤ c.toNat && c.toNat ≤ 0x200A) ||
    [0x20, 0x85, 0xA0, 0x1680, 0x2028, 0x2029, 0x202F, 0x205F, 0x3000].contains c.toNat

def trim (t : Text) : Text :=
  ((t.dropWhile isWhitespace).reverse.dropWhile isWhitespace).reverse

def splitOnce (c : Char) (t : Text) : Option (Text × Text) :=
  match t.span (· != c) with
  | (before, _ :: after) => some (before, after)
  | (_, []) => none

def rsplitOnce (c : Char) (t : Text) : Option (Text × Text) :=
  (splitOnce c t.reverse).map fun (after, before) => (before.reverse, after.reverse)

/-- `str::split_once` at a text that is not empty. -/
def splitOnceText (pattern : Text) : Text → Option (Text × Text)
  | [] => none
  | c :: t =>
    if pattern.isPrefixOf (c :: t) then some ([], (c :: t).drop pattern.length)
    else (splitOnceText pattern t).map fun (before, after) => (c :: before, after)

def stripPrefix (c : Char) : Text → Option Text
  | [] => none
  | d :: t => if c = d then some t else none

/-- `str::strip_prefix`. -/
def stripPrefixText (pattern t : Text) : Option Text :=
  if pattern.isPrefixOf t then some (t.drop pattern.length) else none

theorem stripPrefixText_eq_some {pattern t rest : Text} :
    stripPrefixText pattern t = some rest ↔ t = pattern ++ rest := by
  unfold stripPrefixText
  split
  · rename_i hprefix
    obtain ⟨after, rfl⟩ := List.isPrefixOf_iff_prefix.1 hprefix
    simp
  · rename_i hprefix
    constructor
    · nofun
    · rintro rfl
      exact absurd (List.isPrefixOf_iff_prefix.2 (List.prefix_append pattern rest)) hprefix

/-- What is in two parts joined by something that it has not, is in one of them. -/
theorem infix_append_cons {sep : α} {pattern s t : List α} (hsep : sep ∉ pattern) :
    pattern <:+: s ++ sep :: t ↔ pattern <:+: s ∨ pattern <:+: t := by
  constructor
  · intro h
    rcases List.infix_append_iff.mp h with h | h | ⟨front, back, rfl, hfront, hback⟩
    · exact .inl h
    · cases List.infix_cons_iff.mp h with
      | inr h => exact .inr h
      | inl h =>
        cases pattern with
        | nil => exact .inl List.nil_infix
        | cons c rest =>
          obtain ⟨rfl, _⟩ := List.cons_prefix_cons.mp h
          exact absurd List.mem_cons_self hsep
    · cases back with
      | nil =>
        rw [List.append_nil]
        exact .inl hfront.isInfix
      | cons c rest =>
        obtain ⟨rfl, _⟩ := List.cons_prefix_cons.mp hback
        exact absurd (List.mem_append_right _ List.mem_cons_self) hsep
  · rintro (h | h)
    · exact List.infix_append_of_infix_left h
    · exact List.infix_append_of_infix_right (List.infix_cons_iff.mpr (.inr h))

/-- What has no separator in it is in joined lines when it is in one of the lines. -/
theorem infix_intercalate {sep : α} {pattern : List α} {lines : List (List α)}
    (hne : pattern ≠ []) (hsep : sep ∉ pattern) :
    pattern <:+: [sep].intercalate lines ↔ ∃ line ∈ lines, pattern <:+: line := by
  induction lines with
  | nil => simp [hne]
  | cons line lines ih =>
    cases lines with
    | nil => simp
    | cons next lines =>
      rw [List.intercalate_cons_cons, List.append_assoc, List.singleton_append,
        infix_append_cons hsep, ih]
      simp only [List.mem_cons, exists_eq_or_imp]

/-- The text before and from byte `n` on, where a character begins there. -/
def splitAtByte : Nat → Text → Option (Text × Text)
  | 0, t => some ([], t)
  | _ + 1, [] => none
  | n + 1, c :: t =>
    if c.utf8Size ≤ n + 1 then
      (splitAtByte (n + 1 - c.utf8Size) t).map fun (before, after) => (c :: before, after)
    else none

/-- `str::parse` of an unsigned integer of so many bits. -/
def parseUnsigned (bits : Nat) (t : Text) : Option Nat :=
  let digits := (stripPrefix '+' t).getD t
  if digits ≠ [] ∧ digits.all Char.isDigit then
    let n := digits.foldl (fun n d => 10 * n + (d.toNat - '0'.toNat)) 0
    if n < 2 ^ bits then some n else none
  else none

/-- How many bytes the character that begins with `b` has, and what its second one lies
between. -/
def utf8Start (b : UInt8) : Option (Nat × UInt8 × UInt8) :=
  if b < 0x80 then some (1, 0x80, 0xBF)
  else if b < 0xC2 then none
  else if b < 0xE0 then some (2, 0x80, 0xBF)
  else if b < 0xF0 then
    some (3, if b = 0xE0 then 0xA0 else 0x80, if b = 0xED then 0x9F else 0xBF)
  else if b < 0xF5 then
    some (4, if b = 0xF0 then 0x90 else 0x80, if b = 0xF4 then 0x8F else 0xBF)
  else none

/-- The bytes that go on with the character before them: the second one within its bounds, the
others any that continue one. -/
def utf8Rest : Nat → UInt8 → UInt8 → List UInt8 → List UInt8
  | n + 1, low, high, b :: bs =>
    if low ≤ b ∧ b ≤ high then b :: utf8Rest n 0x80 0xBF bs else []
  | _, _, _, _ => []

/-- `String::from_utf8_lossy`: every broken start of a character becomes one U+FFFD. -/
def fromUtf8Lossy : List UInt8 → Text
  | [] => []
  | b :: bs =>
    match utf8Start b with
    | none => '\uFFFD' :: fromUtf8Lossy bs
    | some (width, low, high) =>
      let more := utf8Rest (width - 1) low high bs
      let first := if width = 1 then b.toNat else b.toNat % 2 ^ (7 - width)
      let c := if more.length + 1 = width then
          Char.ofNat (more.foldl (fun n b => 64 * n + b.toNat % 64) first)
        else '\uFFFD'
      c :: fromUtf8Lossy (bs.drop more.length)
termination_by bytes => bytes.length
decreasing_by
  · simp
  · simp only [List.length_drop, List.length_cons]
    omega

/-- The standard base64 alphabet. -/
def base64Char (n : Nat) : Char :=
  ("ABCDEFGHIJKLMNOPQRSTUVWXYZabcdefghijklmnopqrstuvwxyz0123456789+/".toList.getD n '=')

/-- Base64 with padding. -/
def base64 : List UInt8 → Text
  | a :: b :: c :: bytes =>
    let n := a.toNat * 65536 + b.toNat * 256 + c.toNat
    base64Char (n / 262144) :: base64Char (n / 4096 % 64) :: base64Char (n / 64 % 64) ::
      base64Char (n % 64) :: base64 bytes
  | [a, b] =>
    let n := a.toNat * 1024 + b.toNat * 4
    [base64Char (n / 4096), base64Char (n / 64 % 64), base64Char (n % 64), '=']
  | [a] =>
    let n := a.toNat * 16
    [base64Char (n / 64), base64Char (n % 64), '=', '=']
  | [] => []

end BrowserServe.Library
