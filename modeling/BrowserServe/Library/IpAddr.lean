import BrowserServe.Library.Text

namespace BrowserServe.Library
set_option autoImplicit true

/-- An IPv4 address by its octets, an IPv6 one by its eight 16-bit segments. -/
inductive IpAddr where
  | v4 (a b c d : UInt8)
  | v6 (segments : Vector UInt16 8)
  deriving DecidableEq

def IpAddr.octets : IpAddr → List UInt8
  | .v4 a b c d => [a, b, c, d]
  | .v6 segments => segments.toList.flatMap fun s : UInt16 => [(s >>> 8).toUInt8, s.toUInt8]

/-- A parser of the standard library's addresses: the value and the text after it. -/
abbrev Parser (α : Type) := Text → Option (α × Text)

def digitValue (radix : Nat) (c : Char) : Option Nat :=
  let value :=
    if c.isDigit then some (c.toNat - '0'.toNat)
    else if 'a' ≤ c.toLower ∧ c.toLower ≤ 'z' then some (c.toLower.toNat - 'a'.toNat + 10)
    else none
  value.filter (· < radix)

/-- A number of at most `maxDigits` digits, within 16 bits or 8. -/
def readNumber (radix maxDigits : Nat) (allowZeroPrefix : Bool) (bound : Nat) : Parser Nat :=
  fun t =>
    let (digits, rest) := t.span fun c => (digitValue radix c).isSome
    if digits = [] ∨ maxDigits < digits.length ∨
        (!allowZeroPrefix ∧ digits.head? = some '0' ∧ 1 < digits.length) then none
    else
      let n := digits.foldl (fun n c => radix * n + (digitValue radix c).getD 0) 0
      if n < bound then some (n, rest) else none

/-- An item that is not the first one follows a separator. -/
def readSeparator (sep : Char) (index : Nat) (inner : Parser α) : Parser α := fun t =>
  if index = 0 then inner t else (stripPrefix sep t).bind inner

def readIpv4Addr : Parser (Nat × Nat × Nat × Nat) := fun t => do
  let octet (i : Nat) := readSeparator '.' i (readNumber 10 3 false 256)
  let (a, t) ← octet 0 t
  let (b, t) ← octet 1 t
  let (c, t) ← octet 2 t
  let (d, t) ← octet 3 t
  return ((a, b, c, d), t)

/-- The segments up to `limit` of an IPv6 address from the `i`th on, whether an IPv4 address
ended them, and the text after them. -/
def readGroups (limit : Nat) : Nat → Text → List Nat × Bool × Text
  | 0, t => ([], false, t)
  | left + 1, t =>
    let i := limit - (left + 1)
    match (if i + 1 < limit then readSeparator ':' i readIpv4Addr t else none) with
    | some ((a, b, c, d), t) => ([256 * a + b, 256 * c + d], true, t)
    | none =>
      match readSeparator ':' i (readNumber 16 4 true 65536) t with
      | some (group, t) =>
        let (groups, ipv4, t) := readGroups limit left t
        (group :: groups, ipv4, t)
      | none => ([], false, t)

def ipv6 (groups : List Nat) : IpAddr := .v6 (.ofFn fun i => UInt16.ofNat (groups.getD i 0))

def readIpv6Addr : Parser IpAddr := fun t =>
  let (head, headIpv4, t) := readGroups 8 8 t
  if head.length = 8 then some (ipv6 head, t)
  else if headIpv4 then none
  else do
    let t ← stripPrefix ':' t
    let t ← stripPrefix ':' t
    let limit := 8 - (head.length + 1)
    let (tail, _, t) := readGroups limit limit t
    return (ipv6 (head ++ List.replicate (8 - head.length - tail.length) 0 ++ tail), t)

def readIpAddr : Parser IpAddr := fun t =>
  match readIpv4Addr t with
  | some ((a, b, c, d), t) =>
    some (.v4 (UInt8.ofNat a) (UInt8.ofNat b) (UInt8.ofNat c) (UInt8.ofNat d), t)
  | none => readIpv6Addr t

/-- `str::parse::<IpAddr>`: a whole text that is an address. -/
def parseIpAddr (t : Text) : Option IpAddr :=
  match readIpAddr t with
  | some (addr, []) => some addr
  | _ => none

end BrowserServe.Library
