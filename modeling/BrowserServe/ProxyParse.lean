import BrowserServe.ProxyDial

namespace BrowserServe
open Library
set_option autoImplicit true

inductive UpstreamParseError where
  | scheme
  | hostPort
  | path
  | login (reason : String)
  deriving DecidableEq

def UpstreamParseError.toString : UpstreamParseError → String
  | scheme => "proxy address must start with http://, https://, socks5:// or socks5h://"
  | hostPort => "proxy address has no valid host and port"
  | path => "proxy address must not contain a path"
  | login reason => s!"proxy login is not valid: {reason}"

def ProxyScheme.defaultPort : ProxyScheme → Nat
  | http => 80
  | https => 443
  | socks5 => 1080

def stripPrefixCi (s pattern : Text) : Option Text := do
  let (head, rest) ← splitAtByte pattern.length s
  if eqIgnoreAsciiCase head pattern then some rest else none

def splitHostPort (s : Text) (defaultPort : Nat) : Except UpstreamParseError (Text × Nat) := do
  let (host, port) ←
    match stripPrefix '[' s with
    | some inner => do
      let (host, after) ← ((splitOnce ']' inner).elim (.error .hostPort) .ok :
        Except UpstreamParseError (Text × Text))
      if after = [] then pure (host, none)
      else
        match stripPrefix ':' after with
        | some p => pure (host, some p)
        | none => .error .hostPort
    | none =>
      match rsplitOnce ':' s with
      | some (h, p) => pure (h, some p)
      | none => pure (s, none)
  if host = [] ∨ !host.all (fun c => c.isAlphanum || ['.', '-', ':', '_'].contains c) then
    .error .hostPort
  else
    match port with
    | none => pure (toAsciiLowercase host, defaultPort)
    | some p =>
      match (parseUnsigned 16 p).filter (· ≠ 0) with
      | some port => pure (toAsciiLowercase host, port)
      | none => .error .hostPort

/-- `u8::from_str_radix` of two characters: a leading plus sign is allowed. -/
def hexByte (a b : Char) : Option UInt8 := do
  let high ← if a = '+' then some 0 else digitValue 16 a
  let low ← digitValue 16 b
  return UInt8.ofNat (16 * high + low)

def percentBytes : Text → Option (List UInt8)
  | [] => some []
  | '%' :: a :: b :: t => do
    let byte ← hexByte a b
    let rest ← percentBytes t
    return byte :: rest
  | '%' :: _ => none
  | c :: t => (percentBytes t).map (String.utf8EncodeChar c ++ ·)

def percentDecode (s : Text) : Option Text := do
  let bytes ← percentBytes s
  let decoded ← String.fromUTF8? ⟨bytes.toArray⟩
  return decoded.toList

def isControl (c : Char) : Bool := c.toNat < 0x20 || (0x7F ≤ c.toNat && c.toNat < 0xA0)

def validateLogin (scheme : ProxyScheme) (user pass : Option Text) :
    Except UpstreamParseError Unit :=
  match user with
  | none => pure ()
  | some user =>
    if user = [] then .error (.login "empty username")
    else if user.any isControl ∨ pass.any (·.any isControl) then
      .error (.login "control character")
    else
      match scheme with
      | .http | .https =>
        if ':' ∈ user then .error (.login "username contains ':'") else pure ()
      | .socks5 =>
        if 255 < (asBytes user).length ∨ (pass.any fun p => 255 < (asBytes p).length) then
          .error (.login "longer than 255 bytes")
        else pure ()

def parseLogin (login : Text) : Except UpstreamParseError (Option Text × Option Text) := do
  let (u, p) :=
    match splitOnce ':' login with
    | some (u, p) => (u, some p)
    | none => (login, none)
  let some user := percentDecode u | .error (.login "bad escape")
  match p with
  | none => return (some user, none)
  | some p =>
    let some pass := percentDecode p | .error (.login "bad escape")
    return (some user, some pass)

def parseScheme (raw : Text) : Option (ProxyScheme × Text) :=
  match stripPrefixCi raw (text "http://") with
  | some r => some (.http, r)
  | none =>
    match stripPrefixCi raw (text "https://") with
    | some r => some (.https, r)
    | none =>
      match stripPrefixCi raw (text "socks5://") <|> stripPrefixCi raw (text "socks5h://") with
      | some r => some (.socks5, r)
      | none => none

def ProxyUpstream.parse (raw : Text) : Except UpstreamParseError ProxyUpstream := do
  let some (scheme, rest) := parseScheme (trim raw) | .error .scheme
  let rest := if rest.getLast? = some '/' then rest.dropLast else rest
  if rest.any fun c => ['/', '?', '#'].contains c then .error .path
  else
    let (login, hostport) :=
      match rsplitOnce '@' rest with
      | some (login, hostport) => (some login, hostport)
      | none => (none, rest)
    let (host, port) ← splitHostPort hostport scheme.defaultPort
    let (username, password) ←
      match login with
      | none => pure (none, none)
      | some login => parseLogin login
    validateLogin scheme username password
    return ⟨scheme, host, port, username, password⟩

end BrowserServe
