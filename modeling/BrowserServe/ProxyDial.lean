import BrowserServe.Library.IpAddr
import BrowserServe.ProxyHead

namespace BrowserServe
open Library
set_option autoImplicit true

inductive ProxyScheme where
  | http
  | https
  | socks5
  deriving DecidableEq

/-- A parsed upstream proxy. -/
structure ProxyUpstream where
  scheme : ProxyScheme
  host : Text
  port : Nat
  username : Option Text
  password : Option Text

def ProxyUpstream.basicAuth (upstream : ProxyUpstream) : Option Text := do
  let user ← upstream.username
  let pass := upstream.password.getD []
  return text "Basic " ++ base64 (asBytes (user ++ [':'] ++ pass))

inductive ProxyError where
  | addressNotAllowed (host : String)
  | unreachable (why : String)
  | loginFailed
  | refused (why : String)
  | timeout
  deriving DecidableEq

def ProxyError.toString : ProxyError → String
  | addressNotAllowed host => s!"proxy address not allowed: {host}"
  | unreachable why => s!"proxy unreachable: {why}"
  | loginFailed => "proxy login failed"
  | refused why => s!"proxy refused the connection: {why}"
  | timeout => "proxy did not answer in time"

/-- A TCP stream, or TLS over one. -/
structure ByteStream where
  incoming : Incoming UInt8
  outgoing : Outgoing UInt8

def ByteStream.reading (x : Async (Incoming UInt8) ε α) : Async ByteStream ε α :=
  Async.on ByteStream.incoming (fun incoming s => { s with incoming }) x

def ByteStream.writeAll (bytes : List UInt8) : Async ByteStream IoError Unit :=
  Async.on ByteStream.outgoing (fun outgoing s => { s with outgoing }) (Outgoing.writeAll bytes)

namespace Socks

def VERSION : UInt8 := 0x05
def NO_AUTH : UInt8 := 0x00
def USER_PASS : UInt8 := 0x02
def NO_ACCEPTABLE : UInt8 := 0xff

def io (e : IoError) : ProxyError := .unreachable s!"socks: {e.text}"

def send (bytes : List UInt8) : Async ByteStream ProxyError Unit :=
  (ByteStream.writeAll bytes).mapErr io

def readExact (n : Nat) : Async ByteStream ProxyError (List UInt8) :=
  (ByteStream.reading (Incoming.readExact n)).mapErr io

def replyReason (code : UInt8) : String :=
  if code = 0x02 then "not allowed by the proxy's rules"
  else if code = 0x03 then "network unreachable"
  else if code = 0x04 then "host unreachable"
  else if code = 0x05 then "connection refused"
  else if code = 0x06 then "timed out"
  else "proxy failure"

def greeting (login : Option (Text × Text)) : List UInt8 :=
  if login.isSome then [VERSION, 2, NO_AUTH, USER_PASS] else [VERSION, 1, NO_AUTH]

/-- The username and the password with their lengths, which have to fit in a byte. -/
def loginMessage (user pass : Text) : Option (List UInt8) :=
  let u := asBytes user
  let p := asBytes pass
  if u.length < 256 ∧ p.length < 256 then
    some ([0x01, UInt8.ofNat u.length] ++ u ++ [UInt8.ofNat p.length] ++ p)
  else none

def sendLogin (user pass : Text) : Async ByteStream ProxyError Unit := do
  match loginMessage user pass with
  | none => Async.throw .loginFailed
  | some msg =>
    send msg
    let status ← readExact 2
    if status.getD 1 0 ≠ 0 then Async.throw .loginFailed

/-- The greeting and the login, if the proxy asks for it. -/
def authenticate (login : Option (Text × Text)) : Async ByteStream ProxyError Unit := do
  send (greeting login)
  let choice ← readExact 2
  if choice.getD 0 0 ≠ VERSION then Async.throw (.unreachable "socks: not a SOCKS5 proxy")
  else if choice.getD 1 0 = NO_AUTH then pure ()
  else if choice.getD 1 0 = USER_PASS then
    match login with
    | some (user, pass) => sendLogin user pass
    | none => Async.throw .loginFailed
  else if choice.getD 1 0 = NO_ACCEPTABLE then Async.throw .loginFailed
  else Async.throw (.unreachable "socks: unsupported method")

/-- The request for a target, whose name has to fit in 255 bytes. -/
def request (host : Text) (port : Nat) : Option (List UInt8) := do
  let addr ←
    match parseIpAddr host with
    | some (.v4 a b c d) => some (0x01 :: (IpAddr.v4 a b c d).octets)
    | some (.v6 segments) => some (0x04 :: (IpAddr.v6 segments).octets)
    | none =>
      if (asBytes host).length < 256 then
        some ([0x03, UInt8.ofNat (asBytes host).length] ++ asBytes host)
      else none
  return [VERSION, 0x01, 0x00] ++ addr ++ [UInt8.ofNat (port / 256), UInt8.ofNat port]

/-- How much of a reply is left after its address type, the length of a name read first. -/
def skipLength (kind : UInt8) : Async ByteStream ProxyError Nat :=
  if kind = 0x01 then pure (4 + 2)
  else if kind = 0x04 then pure (16 + 2)
  else if kind = 0x03 then do
    let len ← readExact 1
    pure ((len.getD 0 0).toNat + 2)
  else Async.throw (.unreachable "socks: bad address type")

/-- The reply, with the address it carries read to its last byte. -/
def readReply : Async ByteStream ProxyError Unit := do
  let reply ← readExact 4
  if reply.getD 0 0 ≠ VERSION then Async.throw (.unreachable "socks: bad reply")
  else if reply.getD 1 0 ≠ 0 then Async.throw (.refused (replyReason (reply.getD 1 0)))
  else
    let skip ← skipLength (reply.getD 3 0)
    let _ ← readExact skip
    pure ()

def connect (host : Text) (port : Nat) (login : Option (Text × Text)) :
    Async ByteStream ProxyError Unit := do
  authenticate login
  match request host port with
  | none => Async.throw (.refused "target host name too long")
  | some req =>
    send req
    readReply

end Socks

/-- What the relay dials: the upstream, what connecting to it comes to (the TLS handshake
included), and whether the time limit passes while it is waited for. -/
structure Dialer where
  upstream : ProxyUpstream
  openInner : Except (Stop ProxyError) Unit
  expires : Bool

def ByteStream.shutdown : Async ByteStream ε Unit :=
  Async.on ByteStream.outgoing (fun outgoing s => { s with outgoing }) Outgoing.shutdown

def timeout (expires : Bool) (x : Async σ ProxyError α) : Async σ ProxyError α := fun s =>
  match x s with
  | (.error .waiting, s) => (.error (if expires then .failed .timeout else .waiting), s)
  | (r, s) => (r, s)

/-- `host:port`, with brackets around an IPv6 literal. -/
def authority (host : Text) (port : Nat) : Text :=
  if ':' ∈ host then ['['] ++ host ++ text s!"]:{port}" else host ++ text s!":{port}"

def unreachable (e : IoError) : ProxyError := .unreachable e.kind

namespace Dialer

def connecting (dialer : Dialer) : Async ByteStream ProxyError Unit :=
  fun s => (dialer.openInner, s)

/-- A fresh connection to the proxy itself. -/
def opened (dialer : Dialer) : Async ByteStream ProxyError Unit :=
  timeout dialer.expires dialer.connecting

def connectHead (dialer : Dialer) (host : Text) (port : Nat) : List UInt8 :=
  asBytes (text "CONNECT " ++ authority host port ++ text " HTTP/1.1") ++ crlf ++
    asBytes (text "Host: " ++ authority host port) ++ crlf ++
    (match dialer.upstream.basicAuth with
      | some auth => asBytes (text "Proxy-Authorization: " ++ auth) ++ crlf
      | none => []) ++ crlf

def httpConnect (httparse : Httparse) (dialer : Dialer) (host : Text) (port : Nat) :
    Async ByteStream ProxyError (List UInt8) := do
  (ByteStream.writeAll (dialer.connectHead host port)).mapErr unreachable
  let head ← (ByteStream.reading (readHead [])).mapErr unreachable
  match head with
  | none => Async.throw (.unreachable "proxy closed the connection")
  | some head =>
    match responseStatus httparse head.head with
    | some code =>
      if 200 ≤ code ∧ code ≤ 299 then pure head.rest
      else if code = 401 ∨ code = 407 then Async.throw .loginFailed
      else Async.throw (.refused s!"status {code}")
    | none => Async.throw (.unreachable "malformed proxy response")

def login (dialer : Dialer) : Option (Text × Text) :=
  dialer.upstream.username.map fun u => (u, dialer.upstream.password.getD [])

/-- A tunnel through the proxy, and the bytes it sent after accepting it. -/
def tunnel (httparse : Httparse) (dialer : Dialer) (host : Text) (port : Nat) :
    Async ByteStream ProxyError (List UInt8) :=
  timeout dialer.expires do
    dialer.connecting
    match dialer.upstream.scheme with
    | .socks5 =>
      Socks.connect host port dialer.login
      pure []
    | .http | .https => dialer.httpConnect httparse host port

end Dialer
end BrowserServe
