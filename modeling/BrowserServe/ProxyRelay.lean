import BrowserServe.Library.Transfer
import BrowserServe.ProxyDial

namespace BrowserServe
open Library
set_option autoImplicit true

/-- The browser's connection to the relay and the relay's to the upstream proxy, which counts
as made from when it is opened on. -/
structure Conn where
  client : ByteStream
  upstream : ByteStream

def onClient (x : Async ByteStream ε α) : Async Conn ε α :=
  Async.on Conn.client (fun client conn => { conn with client }) x

def onUpstream (x : Async ByteStream ε α) : Async Conn ε α :=
  Async.on Conn.upstream (fun upstream conn => { conn with upstream }) x

def replyHead (status : Nat) (length : Nat) : List UInt8 :=
  let phrase := if status = 400 then "Bad Request" else "Bad Gateway"
  asBytes (text s!"HTTP/1.1 {status} {phrase}") ++ crlf ++
    asBytes (text "Content-Type: text/plain") ++ crlf ++
    asBytes (text s!"Content-Length: {length}") ++ crlf ++
    asBytes (text "Connection: close")

def replyMessage (status : Nat) (reason : String) : List UInt8 :=
  let body := asBytes (text reason) ++ [10]
  replyHead status body.length ++ (crlf ++ crlf) ++ body

def reply (status : Nat) (reason : String) : Async Conn ε Unit :=
  onClient do
    let _ ← Async.attempt (ByteStream.writeAll (replyMessage status reason))
    ByteStream.shutdown

def established : List UInt8 := asBytes (text "HTTP/1.1 200 Connection Established") ++ crlf ++ crlf

/-- What a connection has come to when `serve` is done with its heads: it is over, both its
sides are copied to each other, or a response is copied while the body goes the other way. -/
inductive Relayed where
  | closed
  | tunnel
  | exchange
  deriving DecidableEq

section Relay
variable (httparse : Httparse) (dialer : Dialer)

namespace Relay

def connect (host : Text) (port : Nat) (early : List UInt8) : Async Conn ProxyError Relayed := do
  let rest ← onUpstream (dialer.tunnel httparse host port)
  let written : Except IoError Unit ← Async.attempt do
    onClient (ByteStream.writeAll established)
    onClient (ByteStream.writeAll rest)
    onUpstream (ByteStream.writeAll early)
  match written with
  | .ok () => pure .tunnel
  | .error _ => pure .closed

/-- What the body branch of `forward` has copied by the time the response's head is there: any
number of the browser's bytes. -/
def body (copied : Nat) : Async Conn ε Unit := fun conn =>
  let bytes := conn.client.incoming.bytes
  let written := Outgoing.writeAll (bytes.take copied) conn.upstream.outgoing
  (.ok (),
    { client := { conn.client with
        incoming := { conn.client.incoming with segments := [bytes.drop copied] } }
      upstream := { conn.upstream with outgoing := written.2 } })

def response (tunnelRest : List UInt8) : Async Conn ProxyError Relayed := do
  let head ← onUpstream ((ByteStream.reading (readHead tunnelRest)).mapErr unreachable)
  match head with
  | none => Async.throw (.unreachable "proxy closed the connection")
  | some head =>
    if responseStatus httparse head.head = some 401 ∨
        responseStatus httparse head.head = some 407 then
      Async.throw .loginFailed
    else
      onClient ((ByteStream.writeAll head.head).mapErr unreachable)
      onClient ((ByteStream.writeAll head.rest).mapErr unreachable)
      pure .exchange

/-- The two branches work on different halves of the streams, so what the body branch has done
can be counted before the response branch. -/
def forward (copied : Nat) (tunnelRest requestHead earlyBody : List UInt8) :
    Async Conn ProxyError Relayed := do
  onUpstream ((ByteStream.writeAll requestHead).mapErr unreachable)
  onUpstream ((ByteStream.writeAll earlyBody).mapErr unreachable)
  body copied
  response httparse tunnelRest

/-- The connection a forwarded request goes out on: what was read past its opening, and the
head the request is sent with. -/
def opened (host : Text) (port : Nat) (method absolute originForm : Text)
    (headers : List (Text × List UInt8)) : Async ByteStream ProxyError (List UInt8 × List UInt8) :=
  match dialer.upstream.scheme with
  | .socks5 => do
    let rest ← dialer.tunnel httparse host port
    pure (rest, rewriteRequest method originForm headers none)
  | .http | .https => do
    dialer.opened
    pure ([], rewriteRequest method absolute headers dialer.upstream.basicAuth)

def outcome (copied : Nat) (early : List UInt8) : Request → Async Conn ProxyError Relayed
  | .connect host port => connect httparse dialer host port early
  | .forward host port method absolute originForm headers => do
    let (rest, requestHead) ←
      onUpstream (opened httparse dialer host port method absolute originForm headers)
    forward httparse copied rest requestHead early

def serve (copied : Nat) : Async Conn Empty Relayed := do
  let head ← onClient (Async.attempt (ByteStream.reading (readHead [])))
  match head with
  | .ok none => pure .closed
  | .error _ =>
    reply 400 "bad request"
    pure .closed
  | .ok (some head) =>
    match parseRequest httparse head.head with
    | .error .panicked => pure .closed
    | .error (.reason reason) =>
      reply 400 reason
      pure .closed
    | .ok request =>
      let outcome ← Async.attempt (outcome httparse dialer copied head.rest request)
      match outcome with
      | .ok served => pure served
      | .error e =>
        reply 502 e.toString
        pure .closed

end Relay
end Relay

/-- The two copies of `copy_bidirectional`, and of `forward` once the response's head is
through. -/
def Conn.up (conn : Conn) : Transfer UInt8 := .new conn.client.incoming conn.upstream.outgoing

def Conn.down (conn : Conn) : Transfer UInt8 := .new conn.upstream.incoming conn.client.outgoing

/-- A forwarded request whose response is being copied. -/
structure Exchange where
  response : Transfer UInt8
  body : Transfer UInt8
  isOver : Bool

inductive Exchange.Step (x : Exchange) : Unit → Exchange → Prop
  | response (hover : x.isOver = false) (hstep : x.response.Step next) :
      Step x () { x with response := next }
  | body (hover : x.isOver = false) (hstep : x.body.Step next) : Step x () { x with body := next }
  | shutdown (hover : x.isOver = false) (hdone : x.response.Finished ∨ x.response.Fails) :
      Step x () { x with
        response := { x.response with sink := { x.response.sink with shut := true } }
        isOver := true }

def Conn.exchanging (conn : Conn) : System Exchange Unit where
  init x := x = ⟨conn.down, conn.up, false⟩
  step := Exchange.Step

def Conn.tunnelling (conn : Conn) : System (Duplex UInt8) Unit := Duplex.system conn.up conn.down

@[simp] theorem onClient_run (x : Async ByteStream ε α) (conn : Conn) :
    onClient x conn = ((x conn.client).1, { conn with client := (x conn.client).2 }) := rfl

@[simp] theorem onUpstream_run (x : Async ByteStream ε α) (conn : Conn) :
    onUpstream x conn = ((x conn.upstream).1, { conn with upstream := (x conn.upstream).2 }) := rfl

/-- A stream that has been sent some more. -/
def ByteStream.sent (s : ByteStream) (bytes : List UInt8) : ByteStream :=
  { s with outgoing := { s.outgoing with written := s.outgoing.written ++ bytes } }

def ByteStream.read (s : ByteStream) (incoming : Incoming UInt8) : ByteStream :=
  { s with incoming }

theorem ByteStream.writeAll_of_open {s : ByteStream} (h : s.outgoing.room = none)
    (bytes : List UInt8) : ByteStream.writeAll bytes s = (.ok (), s.sent bytes) := by
  rw [ByteStream.writeAll, Async.on_of (Outgoing.writeAll_of_open h bytes)]
  rfl

theorem ByteStream.sent_sent (s : ByteStream) (bs cs : List UInt8) :
    (s.sent bs).sent cs = s.sent (bs ++ cs) := by
  simp only [sent, List.append_assoc]

/-- A connection after the relay's own reply. -/
def Conn.replied (conn : Conn) (status : Nat) (reason : String) : Conn :=
  let client := conn.client.sent (replyMessage status reason)
  { conn with client := { client with outgoing := { client.outgoing with shut := true } } }

theorem reply_run (status : Nat) (reason : String) {conn : Conn}
    (hroom : conn.client.outgoing.room = none) :
    (reply status reason : Async Conn ε Unit) conn = (.ok (), conn.replied status reason) := by
  have hwrite : (Async.attempt (ByteStream.writeAll (replyMessage status reason)) :
      Async ByteStream ε (Except IoError Unit)) conn.client =
        (.ok (.ok ()), conn.client.sent (replyMessage status reason)) := by
    simp only [Async.attempt, ByteStream.writeAll_of_open hroom]
  rw [reply, onClient_run, Async.bind_of_ok hwrite]
  rfl

/-- What becomes of a response: its head is written out and its rest copied, it is waited for,
or the relay gives it up. -/
inductive Responding (httparse : Httparse) (tunnelRest : List UInt8) (conn : Conn) :
    Except (Stop ProxyError) Relayed × Conn → Prop
  | passed (hread : readHead tunnelRest conn.upstream.incoming = (.ok (some head), incoming))
      (hstatus : ¬ (responseStatus httparse head.head = some 401 ∨
        responseStatus httparse head.head = some 407)) :
      Responding httparse tunnelRest conn (.ok .exchange,
        { client := conn.client.sent (head.head ++ head.rest)
          upstream := conn.upstream.read incoming })
  | waiting (hread : readHead tunnelRest conn.upstream.incoming = (.error .waiting, incoming)) :
      Responding httparse tunnelRest conn
        (.error .waiting, { conn with upstream := conn.upstream.read incoming })
  | login (hread : readHead tunnelRest conn.upstream.incoming = (.ok (some head), incoming))
      (hstatus : responseStatus httparse head.head = some 401 ∨
        responseStatus httparse head.head = some 407) :
      Responding httparse tunnelRest conn
        (.error (.failed .loginFailed), { conn with upstream := conn.upstream.read incoming })
  | closed (hread : readHead tunnelRest conn.upstream.incoming = (.ok none, incoming)) :
      Responding httparse tunnelRest conn
        (.error (.failed (.unreachable "proxy closed the connection")),
          { conn with upstream := conn.upstream.read incoming })
  | failed (hread : readHead tunnelRest conn.upstream.incoming = (.error (.failed e), incoming)) :
      Responding httparse tunnelRest conn
        (.error (.failed (unreachable e)), { conn with upstream := conn.upstream.read incoming })

theorem response_responding (httparse : Httparse) (tunnelRest : List UInt8) {conn : Conn}
    (hroom : conn.client.outgoing.room = none) :
    Responding httparse tunnelRest conn (Relay.response httparse tunnelRest conn) := by
  have hhead : onUpstream ((ByteStream.reading (readHead tunnelRest)).mapErr unreachable) conn =
      (match (readHead tunnelRest conn.upstream.incoming).1 with
        | .ok head => .ok head
        | .error (.failed e) => .error (.failed (unreachable e))
        | .error .waiting => .error .waiting,
        { conn with upstream :=
          conn.upstream.read (readHead tunnelRest conn.upstream.incoming).2 }) := by
    simp only [onUpstream_run, Async.mapErr, ByteStream.reading, Async.on]
    cases readHead tunnelRest conn.upstream.incoming with
    | mk r incoming =>
      cases r with
      | ok => rfl
      | error stop => cases stop <;> rfl
  cases hread : readHead tunnelRest conn.upstream.incoming with
  | mk r incoming =>
    rw [hread] at hhead
    unfold Relay.response
    cases r with
    | error stop =>
      cases stop with
      | failed e =>
        rw [Async.bind_of_error hhead]
        exact .failed hread
      | waiting =>
        rw [Async.bind_of_error hhead]
        exact .waiting hread
    | ok head =>
      rw [Async.bind_of_ok hhead]
      cases head with
      | none => exact .closed hread
      | some head =>
        by_cases hstatus : responseStatus httparse head.head = some 401 ∨
            responseStatus httparse head.head = some 407
        · simp only [if_pos hstatus]
          exact .login hread hstatus
        · simp only [if_neg hstatus]
          have hfirst : onClient ((ByteStream.writeAll head.head).mapErr unreachable)
              { conn with upstream := conn.upstream.read incoming } =
                (.ok (), { client := conn.client.sent head.head
                           upstream := conn.upstream.read incoming }) := by
            simp only [onClient_run, Async.mapErr, ByteStream.writeAll_of_open hroom]
          have hroom' : (conn.client.sent head.head).outgoing.room = none := hroom
          have hsecond : onClient ((ByteStream.writeAll head.rest).mapErr unreachable)
              { client := conn.client.sent head.head, upstream := conn.upstream.read incoming } =
                (.ok (), { client := conn.client.sent (head.head ++ head.rest)
                           upstream := conn.upstream.read incoming }) := by
            simp only [onClient_run, Async.mapErr, ByteStream.writeAll_of_open hroom',
              ByteStream.sent_sent]
          rw [Async.bind_of_ok hfirst, Async.bind_of_ok hsecond]
          exact .passed hread hstatus

/-- What becomes of a `CONNECT`: no tunnel, or one whose first bytes are written both ways. -/
inductive Connecting (httparse : Httparse) (dialer : Dialer) (host : Text) (port : Nat)
    (early : List UInt8) (conn : Conn) : Except (Stop ProxyError) Relayed × Conn → Prop
  | refused (htunnel : dialer.tunnel httparse host port conn.upstream = (.error stop, up)) :
      Connecting httparse dialer host port early conn (.error stop, { conn with upstream := up })
  | established (htunnel : dialer.tunnel httparse host port conn.upstream = (.ok rest, up))
      (hwrite : ByteStream.writeAll early up = (written, up'))
      (hserved : written = .ok () ∧ served = .ok .tunnel ∨
        (∃ stop, written = .error stop) ∧ (served = .ok .closed ∨ served = .error .waiting)) :
      Connecting httparse dialer host port early conn
        (served, { client := conn.client.sent (established ++ rest), upstream := up' })

theorem connect_connecting (httparse : Httparse) (dialer : Dialer) (host : Text) (port : Nat)
    (early : List UInt8) {conn : Conn} (hroom : conn.client.outgoing.room = none) :
    Connecting httparse dialer host port early conn
      (Relay.connect httparse dialer host port early conn) := by
  cases htunnel : dialer.tunnel httparse host port conn.upstream with
  | mk r up =>
    have hopen : onUpstream (dialer.tunnel httparse host port) conn =
        (r, { conn with upstream := up }) := by rw [onUpstream_run, htunnel]
    unfold Relay.connect
    cases r with
    | error stop =>
      rw [Async.bind_of_error hopen]
      exact .refused htunnel
    | ok rest =>
      rw [Async.bind_of_ok hopen]
      have hfirst : onClient (ByteStream.writeAll established) { conn with upstream := up } =
          (.ok (), { client := conn.client.sent established, upstream := up }) := by
        simp only [onClient_run, ByteStream.writeAll_of_open hroom]
      have hroom' : (conn.client.sent established).outgoing.room = none := hroom
      have hsecond : onClient (ByteStream.writeAll rest)
          { client := conn.client.sent established, upstream := up } =
            (.ok (), { client := conn.client.sent (established ++ rest), upstream := up }) := by
        simp only [onClient_run, ByteStream.writeAll_of_open hroom', ByteStream.sent_sent]
      cases hwrite : ByteStream.writeAll early up with
      | mk written up' =>
        have hthird : onUpstream (ByteStream.writeAll early)
            { client := conn.client.sent (established ++ rest), upstream := up } =
              (written, { client := conn.client.sent (established ++ rest), upstream := up' }) := by
          rw [onUpstream_run, hwrite]
        have hall : (do
            onClient (ByteStream.writeAll established)
            onClient (ByteStream.writeAll rest)
            onUpstream (ByteStream.writeAll early)) { conn with upstream := up } =
              (written, { client := conn.client.sent (established ++ rest), upstream := up' }) := by
          rw [Async.bind_of_ok hfirst, Async.bind_of_ok hsecond, hthird]
        simp only [bind, Async.attempt] at hall ⊢
        rw [hall]
        cases written with
        | ok => exact .established htunnel hwrite (.inl ⟨rfl, rfl⟩)
        | error stop =>
          cases stop with
          | failed e => exact .established htunnel hwrite (.inr ⟨⟨_, rfl⟩, .inl rfl⟩)
          | waiting => exact .established htunnel hwrite (.inr ⟨⟨_, rfl⟩, .inr rfl⟩)

/-- The request goes out before the response is looked at, or sending it stops. -/
theorem forward_cases (httparse : Httparse) (copied : Nat)
    (tunnelRest requestHead earlyBody : List UInt8) (conn : Conn) :
    (∃ stop up, Relay.forward httparse copied tunnelRest requestHead earlyBody conn =
        (.error stop, { conn with upstream := up })) ∨
      ∃ sent, sent.client.outgoing = conn.client.outgoing ∧
        sent.upstream.incoming = conn.upstream.incoming ∧
        Relay.forward httparse copied tunnelRest requestHead earlyBody conn =
          Relay.response httparse tunnelRest sent := by
  have hwrite (bytes : List UInt8) (conn : Conn) :
      ∃ r up, onUpstream ((ByteStream.writeAll bytes).mapErr unreachable) conn =
        (r, { conn with upstream := up }) ∧ up.incoming = conn.upstream.incoming := by
    refine ⟨_, _, onUpstream_run _ _, ?_⟩
    simp only [Async.mapErr, ByteStream.writeAll, Async.on]
    split <;> next heq => rw [← (Prod.mk.inj heq).2]
  obtain ⟨r, up, hfirst, hin⟩ := hwrite requestHead conn
  unfold Relay.forward
  cases r with
  | error stop => exact .inl ⟨stop, up, Async.bind_of_error hfirst⟩
  | ok =>
    rw [Async.bind_of_ok hfirst]
    obtain ⟨r, up', hsecond, hin'⟩ := hwrite earlyBody { conn with upstream := up }
    cases r with
    | error stop => exact .inl ⟨stop, up', Async.bind_of_error hsecond⟩
    | ok =>
      rw [Async.bind_of_ok hsecond]
      refine .inr ⟨((Relay.body copied : Async Conn ProxyError Unit)
        { conn with upstream := up' }).2, rfl, hin'.trans hin, rfl⟩

/-- An open stream takes the request, and what is copied of the bytes after it. -/
theorem forward_of_open (httparse : Httparse) (copied : Nat)
    (tunnelRest requestHead earlyBody : List UInt8) {conn : Conn}
    (hroom : conn.upstream.outgoing.room = none) :
    ∃ sent, sent.client.outgoing = conn.client.outgoing ∧
      sent.upstream.incoming = conn.upstream.incoming ∧
      sent.upstream.outgoing.written = conn.upstream.outgoing.written ++
        (requestHead ++ (earlyBody ++ conn.client.incoming.bytes.take copied)) ∧
      Relay.forward httparse copied tunnelRest requestHead earlyBody conn =
        Relay.response httparse tunnelRest sent := by
  have hwrite (bytes : List UInt8) (up : ByteStream) (hup : up.outgoing.room = none) :
      onUpstream ((ByteStream.writeAll bytes).mapErr unreachable) { conn with upstream := up } =
        (.ok (), { conn with upstream := up.sent bytes }) := by
    simp only [onUpstream_run, Async.mapErr, ByteStream.writeAll_of_open hup]
  have hfirst := hwrite requestHead conn.upstream hroom
  have hsecond := hwrite earlyBody (conn.upstream.sent requestHead) hroom
  refine ⟨((Relay.body copied : Async Conn ProxyError Unit)
    { conn with upstream := (conn.upstream.sent requestHead).sent earlyBody }).2, rfl, rfl, ?_, ?_⟩
  · have hroom' : ((conn.upstream.sent requestHead).sent earlyBody).outgoing.room = none := hroom
    have hcopy := Outgoing.writeAll_of_open hroom' (conn.client.incoming.bytes.take copied)
    change (Outgoing.writeAll _ _).2.written = _
    rw [hcopy]
    simp only [ByteStream.sent, List.append_assoc]
  · exact (Async.bind_of_ok hfirst).trans (Async.bind_of_ok hsecond)

theorem outcome_forward (httparse : Httparse) (dialer : Dialer) (copied : Nat)
    (early : List UInt8) (host : Text) (port : Nat) (method absolute originForm : Text)
    (headers : List (Text × List UInt8)) (conn : Conn) :
    Relay.outcome httparse dialer copied early
        (.forward host port method absolute originForm headers) conn =
      match Relay.opened httparse dialer host port method absolute originForm headers
          conn.upstream with
      | (.ok (rest, requestHead), up) =>
        Relay.forward httparse copied rest requestHead early { conn with upstream := up }
      | (.error stop, up) => (.error stop, { conn with upstream := up }) := by
  cases hopened : Relay.opened httparse dialer host port method absolute originForm headers
      conn.upstream with
  | mk r up =>
    have hopen : onUpstream
        (Relay.opened httparse dialer host port method absolute originForm headers) conn =
          (r, { conn with upstream := up }) := by rw [onUpstream_run, hopened]
    unfold Relay.outcome
    cases r with
    | error stop => exact Async.bind_of_error hopen
    | ok opened => exact Async.bind_of_ok hopen

/-- A forwarded request stops before its response is looked at, or comes to what the response
comes to. -/
theorem outcome_forward_cases {httparse : Httparse} {dialer : Dialer} {early : List UInt8}
    {conn : Conn} (hroom : conn.client.outgoing.room = none)
    (h : Relay.outcome httparse dialer copied early
      (.forward host port method absolute originForm headers) conn = (r, c)) :
    (∃ stop up, r = .error stop ∧ c = { conn with upstream := up }) ∨
      ∃ rest requestHead up sent,
        Relay.opened httparse dialer host port method absolute originForm headers
          conn.upstream = (.ok (rest, requestHead), up) ∧
        sent.client.outgoing = conn.client.outgoing ∧
        sent.upstream.incoming = up.incoming ∧ Responding httparse rest sent (r, c) := by
  rw [outcome_forward] at h
  split at h
  · next rest requestHead up hopened =>
    rcases forward_cases httparse copied rest requestHead early { conn with upstream := up } with
      ⟨stop, up', hstop⟩ | ⟨sent, hclient, hupstream, hsent⟩
    · rw [hstop] at h
      cases h
      exact .inl ⟨stop, up', rfl, rfl⟩
    · have hresponse := response_responding httparse rest (hclient ▸ hroom :
        sent.client.outgoing.room = none)
      rw [← hsent, h] at hresponse
      exact .inr ⟨rest, requestHead, up, sent, hopened, hclient, hupstream, hresponse⟩
  · cases h
    exact .inl ⟨_, _, rfl, rfl⟩

theorem outcome_connecting {httparse : Httparse} {dialer : Dialer} {early : List UInt8}
    {conn : Conn} (hroom : conn.client.outgoing.room = none)
    (h : Relay.outcome httparse dialer copied early (.connect host port) conn = result) :
    Connecting httparse dialer host port early conn result := by
  rw [← h]
  exact connect_connecting httparse dialer host port early hroom

/-- Only a `CONNECT` leads to a tunnel. -/
theorem outcome_tunnel {httparse : Httparse} {dialer : Dialer} {early : List UInt8}
    {request : Request} {conn : Conn} (hroom : conn.client.outgoing.room = none)
    (h : Relay.outcome httparse dialer copied early request conn = (.ok .tunnel, c)) :
    ∃ host port, request = .connect host port ∧
      Connecting httparse dialer host port early conn (.ok .tunnel, c) := by
  cases request with
  | connect host port => exact ⟨host, port, rfl, outcome_connecting hroom h⟩
  | forward =>
    rcases outcome_forward_cases hroom h with ⟨_, _, hr, _⟩ | ⟨_, _, _, _, _, _, _, hresponse⟩
    · cases hr
    · cases hresponse

/-- Where a request comes to an error, nothing has been written to the browser. -/
theorem outcome_failed {httparse : Httparse} {dialer : Dialer} {early : List UInt8}
    {request : Request} {conn : Conn} (hroom : conn.client.outgoing.room = none)
    (h : Relay.outcome httparse dialer copied early request conn = (.error (.failed e), c)) :
    c.client.outgoing = conn.client.outgoing := by
  cases request with
  | connect host port =>
    cases outcome_connecting hroom h with
    | refused => rfl
    | established _ _ hserved =>
      rcases hserved with ⟨_, hserved⟩ | ⟨_, hserved | hserved⟩ <;> cases hserved
  | forward =>
    rcases outcome_forward_cases hroom h with
      ⟨_, _, _, rfl⟩ | ⟨_, _, _, sent, _, hclient, _, hresponse⟩
    · rfl
    · cases hresponse with
      | login => exact hclient
      | closed => exact hclient
      | failed => exact hclient

/-- A connection whose request head has been read. -/
def Conn.heard (conn : Conn) (incoming : Incoming UInt8) : Conn :=
  { conn with client := conn.client.read incoming }

/-- What `serve` comes to: nothing that it looks at, a request it refuses, or one it takes on
and what that comes to. -/
inductive Serving (httparse : Httparse) (dialer : Dialer) (copied : Nat) (conn : Conn) :
    Except (Stop Empty) Relayed × Conn → Prop
  | early (hr : r = .error .waiting ∨ r = .ok .closed) :
      Serving httparse dialer copied conn (r, conn.heard incoming)
  | refused (reason : String) :
      Serving httparse dialer copied conn (.ok .closed, (conn.heard incoming).replied 400 reason)
  | served (hread : readHead [] conn.client.incoming = (.ok (some head), incoming))
      (hparse : parseRequest httparse head.head = .ok request)
      (hout : Relay.outcome httparse dialer copied head.rest request (conn.heard incoming) =
        (.ok served, c)) : Serving httparse dialer copied conn (.ok served, c)
  | failed (hread : readHead [] conn.client.incoming = (.ok (some head), incoming))
      (hparse : parseRequest httparse head.head = .ok request)
      (hout : Relay.outcome httparse dialer copied head.rest request (conn.heard incoming) =
        (.error (.failed e), c)) :
      Serving httparse dialer copied conn (.ok .closed, c.replied 502 e.toString)
  | waiting (hread : readHead [] conn.client.incoming = (.ok (some head), incoming))
      (hparse : parseRequest httparse head.head = .ok request)
      (hout : Relay.outcome httparse dialer copied head.rest request (conn.heard incoming) =
        (.error .waiting, c)) : Serving httparse dialer copied conn (.error .waiting, c)

/-- What `serve` makes of the outcome of a request: an error becomes a 502. -/
def Relay.concluded : Except (Stop ProxyError) Relayed × Conn →
    Except (Stop Empty) Relayed × Conn
  | (.ok served, c) => (.ok served, c)
  | (.error (.failed e), c) => (reply 502 e.toString >>= fun _ => pure .closed) c
  | (.error .waiting, c) => (.error .waiting, c)

theorem heard_ok {conn : Conn} {α : Type} {a : α} {reads : Async (Incoming UInt8) IoError α}
    (h : reads conn.client.incoming = (.ok a, incoming)) :
    (onClient (Async.attempt (ByteStream.reading reads)) : Async Conn Empty (Except IoError α))
      conn = (.ok (.ok a), conn.heard incoming) :=
  Async.on_of (Async.attempt_of_ok (Async.on_of h))

theorem serve_request {httparse : Httparse} {dialer : Dialer} {conn : Conn}
    (hread : readHead [] conn.client.incoming = (.ok (some head), incoming))
    (hparse : parseRequest httparse head.head = .ok request) :
    Relay.serve httparse dialer copied conn = Relay.concluded
      (Relay.outcome httparse dialer copied head.rest request (conn.heard incoming)) := by
  unfold Relay.serve
  rw [Async.bind_of_ok (heard_ok hread)]
  simp only [hparse]
  cases hout : Relay.outcome httparse dialer copied head.rest request (conn.heard incoming) with
  | mk r c =>
    cases r with
    | ok served => exact Async.bind_of_ok (Async.attempt_of_ok hout)
    | error stop =>
      cases stop with
      | failed e => exact Async.bind_of_ok (Async.attempt_of_failed hout)
      | waiting => exact Async.bind_of_error (Async.attempt_of_waiting hout)

theorem serve_serving (httparse : Httparse) (dialer : Dialer) (copied : Nat) {conn : Conn}
    (hroom : conn.client.outgoing.room = none) :
    Serving httparse dialer copied conn (Relay.serve httparse dialer copied conn) := by
  cases hread : readHead [] conn.client.incoming with
  | mk r incoming =>
    have hroom' : (conn.heard incoming).client.outgoing.room = none := hroom
    cases r with
    | error stop =>
      unfold Relay.serve
      cases stop with
      | failed e =>
        have hhead : (onClient (Async.attempt (ByteStream.reading (readHead []))) :
            Async Conn Empty (Except IoError (Option Head))) conn =
              (.ok (.error e), conn.heard incoming) :=
          Async.on_of (Async.attempt_of_failed (Async.on_of hread))
        rw [Async.bind_of_ok hhead]
        change Serving httparse dialer copied conn
          ((reply 400 "bad request" >>= fun _ => pure .closed) (conn.heard incoming))
        rw [Async.bind_of_ok (reply_run 400 "bad request" hroom')]
        exact .refused "bad request"
      | waiting =>
        have hhead : (onClient (Async.attempt (ByteStream.reading (readHead []))) :
            Async Conn Empty (Except IoError (Option Head))) conn =
              (.error .waiting, conn.heard incoming) :=
          Async.on_of (Async.attempt_of_waiting (Async.on_of hread))
        rw [Async.bind_of_error hhead]
        exact .early (.inl rfl)
    | ok head =>
      cases head with
      | none =>
        unfold Relay.serve
        rw [Async.bind_of_ok (heard_ok hread)]
        exact .early (.inr rfl)
      | some head =>
        cases hparse : parseRequest httparse head.head with
        | error e =>
          unfold Relay.serve
          rw [Async.bind_of_ok (heard_ok hread)]
          cases e with
          | panicked =>
            simp only [hparse]
            exact .early (.inr rfl)
          | reason reason =>
            simp only [hparse, Async.bind_of_ok (reply_run 400 reason hroom')]
            exact .refused reason
        | ok request =>
          rw [serve_request hread hparse]
          cases hout : Relay.outcome httparse dialer copied head.rest request
              (conn.heard incoming) with
          | mk r c =>
            cases r with
            | ok served => exact .served hread hparse hout
            | error stop =>
              cases stop with
              | failed e =>
                have hcroom : c.client.outgoing.room = none :=
                  (congrArg Outgoing.room (outcome_failed hroom' hout)).trans hroom'
                rw [Relay.concluded, Async.bind_of_ok (reply_run 502 e.toString hcroom)]
                exact .failed hread hparse hout
              | waiting => exact .waiting hread hparse hout

/-- What `serve` goes on with after its reply is the outcome of the one request it read. -/
theorem serve_ok {httparse : Httparse} {dialer : Dialer} {conn : Conn}
    (hroom : conn.client.outgoing.room = none)
    (h : Relay.serve httparse dialer copied conn = (.ok served, c)) (hne : served ≠ .closed) :
    ∃ head incoming request, readHead [] conn.client.incoming = (.ok (some head), incoming) ∧
      parseRequest httparse head.head = .ok request ∧
      Relay.outcome httparse dialer copied head.rest request (conn.heard incoming) =
        (.ok served, c) := by
  have hserving := serve_serving httparse dialer copied hroom
  rw [h] at hserving
  cases hserving with
  | early hr =>
    rcases hr with hr | hr
    · cases hr
    · cases hr
      exact absurd rfl hne
  | refused => exact absurd rfl hne
  | served hread hparse hout => exact ⟨_, _, _, hread, hparse, hout⟩
  | failed => exact absurd rfl hne

end BrowserServe
