import BrowserServe.Library.Async
import BrowserServe.Library.Search
import BrowserServe.ProfileCodec

namespace BrowserServe
open Library
set_option autoImplicit true

/-- What the pipe gives at a receive, and what a send right after it comes to. -/
structure Delivery where
  received : Except PipeError Value
  sent : Except PipeError Unit

/-- A client and its pipe: what a send comes to now, what has been sent, and what will be there to
receive. -/
structure Link where
  client : CdpClient
  sent : Except PipeError Unit
  written : List Value
  inbound : List Delivery

namespace Link

def send (method : String) (params : Value) (sessionId : Option String) :
    Async Link ProfileCdpError Nat := fun link =>
  let id := link.client.nextId
  let link := { link with client := ⟨id + 1⟩ }
  match link.sent with
  | .error e => (.error (.failed (.cdp (.pipe e))), link)
  | .ok () =>
    (.ok id, { link with written :=
      link.written ++ [CdpClient.envelope id method params sessionId] })

def recv : Async Link ProfileCdpError Value := fun link =>
  match link.inbound with
  | [] => (.error .waiting, link)
  | ⟨received, sent⟩ :: inbound =>
    match received with
    | .error e => (.error (.failed (.cdp (.pipe e))), { link with sent, inbound })
    | .ok msg => (.ok msg, { link with sent, inbound })

/-- A loop that receives in every round, for as long as it can. -/
def forever (loop : Nat → Async Link ProfileCdpError α) : Async Link ProfileCdpError α :=
  fun link => loop (link.inbound.length + 1) link

def awaitReply (id : Nat) (method : String) : Nat → Async Link ProfileCdpError Value
  | 0 => Async.wait
  | rounds + 1 => do
    let msg ← recv
    if messageId msg = some id then
      match CdpClient.outcome method msg with
      | .error e => Async.throw (.cdp e)
      | .ok result => return result
    else awaitReply id method rounds

def callOn (sessionId : Option String) (method : String) (params : Value) :
    Async Link ProfileCdpError Value := do
  let id ← send method params sessionId
  forever (awaitReply id method)

/-- Any request that is paused is answered with an empty document. -/
def fulfillParams (msg : Value) : Value :=
  let requestId := ((msg.get "params").bind fun params => params.get "requestId").bind Value.asStr
  .obj [("requestId", .str (requestId.getD "")), ("responseCode", .int 200),
    ("responseHeaders",
      .arr [.obj [("name", .str "Content-Type"), ("value", .str "text/html")]])]

def pumpUntilLoad (sessionId : String) : Nat → Async Link ProfileCdpError Unit
  | 0 => Async.wait
  | rounds + 1 => do
    let msg ← recv
    let method := (msg.get "method").bind Value.asStr
    if method = some "Fetch.requestPaused" then do
      let _ ← send "Fetch.fulfillRequest" (fulfillParams msg) (some sessionId)
      pumpUntilLoad sessionId rounds
    else if method = some "Page.loadEventFired" then return ()
    else pumpUntilLoad sessionId rounds

def navigateStub (sessionId url : String) : Async Link ProfileCdpError Unit := do
  let _ ← send "Page.navigate" (.obj [("url", .str url)]) (some sessionId)
  forever (pumpUntilLoad sessionId)

def enableInterception (sessionId : String) : Async Link ProfileCdpError Unit := do
  let _ ← callOn (some sessionId) "Page.enable" (.obj [])
  let _ ← callOn (some sessionId) "Fetch.enable"
    (.obj [("patterns", .arr [.obj [("urlPattern", .str "*")]])])
  return ()

def disableInterception (sessionId : String) : Async Link ProfileCdpError Unit := do
  let _ ← callOn (some sessionId) "Fetch.disable" (.obj [])
  navigateStub sessionId "about:blank"

end Link

/-- `json` is how the entries are written as a document. -/
def restoreScript (json : Value → String) (entries : List StorageEntry) : String :=
  let data := json (.arr (entries.map StorageEntry.encode))
  "(()=>\x7btry\x7blocalStorage.clear();for(const e of " ++ data ++
    ")\x7blocalStorage.setItem(e.name,e.value);\x7dreturn true;\x7d" ++
      "catch(err)\x7breturn String(err);\x7d\x7d)()"

namespace Link

/-- The loop of `apply_local_storage` over the origins that are left. -/
def applyOrigins (json : Value → String) (sessionId : String) :
    List OriginState → Async Link ProfileCdpError Unit
  | [] => return ()
  | origin :: origins => do
    navigateStub sessionId (origin.origin ++ "/")
    let _ ← callOn (some sessionId) "Runtime.evaluate"
      (.obj [("expression", .str (restoreScript json origin.localStorage)),
        ("returnByValue", .bool true)])
    applyOrigins json sessionId origins

def applyLocalStorage (json : Value → String) (sessionId : String) (origins : List OriginState) :
    Async Link ProfileCdpError Nat := do
  if origins.isEmpty then return 0
  enableInterception sessionId
  applyOrigins json sessionId origins
  disableInterception sessionId
  return origins.length

end Link

namespace Delivery

def method (d : Delivery) : Option String :=
  d.received.toOption.bind fun msg => (msg.get "method").bind Value.asStr

def loads (d : Delivery) : Bool := d.method = some "Page.loadEventFired"

/-- The pipe gives an error, or the request that is paused cannot be answered. -/
def fails (d : Delivery) : Bool :=
  !d.received.isOk || (d.method = some "Fetch.requestPaused" && !d.sent.isOk)

/-- What `navigate_stub` does not go on after. -/
def stops (d : Delivery) : Bool := d.fails || d.loads

end Delivery

namespace Link
variable {sessionId url : String} {link : Link} {d : Delivery} {ds : List Delivery} {rounds : Nat}

theorem recv_nil (h : link.inbound = []) : recv link = (.error .waiting, link) := by
  simp only [recv, h]

theorem pump_nil (h : link.inbound = []) :
    (pumpUntilLoad sessionId (rounds + 1) link).1 = .error .waiting := by
  rw [pumpUntilLoad, Async.bind_of_error (recv_nil h)]

end Link

/-- The answer that a command has failed. -/
def Delivery.Refuses (d : Delivery) (id : Nat) : Prop :=
  ∃ msg, d.received = .ok msg ∧ messageId msg = some id ∧
    ((msg.get "error").isSome = true ∨
      ((msg.get "result").bind fun result => result.get "errorText").isSome = true)

def Refused (id : Nat) (stream : Nat → Option Delivery) : Prop :=
  ∃ t d, stream t = some d ∧ d.Refuses id

namespace Link

variable {json : Value → String} {sessionId url : String} {link : Link}
  {stream : Nat → Option Delivery} {started : Option Nat} {n : Nat}

end Link
end BrowserServe
