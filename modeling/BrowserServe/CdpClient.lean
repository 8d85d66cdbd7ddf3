import BrowserServe.Json

namespace BrowserServe
set_option autoImplicit true

inductive PipeError where
  | closed
  | frameTooLarge (maxBytes : Nat)
  | badJson
  | io
  deriving DecidableEq

inductive CdpError where
  | pipe (error : PipeError)
  | protocol (method : String) (code : Int) (message : String)
  deriving DecidableEq

/-- The id of a message, as every correlator reads it. -/
def messageId (message : Value) : Option Nat := (message.get "id").bind Value.asU64

structure CdpClient where
  nextId : Nat
  deriving DecidableEq

def CdpClient.new : CdpClient := ⟨1⟩

def CdpClient.withFirstId (firstId : Nat) : CdpClient := ⟨firstId⟩

def CdpClient.envelope (id : Nat) (method : String) (params : Value)
    (sessionId : Option String) : Value :=
  .obj ([("id", .int id), ("method", .str method), ("params", params)] ++
    sessionId.toList.map fun sid => ("sessionId", .str sid))

/-- What `call_on` returns for the message it takes for the reply. -/
def CdpClient.outcome (method : String) (message : Value) : Except CdpError Value :=
  match message.get "error" with
  | some err => .error (.protocol method (((err.get "code").bind Value.asI64).getD 0)
      (((err.get "message").bind Value.asStr).getD "unknown"))
  | none => .ok ((message.get "result").getD .null)

/-- What `call_on` does with the messages that come in, until the reply to an id or an error;
past their end the browser has closed its pipe. -/
def CdpClient.awaitReply (id : Nat) (method : String) :
    List (Except PipeError Value) → Except CdpError Value
  | [] => .error (.pipe .closed)
  | .error e :: _ => .error (.pipe e)
  | .ok message :: inbound =>
    if messageId message = some id then outcome method message
    else awaitReply id method inbound

/-- `call` over what its send came to and what the pipe gives after it. -/
def CdpClient.call (client : CdpClient) (method : String) (sent : Except PipeError Unit)
    (inbound : List (Except PipeError Value)) : Except CdpError Value :=
  match sent with
  | .error e => .error (.pipe e)
  | .ok () => awaitReply client.nextId method inbound

theorem CdpClient.messageId_envelope (id : Nat) (method : String) (params : Value)
    (sessionId : Option String) : messageId (envelope id method params sessionId) = some id := by
  simp [messageId, envelope, Value.get, Value.asU64]

def CLEANUP_FIRST_ID : Nat := 2000000000

/-- The ids `clean_slate` gets out of `Target.getTargets`: those of the attached targets. -/
def attachedTargets (targets : Value) : List String :=
  (((targets.get "targetInfos").bind Value.asArray).map fun infos =>
    (infos.filter fun t => (t.get "attached").bind Value.asBool == some true).filterMap
      fun t => (t.get "targetId").bind Value.asStr).getD []

/-- The calls of `clean_slate`, in order, before it knows of any target. -/
def cleanSlate : List (String × Value) :=
  [("Target.getTargets", .obj []),
    ("Target.setAutoAttach",
      .obj [("autoAttach", .bool false), ("waitForDebuggerOnStart", .bool false)]),
    ("Target.setDiscoverTargets", .obj [("discover", .bool false)])]

/-- The calls `clean_slate` has left after one returned: the targets found are detached
first. -/
def cleanSlateNext (method : String) (reply : Except CdpError Value)
    (rest : List (String × Value)) : List (String × Value) :=
  match method, reply with
  | "Target.getTargets", .ok targets =>
    (attachedTargets targets).map
      (fun id => ("Target.detachFromTarget", .obj [("targetId", .str id)])) ++ rest
  | _, _ => rest

end BrowserServe
