import BrowserServe.Library.Inbox
import BrowserServe.NavigateStub

namespace BrowserServe
open Library
set_option autoImplicit true

def VIEW_W : Int := 1280
def VIEW_H : Int := 720

/-- Why a session is not recording. -/
inductive RecordError where
  | call (error : ProfileCdpError)
  | missing (what : String)
  | command (method : String) (error : ProfileCdpError)

def isScreencastFrame (msg : Value) : Bool :=
  (msg.get "method").bind Value.asStr = some "Page.screencastFrame"

def frameSessionId (msg : Value) : Option String := (msg.get "sessionId").bind Value.asStr

def frameSeq (msg : Value) : Int :=
  (((msg.get "params").bind fun params => params.get "sessionId").bind Value.asI64).getD 0

namespace Link

/-- A `CdpClient` of its own for what comes next. -/
def newClient : Async Link ε Unit := fun link => (.ok (), { link with client := .new })

def waitFirstFrame : Nat → Async Link ProfileCdpError Unit
  | 0 => Async.wait
  | rounds + 1 => do
    let msg ← recv
    if isScreencastFrame msg then return () else waitFirstFrame rounds

def field (what : String) (key : String) (msg : Value) : Async Link RecordError String :=
  match (msg.get key).bind Value.asStr with
  | some s => pure s
  | none => Async.throw (.missing what)

/-- `workload` is the script that the page is made to work with. -/
def recordCommands (workload : String) : List (String × Value) :=
  [("Page.enable", .obj []), ("Runtime.enable", .obj []),
    ("Page.setDeviceMetricsOverride", .obj [("width", .int VIEW_W), ("height", .int VIEW_H),
      ("deviceScaleFactor", .int 1), ("mobile", .bool false)]),
    ("Runtime.evaluate", .obj [("expression", .str workload), ("returnByValue", .bool true)]),
    ("Page.startScreencast", .obj [("format", .str "jpeg"), ("quality", .int 60),
      ("maxWidth", .int VIEW_W), ("maxHeight", .int VIEW_H), ("everyNthFrame", .int 4)])]

def callEach (sid : String) : List (String × Value) → Async Link RecordError Unit
  | [] => return ()
  | (method, params) :: commands => do
    let _ ← (callOn (some sid) method params).mapErr (.command method)
    callEach sid commands

/-- Without its timeout, at which a session that still waits for its first frame is destroyed. -/
def setupRecording (workload : String) : Async Link RecordError Unit := do
  newClient
  let created ← (callOn none "Target.createTarget" (.obj [("url", .str "about:blank")])).mapErr
      .call
  let targetId ← field "createTarget returned no targetId" "targetId" created
  let attached ← (callOn none "Target.attachToTarget"
    (.obj [("targetId", .str targetId), ("flatten", .bool true)])).mapErr .call
  let sid ← field "attach returned no sessionId" "sessionId" attached
  callEach sid (recordCommands workload)
  (forever waitFirstFrame).mapErr .call

end Link

/-- A session that is held: its pipe, and the counter of its frames. -/
structure Recording where
  link : Link
  frames : Nat

namespace Recording

def onLink (x : Async Link ε α) : Async Recording ε α :=
  Async.on Recording.link (fun link recording => { recording with link }) x

def countFrame : Async Recording ε Unit := fun recording =>
  (.ok (), { recording with frames := recording.frames + 1 })

def ackParams (msg : Value) : Value := .obj [("sessionId", .int (frameSeq msg))]

/-- The loop of `drain_frames`, up to its cancellation. -/
def drainFrames : Nat → Async Recording ε Unit
  | 0 => Async.wait
  | rounds + 1 => do
    let received ← Async.attempt (onLink Link.recv)
    match received with
    | .error _ => return ()
    | .ok msg =>
      if isScreencastFrame msg then do
        countFrame
        match frameSessionId msg with
        | some sid => do
          let _ ← Async.attempt (onLink
            (Link.callOn (some sid) "Page.screencastFrameAck" (ackParams msg)))
          drainFrames rounds
        | none => drainFrames rounds
      else drainFrames rounds

/-- What `spawn_recording_session` does on the pipe of its session. -/
def session (workload : String) : Async Recording RecordError Unit := do
  onLink (Link.setupRecording workload)
  onLink Link.newClient
  fun recording => drainFrames (recording.link.inbound.length + 1) recording

/-- A session by the time that the browser has sent so much. -/
def after (workload : String) (sent : Except PipeError Unit) (deliveries : List Delivery) :
    Recording := (session workload ⟨⟨.new, sent, [], deliveries⟩, 0⟩).2

def isAck (command : Value) : Bool :=
  (command.get "method").bind Value.asStr = some "Page.screencastFrameAck"

def acks (recording : Recording) : List Value := recording.link.written.filter isAck

end Recording

/-- The count of the sessions whose counters have gone up, from those before and after the probe. -/
def countRecording (before now : List Nat) : Nat :=
  Nat.min ((now.zip before).filter fun counts => counts.2 < counts.1).length (2 ^ 32 - 1)

end BrowserServe
