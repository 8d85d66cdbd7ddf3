import BrowserServe.BridgeState
import BrowserServe.CdpClient
import BrowserServe.Library.Transition

namespace BrowserServe
open Library
set_option autoImplicit true

/-- Who wrote a command to the browser's pipe; clients are numbered in their order. -/
inductive Origin where
  | probe
  | internal
  | client (number : Nat)
  deriving DecidableEq

structure Command where
  envelope : Value
  origin : Origin

/-- A message of the browser and the command it answers; an event answers none. -/
structure Frame where
  body : Value
  answers : Option Nat

/-- A call that waits for its reply: its command's place on the pipe, its id and method. -/
structure Call where
  serial : Nat
  id : Nat
  method : String
  deriving DecidableEq

/-- What has the session's pipe: the launch probe, nobody, `seed_profile`, a bridge, the
wait of a parked session, `clean_slate`, or the capture at the end of `profile_session`. -/
inductive PipePhase where
  | probing (call : Call)
  | ready
  | seeding (client : CdpClient) (awaiting : Option Call)
  | bridged
  | clientGone
  | parked
  | cleaning (client : CdpClient) (awaiting : Option Call) (rest : List (String × Value))
  | served
  | capturing (client : CdpClient) (call : Call)
  | closing (client : CdpClient)
  | draining
  | over

@[simp] def PipePhase.awaiting : PipePhase → Option Call
  | .probing call | .capturing _ call => some call
  | .seeding _ awaiting | .cleaning _ awaiting _ => awaiting
  | _ => none

/-- What follows a call that returned. The probe takes any reply, `seed_profile` gives up on
an error, `clean_slate` and the capture go on. -/
def PipePhase.after (reply : Except CdpError Value) : PipePhase → PipePhase
  | .probing _ => match reply with
    | .error (.pipe _) => .over
    | _ => .ready
  | .seeding client _ => match reply with
    | .ok _ => .seeding client none
    | .error _ => .over
  | .cleaning client (some call) rest =>
    .cleaning client none (cleanSlateNext call.method reply rest)
  | .capturing client _ => .closing client
  | phase => phase

/-- One session's pipe, with what the browser has yet to answer and the server yet to read,
the replies its calls returned and the frames each client got. -/
structure PipeLife where
  commands : List Command
  unanswered : List Nat
  frames : List Frame
  exited : Bool
  clients : Nat
  phase : PipePhase
  returned : List (Call × Frame)
  delivered : List (Nat × Frame)

def READY_PROBE_ID : Nat := 1

def PipeLife.new : PipeLife where
  commands :=
    [⟨.obj [("id", .int READY_PROBE_ID), ("method", .str "Browser.getVersion")], .probe⟩]
  unanswered := [0]
  frames := []
  exited := false
  clients := 0
  phase := .probing ⟨0, READY_PROBE_ID, "Browser.getVersion"⟩
  returned := []
  delivered := []

/-- The pipe after one more command was written to it. -/
def PipeLife.send (s : PipeLife) (envelope : Value) (origin : Origin) (phase : PipePhase) :
    PipeLife :=
  { s with
    commands := s.commands ++ [⟨envelope, origin⟩]
    unanswered := s.commands.length :: s.unanswered
    phase }

def CdpClient.next (client : CdpClient) : CdpClient := ⟨client.nextId + 1⟩

/-- The call the next command of a client starts, at the given place on the pipe. -/
def CdpClient.started (client : CdpClient) (serial : Nat) (method : String) : Call :=
  ⟨serial, client.nextId, method⟩

inductive PipeAction where
  | answer (command : Nat) (body : Value)
  | event (body : Value)
  | exit
  | skip
  | reply
  | fail
  | seed
  | seedSend (method : String) (params : Value) (sessionId : Option String)
  | seedCall (method : String) (params : Value) (sessionId : Option String)
  | seedRecv
  | bridge
  | clientSend (envelope : Value)
  | deliver
  | sendFailed
  | bridgeEnd (how : BridgeEnd)
  | park
  | reclaim
  | discard
  | resume
  | expire
  | cleanCall
  | cleanSkip
  | cleaned
  | capture
  | captureFailed
  | close
  | drain
  | over

/-- One step of the browser, of whoever has its pipe, or of the bridged client. -/
inductive PipeLife.Step : PipeLife → PipeAction → PipeLife → Prop
  | answer (hn : n ∈ s.unanswered) (hc : s.commands[n]? = some command)
      (hid : body.get "id" = command.envelope.get "id") :
      PipeLife.Step s (.answer n body)
        { s with unanswered := s.unanswered.erase n, frames := s.frames ++ [⟨body, some n⟩] }
  | event (hx : s.exited = false) (hid : body.get "id" = none) :
      PipeLife.Step s (.event body) { s with frames := s.frames ++ [⟨body, none⟩] }
  | exit : PipeLife.Step s .exit { s with exited := true, unanswered := [] }
  | skip (ha : s.phase.awaiting = some call) (hf : s.frames = frame :: rest)
      (hid : messageId frame.body ≠ some call.id) :
      PipeLife.Step s .skip { s with frames := rest }
  | reply (ha : s.phase.awaiting = some call) (hf : s.frames = frame :: rest)
      (hid : messageId frame.body = some call.id) :
      PipeLife.Step s .reply
        { s with
          frames := rest
          phase := s.phase.after (CdpClient.outcome call.method frame.body)
          returned := (call, frame) :: s.returned }
  | fail (ha : s.phase.awaiting = some call) :
      PipeLife.Step s .fail { s with phase := s.phase.after (.error (.pipe error)) }
  | seed (hp : s.phase = .ready) :
      PipeLife.Step s .seed { s with phase := .seeding .new none }
  | seedSend (hp : s.phase = .seeding client none) (hx : s.exited = false) :
      PipeLife.Step s (.seedSend method params sessionId)
        (s.send (CdpClient.envelope client.nextId method params sessionId) .internal
          (.seeding client.next none))
  | seedCall (hp : s.phase = .seeding client none) (hx : s.exited = false) :
      PipeLife.Step s (.seedCall method params sessionId)
        (s.send (CdpClient.envelope client.nextId method params sessionId) .internal
          (.seeding client.next (some (client.started s.commands.length method))))
  | seedRecv (hp : s.phase = .seeding client none) (hf : s.frames = frame :: rest) :
      PipeLife.Step s .seedRecv { s with frames := rest }
  | bridge (hp : s.phase = .ready ∨ ∃ client, s.phase = .seeding client none) :
      PipeLife.Step s .bridge { s with phase := .bridged, clients := 1 }
  | clientSend (hp : s.phase = .bridged) (hx : s.exited = false) :
      PipeLife.Step s (.clientSend envelope)
        (s.send envelope (.client s.clients) .bridged)
  | deliver (hp : s.phase = .bridged) (hf : s.frames = frame :: rest) :
      PipeLife.Step s .deliver
        { s with frames := rest, delivered := (s.clients, frame) :: s.delivered }
  | sendFailed (hp : s.phase = .bridged) (hf : s.frames = frame :: rest) :
      PipeLife.Step s .sendFailed { s with frames := rest, phase := .clientGone }
  | clientGone (hp : s.phase = .bridged) :
      PipeLife.Step s (.bridgeEnd .clientGone) { s with phase := .clientGone }
  | clientFinished (hp : s.phase = .bridged) :
      PipeLife.Step s (.bridgeEnd .clientFinished) { s with phase := .served }
  | idleTimeout (hp : s.phase = .bridged) :
      PipeLife.Step s (.bridgeEnd .idleTimeout) { s with phase := .served }
  | browserGone (hp : s.phase = .bridged) :
      PipeLife.Step s (.bridgeEnd .browserGone) { s with phase := .over }
  | park (hp : s.phase = .clientGone) : PipeLife.Step s .park { s with phase := .parked }
  | reclaim (hp : s.phase = .clientGone) : PipeLife.Step s .reclaim { s with phase := .served }
  | discard (hp : s.phase = .parked) (hf : s.frames = frame :: rest) :
      PipeLife.Step s .discard { s with frames := rest }
  | expire (hp : s.phase = .parked) : PipeLife.Step s .expire { s with phase := .served }
  | resume (hp : s.phase = .parked) :
      PipeLife.Step s .resume
        { s with phase := .cleaning (.withFirstId CLEANUP_FIRST_ID) none cleanSlate }
  | cleanCall (hp : s.phase = .cleaning client none ((method, params) :: rest))
      (hx : s.exited = false) :
      PipeLife.Step s .cleanCall
        (s.send (CdpClient.envelope client.nextId method params none) .internal
          (.cleaning client.next (some (client.started s.commands.length method)) rest))
  | cleanSkip (hp : s.phase = .cleaning client none (call :: rest)) :
      PipeLife.Step s .cleanSkip { s with phase := .cleaning client.next none rest }
  | cleaned (hp : s.phase = .cleaning client none []) :
      PipeLife.Step s .cleaned { s with phase := .bridged, clients := s.clients + 1 }
  | capture (hp : s.phase = .served) (hx : s.exited = false) :
      PipeLife.Step s .capture
        (s.send (CdpClient.envelope CdpClient.new.nextId "Storage.getCookies" (.obj []) none)
          .internal (.capturing CdpClient.new.next
            (CdpClient.new.started s.commands.length "Storage.getCookies")))
  | captureFailed (hp : s.phase = .served) :
      PipeLife.Step s .captureFailed { s with phase := .closing CdpClient.new.next }
  | close (hp : s.phase = .closing client) (hx : s.exited = false) :
      PipeLife.Step s .close
        (s.send (CdpClient.envelope client.nextId "Browser.close" (.obj []) none) .internal
          .draining)
  | drain (hp : s.phase = .draining) (hf : s.frames = frame :: rest) :
      PipeLife.Step s .drain { s with frames := rest }
  | over : PipeLife.Step s .over { s with phase := .over }

def PipeLife.system : System PipeLife PipeAction where
  init s := s = .new
  step := PipeLife.Step

end BrowserServe
