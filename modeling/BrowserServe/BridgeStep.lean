import BrowserServe.BridgeState
import BrowserServe.Library.Transition

namespace BrowserServe
open Library
set_option autoImplicit true

inductive BridgeAction where
  | tick
  | arrive (item : Option Message)
  | emit (frame : List UInt8)
  | next
  | write (count : Nat)
  | terminate
  | writeErr
  | idle
  | idleClosed
  | recv
  | recvErr
  | delivered
  | sendErr
  | closed
  deriving DecidableEq

/-- One step: something arrives, or one pump gets to its next await. A pump that returns ends
the `select!`, so the other one stays where it was dropped. -/
inductive Bridge.Step : Bridge → BridgeAction → Bridge → Prop
  | tick : Bridge.Step s .tick { s with now := s.now + 1 }
  | arrive : Bridge.Step s (.arrive item) { s with inbox := s.inbox ++ [item] }
  | emit : Bridge.Step s (.emit frame) { s with frames := s.frames ++ [frame] }
  | message (hr : s.Running) (hp : s.clientPump = .next since)
      (hi : s.inbox = some message :: rest) (hm : message.payload = some bytes) :
      Bridge.Step s .next { s with inbox := rest, clientPump := .writing [] bytes }
  | control (hr : s.Running) (hp : s.clientPump = .next since)
      (hi : s.inbox = some message :: rest)
      (hm : message = .ping bytes ∨ message = .pong bytes) :
      Bridge.Step s .next { s with inbox := rest, clientPump := .next s.now }
  | close (hr : s.Running) (hp : s.clientPump = .next since)
      (hi : s.inbox = some (.close frame) :: rest) :
      Bridge.Step s .next { s with inbox := rest, ended := some (closeExit frame).ended }
  | broken (hr : s.Running) (hp : s.clientPump = .next since) (hi : s.inbox = none :: rest) :
      Bridge.Step s .next { s with inbox := rest, ended := some PumpExit.clientClosed.ended }
  | write {done rest : List UInt8} {count : Nat} (hr : s.Running)
      (hp : s.clientPump = .writing done rest) (hpos : 0 < count) (hle : count ≤ rest.length) :
      Bridge.Step s (.write count)
        { s with
          written := s.written ++ rest.take count
          clientPump := .writing (done ++ rest.take count) (rest.drop count) }
  | writeAll (hr : s.Running) (hp : s.clientPump = .writing done []) :
      Bridge.Step s (.write 0) { s with clientPump := .terminating done }
  | terminate (hr : s.Running) (hp : s.clientPump = .terminating done) :
      Bridge.Step s .terminate
        { s with
          written := s.written ++ [0]
          sent := s.sent ++ [done]
          clientPump := .next s.now }
  | writeErr (hr : s.Running)
      (hp : (∃ done rest, s.clientPump = .writing done rest) ∨
        ∃ done, s.clientPump = .terminating done) :
      Bridge.Step s .writeErr { s with ended := some PumpExit.clientClosed.ended }
  | idle (hr : s.Running) (hp : s.clientPump = .next since) (hi : s.inbox = [])
      (hd : s.idleTimeout = some dur) (ht : since + dur ≤ s.now) :
      Bridge.Step s .idle { s with clientPump := .idled dur }
  | idleClosed (hp : s.clientPump = .idled dur) (he : s.ended = none) :
      Bridge.Step s .idleClosed
        { s with
          outbox := s.outbox ++
            [.close (some ⟨CLOSE_IDLE_TIMEOUT, "idle-timeout after " ++ toString dur ++ "ms"⟩)]
          ended := some (PumpExit.idleTimeout dur).ended }
  | recv (hr : s.Running) (hp : s.browserPump = .recv) (hf : s.frames = frame :: rest) :
      Bridge.Step s .recv { s with frames := rest, browserPump := .sending (clientMessage frame) }
  | recvErr (hr : s.Running) (hp : s.browserPump = .recv) :
      Bridge.Step s .recvErr { s with browserPump := .closing }
  | delivered (hr : s.Running) (hp : s.browserPump = .sending message) :
      Bridge.Step s .delivered
        { s with outbox := s.outbox ++ [message], browserPump := .recv }
  | sendErr (hr : s.Running) (hp : s.browserPump = .sending message) :
      Bridge.Step s .sendErr { s with ended := some .clientGone }
  | closed (hr : s.Running) (hp : s.browserPump = .closing) :
      Bridge.Step s .closed
        { s with
          outbox := s.outbox ++ [.close (some ⟨CLOSE_BROWSER_GONE, "browser closed"⟩)]
          ended := some .browserGone }

def Bridge.system (start : Bridge) : System Bridge BridgeAction where
  init s := s = start
  step := Bridge.Step

end BrowserServe
