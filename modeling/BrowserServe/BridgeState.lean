import Mathlib.Data.List.Basic

namespace BrowserServe
set_option autoImplicit true

def CLOSE_NORMAL : Nat := 1000
def CLOSE_BROWSER_GONE : Nat := 1011
def CLOSE_IDLE_TIMEOUT : Nat := 1013

structure CloseFrame where
  code : Nat
  reason : String
  deriving DecidableEq

inductive Message where
  | text (bytes : List UInt8)
  | binary (bytes : List UInt8)
  | ping (bytes : List UInt8)
  | pong (bytes : List UInt8)
  | close (frame : Option CloseFrame)
  deriving DecidableEq

/-- What the client pump writes to the browser for a message. -/
def Message.payload : Message → Option (List UInt8)
  | .text bytes | .binary bytes => some bytes
  | _ => none

/-- How a bridged session ended; all but the last hand the browser's pipe back. -/
inductive BridgeEnd where
  | clientGone
  | clientFinished
  | idleTimeout
  | browserGone
  deriving DecidableEq

/-- Whether `bridge_reclaimable` returns the pipe. -/
def BridgeEnd.reclaims : BridgeEnd → Bool
  | .clientGone | .clientFinished | .idleTimeout => true
  | .browserGone => false

inductive PumpExit where
  | clientClosed
  | clientFinished
  | idleTimeout (dur : Nat)
  deriving DecidableEq

def closeExit : Option CloseFrame → PumpExit
  | none => .clientFinished
  | some frame => if frame.code = CLOSE_NORMAL then .clientFinished else .clientClosed

/-- What `bridge_session` makes of the client pump's exit. -/
def PumpExit.ended : PumpExit → BridgeEnd
  | .idleTimeout _ => .idleTimeout
  | .clientFinished => .clientFinished
  | .clientClosed => .clientGone

/-- Where `pump_client_to_browser` stands: at `ws.next()` since a time, inside the first
`write_all` of `send_raw` with some bytes written and some not, before the second one, or
out with the idle timeout while its close frame is being sent. -/
inductive ClientPump where
  | next (since : Nat)
  | writing (done rest : List UInt8)
  | terminating (done : List UInt8)
  | idled (dur : Nat)
  deriving DecidableEq

/-- Where `pump_browser_to_client` stands. -/
inductive BrowserPump where
  | recv
  | sending (message : Message)
  | closing
  deriving DecidableEq

/-- A frame of the browser as the message its client gets. -/
def clientMessage (frame : List UInt8) : Message :=
  if (String.fromUTF8? ⟨frame.toArray⟩).isSome then .text frame else .binary frame

/-- One run of `bridge_session`: what arrived from each side and is unread (`none` is the end
of the client's stream or an error on it), what was handed to each side, and the messages
written to the browser as a whole. -/
structure Bridge where
  idleTimeout : Option Nat
  now : Nat
  inbox : List (Option Message)
  frames : List (List UInt8)
  written : List UInt8
  outbox : List Message
  sent : List (List UInt8)
  clientPump : ClientPump
  browserPump : BrowserPump
  ended : Option BridgeEnd

/-- A bridge over a pipe to which some bytes were written before. -/
def Bridge.new (idleTimeout : Option Nat) (now : Nat) (written : List UInt8) : Bridge where
  idleTimeout
  now
  inbox := []
  frames := []
  written
  outbox := []
  sent := []
  clientPump := .next now
  browserPump := .recv
  ended := none

/-- Both pumps are being polled. -/
def Bridge.Running (s : Bridge) : Prop :=
  s.ended = none ∧ ∀ dur, s.clientPump ≠ .idled dur

end BrowserServe
