import Mathlib.Data.List.AList
import BrowserServe.BridgeState
import BrowserServe.Library.Tasks

namespace BrowserServe
open Library
set_option autoImplicit true

/-- A client's WebSocket and the resume token its request presented. -/
structure Socket where
  id : Nat
  presented : Option String
  deriving DecidableEq

/-- The `mpsc::channel(1)` one park makes, with the token it is parked under. -/
structure Channel where
  token : String
  buffered : Option Socket
  receiver : Bool
  deriving DecidableEq

structure ResumeRegistry where
  window : Nat
  parked : AList fun _ : String => Nat

def ResumeRegistry.new (window : Nat) : ResumeRegistry := ⟨window, ∅⟩

def ResumeRegistry.claim (r : ResumeRegistry) (token : String) : Option Nat × ResumeRegistry :=
  (r.parked.lookup token, { r with parked := r.parked.erase token })

def ResumeRegistry.park (r : ResumeRegistry) (token : String) (handoff : Nat) : ResumeRegistry :=
  { r with parked := r.parked.insert token handoff }

def ResumeRegistry.unpark (r : ResumeRegistry) (token : String) : ResumeRegistry :=
  { r with parked := r.parked.erase token }

/-- What the wait of a parked session came to. -/
inductive Parked where
  | resumed (socket : Socket)
  | expired
  | gone
  deriving DecidableEq

/-- Where one run of `serve` stands. `selecting` is the `select!` before `bridge_session` was
first polled; from `arming` to `unparking` the session is between `park` and `unpark`; the
receiver of its channel lives until `cleaning` or `returning` ends. -/
inductive ServePhase where
  | selecting (socket : Socket)
  | bridging (socket : Socket)
  | broken
  | arming (chan since : Nat)
  | waiting (chan since deadline : Nat)
  | unparking (chan since : Nat) (waited : Parked)
  | cleaning (chan : Nat) (socket : Socket)
  | returning (chan : Nat)
  | returned
  deriving DecidableEq

/-- The channel whose receiver the task holds. -/
@[simp] def ServePhase.chan : ServePhase → Option Nat
  | .arming chan _ | .waiting chan _ _ | .unparking chan _ _ | .cleaning chan _
  | .returning chan => some chan
  | _ => none

/-- The channel of a task that stands between `park` and `unpark`. -/
@[simp] def ServePhase.listing : ServePhase → Option Nat
  | .arming chan _ | .waiting chan _ _ | .unparking chan _ _ => some chan
  | _ => none

/-- The socket a task has but does not bridge yet. -/
@[simp] def ServePhase.pending : ServePhase → Option Socket
  | .selecting socket | .unparking _ _ (.resumed socket) | .cleaning _ socket => some socket
  | _ => none

/-- The match on what the wait came to, after `unpark`. -/
def Parked.next (chan : Nat) : Parked → ServePhase
  | .resumed socket => .cleaning chan socket
  | .expired | .gone => .returning chan

/-- One `serve` task, with its resume token and the browser at the end of its pipe. -/
structure ServeTask where
  token : String
  browser : Nat
  phase : ServePhase
  deriving DecidableEq

/-- A request that claimed a token: its upgrade callback owns the claimed sender. -/
inductive Upgrade where
  | upgrading (token : String) (handoff : Nat)
  | sending (handoff : Nat) (socket : Socket)
  | refusing (socket : Socket)
  | over
  deriving DecidableEq

@[simp] def Upgrade.handoff : Upgrade → Option Nat
  | .upgrading _ handoff | .sending handoff _ => some handoff
  | _ => none

@[simp] def Upgrade.unsent : Upgrade → Option Socket
  | .sending _ socket => some socket
  | _ => none

/-- A session that ended because nobody came: when it was parked and when it gave up. -/
structure Expiry where
  token : String
  since : Nat
  endedAt : Nat
  deriving DecidableEq

def CLOSE_RESUME_EXPIRED : Nat := 1011

/-- The registry, the channels and the clock, with the record of what happened to each
socket: `upgraded` to a WebSocket, `accepted` or `refused` by its channel, `closed` with a
code, `bridged` to a browser, or `dropped` without either. -/
structure ResumeHub where
  registry : ResumeRegistry
  channels : List Channel
  now : Nat
  cancelled : Bool
  first : List Socket
  upgraded : List Socket
  accepted : List Socket
  refused : List Socket
  closed : List (Nat × Socket)
  bridged : List (Nat × Socket)
  dropped : List Socket
  claims : List Nat
  expiries : List Expiry

/-- The server as far as resuming goes. -/
structure Resume where
  hub : ResumeHub
  sessions : List ServeTask
  upgrades : List Upgrade

def Resume.new (window : Nat) : Resume where
  hub := ⟨.new window, [], 0, false, [], [], [], [], [], [], [], [], []⟩
  sessions := []
  upgrades := []

/-- Whether a sender of the channel is left, in the registry or in an upgrade callback. -/
def ResumeHub.hasSender (h : ResumeHub) (upgrades : List Upgrade) (chan : Nat) : Prop :=
  chan ∈ h.registry.parked.entries.map Sigma.snd ∨ some chan ∈ upgrades.map Upgrade.handoff

instance : Decidable (ResumeHub.hasSender h upgrades chan) :=
  inferInstanceAs (Decidable (_ ∨ _))

/-- The end of `incoming`: its channel closes and what it still buffers is dropped. -/
def ResumeHub.dropReceiver (h : ResumeHub) (chan : Nat) (channel : Channel) : ResumeHub :=
  { h with
    channels := h.channels.set chan { channel with buffered := none, receiver := false }
    dropped := channel.buffered.toList ++ h.dropped }

end BrowserServe
