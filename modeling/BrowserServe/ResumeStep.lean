import BrowserServe.ResumeState
import BrowserServe.Library.Transition

namespace BrowserServe
open Library
set_option autoImplicit true

inductive ServeEvent where
  | poll
  | bridgeEnd (how : BridgeEnd)
  | cancel
  | park
  | arm
  | recv
  | deadline
  | frame (isErr : Bool)
  | unpark
  | cleaned
  | drop
  deriving DecidableEq

/-- One atomic section of `serve`, for the session with the given token and browser. -/
inductive ServeStep (upgrades : List Upgrade) (token : String) (browser : Nat) :
    ResumeHub → ServePhase → ServeEvent → ResumeHub → ServePhase → Prop
  | poll :
      ServeStep upgrades token browser h (.selecting socket) .poll
        { h with bridged := (browser, socket) :: h.bridged } (.bridging socket)
  | cancelSelect (hc : h.cancelled = true) :
      ServeStep upgrades token browser h (.selecting socket) .cancel
        { h with dropped := socket :: h.dropped } .returned
  | clientGone :
      ServeStep upgrades token browser h (.bridging socket) (.bridgeEnd .clientGone) h .broken
  | ended (he : how ≠ .clientGone) :
      ServeStep upgrades token browser h (.bridging socket) (.bridgeEnd how) h .returned
  | cancelBridge (hc : h.cancelled = true) :
      ServeStep upgrades token browser h (.bridging socket) .cancel h .returned
  | park :
      ServeStep upgrades token browser h .broken .park
        { h with
          channels := h.channels ++ [⟨token, none, true⟩]
          registry := h.registry.park token h.channels.length }
        (.arming h.channels.length h.now)
  | arm :
      ServeStep upgrades token browser h (.arming chan since) .arm h
        (.waiting chan since (h.now + h.registry.window))
  | recv (hch : h.channels[chan]? = some channel) (hb : channel.buffered = some socket) :
      ServeStep upgrades token browser h (.waiting chan since deadline) .recv
        { h with channels := h.channels.set chan { channel with buffered := none } }
        (.unparking chan since (.resumed socket))
  | recvNone (hch : h.channels[chan]? = some channel) (hb : channel.buffered = none)
      (hs : ¬ h.hasSender upgrades chan) :
      ServeStep upgrades token browser h (.waiting chan since deadline) .recv
        { h with expiries := ⟨token, since, h.now⟩ :: h.expiries } (.unparking chan since .expired)
  | deadline (hd : deadline ≤ h.now) :
      ServeStep upgrades token browser h (.waiting chan since deadline) .deadline
        { h with expiries := ⟨token, since, h.now⟩ :: h.expiries } (.unparking chan since .expired)
  | cancelWait (hc : h.cancelled = true) :
      ServeStep upgrades token browser h (.waiting chan since deadline) .cancel h
        (.unparking chan since .gone)
  | frame :
      ServeStep upgrades token browser h (.waiting chan since deadline) (.frame false) h
        (.waiting chan since deadline)
  | frameErr :
      ServeStep upgrades token browser h (.waiting chan since deadline) (.frame true) h
        (.unparking chan since .gone)
  | unpark :
      ServeStep upgrades token browser h (.unparking chan since waited) .unpark
        { h with registry := h.registry.unpark token } (waited.next chan)
  | cleaned (hch : h.channels[chan]? = some channel) :
      ServeStep upgrades token browser h (.cleaning chan socket) .cleaned
        (h.dropReceiver chan channel) (.selecting socket)
  | drop (hch : h.channels[chan]? = some channel) :
      ServeStep upgrades token browser h (.returning chan) .drop
        (h.dropReceiver chan channel) .returned

inductive UpgradeEvent where
  | upgraded (socket : Socket)
  | abandoned
  | send
  | close
  deriving DecidableEq

/-- One atomic section of the upgrade callback of `resume_session`. -/
inductive UpgradeStep : ResumeHub → Upgrade → UpgradeEvent → ResumeHub → Upgrade → Prop
  | upgraded (hp : socket.presented = some token)
      (hf : socket ∉ h.first) (hu : socket ∉ h.upgraded) :
      UpgradeStep h (.upgrading token handoff) (.upgraded socket)
        { h with upgraded := socket :: h.upgraded } (.sending handoff socket)
  | abandoned : UpgradeStep h (.upgrading token handoff) .abandoned h .over
  | sendOk (hch : h.channels[handoff]? = some channel) (hr : channel.receiver = true)
      (hb : channel.buffered = none) :
      UpgradeStep h (.sending handoff socket) .send
        { h with
          channels := h.channels.set handoff { channel with buffered := some socket }
          accepted := socket :: h.accepted } .over
  | sendErr (hch : h.channels[handoff]? = some channel) (hr : channel.receiver = false) :
      UpgradeStep h (.sending handoff socket) .send { h with refused := socket :: h.refused }
        (.refusing socket)
  | close :
      UpgradeStep h (.refusing socket) .close
        { h with closed := (CLOSE_RESUME_EXPIRED, socket) :: h.closed } .over

inductive ResumeAction where
  | tick
  | shutdown
  | start (token : String) (browser : Nat) (socket : Socket)
  | serve (session : Nat) (event : ServeEvent)
  | claim (token : String)
  | upgrade (request : Nat) (event : UpgradeEvent)
  deriving DecidableEq

/-- One step of the server. A new session has a token, a browser and a socket of its own. -/
inductive Resume.Step : Resume → ResumeAction → Resume → Prop
  | tick : Resume.Step s .tick { s with hub := { s.hub with now := s.hub.now + 1 } }
  | shutdown : Resume.Step s .shutdown { s with hub := { s.hub with cancelled := true } }
  | start (ht : token ∉ s.sessions.map ServeTask.token)
      (hb : browser ∉ s.sessions.map ServeTask.browser)
      (hp : socket.presented = none) (hf : socket ∉ s.hub.first) :
      Resume.Step s (.start token browser socket)
        { s with
          hub := { s.hub with first := socket :: s.hub.first }
          sessions := s.sessions ++ [⟨token, browser, .selecting socket⟩] }
  | serve (ht : s.sessions[i]? = some task)
      (h : ServeStep s.upgrades task.token task.browser s.hub task.phase e hub' phase') :
      Resume.Step s (.serve i e)
        { s with hub := hub', sessions := s.sessions.set i { task with phase := phase' } }
  | claim (h : s.hub.registry.claim token = (some handoff, registry)) :
      Resume.Step s (.claim token)
        { s with
          hub := { s.hub with registry, claims := handoff :: s.hub.claims }
          upgrades := s.upgrades ++ [.upgrading token handoff] }
  | unknown (h : s.hub.registry.claim token = (none, registry)) :
      Resume.Step s (.claim token) { s with hub := { s.hub with registry } }
  | upgrade (hu : s.upgrades[j]? = some u) (h : UpgradeStep s.hub u e hub' u') :
      Resume.Step s (.upgrade j e) { s with hub := hub', upgrades := s.upgrades.set j u' }

def Resume.system (window : Nat) : System Resume ResumeAction where
  init s := s = .new window
  step := Resume.Step

/-- The first session of a server, waiting for its client to come back. -/
def Resume.parkedOnce (window : Nat) (token : String) (browser : Nat) (socket : Socket) :
    Resume where
  hub := { (Resume.new window).hub with
    registry := (ResumeRegistry.new window).park token 0
    channels := [⟨token, none, true⟩]
    first := [socket]
    bridged := [(browser, socket)] }
  sessions := [⟨token, browser, .waiting 0 0 (0 + window)⟩]
  upgrades := []

/-- A client whose connection breaks leaves its session parked. -/
theorem Resume.parks (window : Nat) (token : String) (browser : Nat) (socket : Socket)
    (hp : socket.presented = none) :
    (Resume.system window).Run (.new window)
      [.start token browser socket, .serve 0 .poll, .serve 0 (.bridgeEnd .clientGone),
        .serve 0 .park, .serve 0 .arm] (.parkedOnce window token browser socket) :=
  .cons (.start (by simp [new]) (by simp [new]) hp (by simp [new])) <|
    .cons (.serve rfl .poll) <| .cons (.serve rfl .clientGone) <|
    .cons (.serve rfl .park) <|
    .single (@Resume.Step.serve 0 ⟨token, browser, .arming 0 0⟩ _ _
      (.waiting 0 0 (0 + window)) _ rfl .arm)

theorem ResumeRegistry.claim_park (r : ResumeRegistry) (token : String) (chan : Nat) :
    (r.park token chan).claim token = (some chan, (r.park token chan).unpark token) :=
  Prod.ext (AList.lookup_insert _) rfl

/-- The first session of a server, bridged to the client that came back. -/
def Resume.resumedOnce (window : Nat) (token : String) (browser : Nat) (socket next : Socket) :
    Resume where
  hub := { (Resume.new window).hub with
    registry := (((ResumeRegistry.new window).park token 0).unpark token).unpark token
    channels := [⟨token, none, false⟩]
    first := [socket]
    upgraded := [next]
    accepted := [next]
    bridged := [(browser, next), (browser, socket)]
    claims := [0] }
  sessions := [⟨token, browser, .bridging next⟩]
  upgrades := [.over]

/-- A client that comes back in time is bridged to its browser. -/
theorem Resume.resumes (window : Nat) (token : String) (browser : Nat) (socket next : Socket)
    (hn : next.presented = some token) (hne : next ≠ socket) :
    (Resume.system window).Run (.parkedOnce window token browser socket)
      [.claim token, .upgrade 0 (.upgraded next), .upgrade 0 .send, .serve 0 .recv,
        .serve 0 .unpark, .serve 0 .cleaned, .serve 0 .poll]
      (.resumedOnce window token browser socket next) :=
  .cons (.claim (ResumeRegistry.claim_park _ _ _)) <|
    .cons (.upgrade rfl (.upgraded hn (by simpa [parkedOnce] using hne) List.not_mem_nil)) <|
    .cons (.upgrade rfl (.sendOk rfl rfl rfl)) <| .cons (.serve rfl (.recv rfl rfl)) <|
    .cons (.serve rfl .unpark) <| .cons (.serve rfl (.cleaned rfl)) <|
    .single (@Resume.Step.serve 0 ⟨token, browser, .selecting next⟩ _ _ (.bridging next) _ rfl
      .poll)

end BrowserServe
