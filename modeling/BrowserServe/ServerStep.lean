import BrowserServe.ServerState

namespace BrowserServe
open Library
set_option autoImplicit true

/-- The browser a request was given: the handler it was launched for, and the one through
whose relay. -/
structure Browser where
  session : Nat
  relay : Option Nat
  deriving DecidableEq

/-- What a handler has its browser from: a claim of the pool, or its request to the profile
store. -/
inductive Held where
  | pool (claim : Nat)
  | profile (request : Nat)
  deriving DecidableEq

/-- Where a request stands in `ws_handler`, in its upgrade callback or in its session task.
From `relayStarting` on, `spentGuard` says whether it holds the `SpentGuard`; `relay` says whether
it has started a relay. -/
inductive HandlerPhase where
  | start
  | resuming (token : String)
  | admitted (proxy : Option RequestedProxy)
  | relayStarting (proxy : RequestedProxy) (spentGuard : Bool)
  | routing (relay spentGuard : Bool)
  | claiming (claim : Nat) (relay spentGuard : Bool)
  | profiling (request : Nat) (relay spentGuard : Bool)
  | creating (request : Nat) (relay spentGuard : Bool)
  | upgrading (held : Held) (resumable : Option String) (spentGuard : Bool)
  | seeding (request : Nat) (socket : Socket) (resumable : Option String) (spentGuard : Bool)
  | serving (held : Held) (task : Option Nat) (spentGuard : Bool)
  | capturing (request : Nat) (run : SessionRun) (spentGuard : Bool)
  | destroying (held : Held) (spentGuard : Bool)
  | over

structure Handler where
  request : WsRequest
  phase : HandlerPhase

/-- Where `spawn_calibration` stands. -/
inductive Calibration where
  | measuring
  | swapped
  | adjusted
  | finished
  deriving DecidableEq

/-- The server without its requests. `relayed` is the pool's browsers launched through a
relay, with the handlers that started it; `takers`, `given` and `sent` record which handlers
took the single use, were given a browser and answered. -/
structure ServerHub where
  state : AppState
  calibration : Calibration
  signalled : Bool
  stopped : Bool
  relayed : List (Session × Nat)
  takers : List Nat
  given : List (Nat × Browser)
  sent : List (Nat × Response)

structure Server where
  hub : ServerHub
  handlers : List Handler

def Server.new (config : RuntimeConfig) : Server where
  hub := {
    state := .new config
    calibration := if config.willCalibrate then .measuring else .finished
    signalled := false
    stopped := false
    relayed := []
    takers := []
    given := []
    sent := [] }
  handlers := []

namespace ServerHub

def withPool (h : ServerHub) (pool : Pool) : ServerHub := { h with state := { h.state with pool } }

def withProfiles (h : ServerHub) (profiles : ProfileServer) : ServerHub :=
  { h with state := { h.state with profiles } }

def withResume (h : ServerHub) (resume : Resume) : ServerHub :=
  { h with state := { h.state with resume := some resume } }

def respond (h : ServerHub) (i : Nat) (response : Response) : ServerHub :=
  { h with sent := (i, response) :: h.sent }

def give (h : ServerHub) (i : Nat) (browser : Option Browser) : ServerHub :=
  { h with given := (browser.map (i, ·)).toList ++ h.given }

/-- The end of an `Option<SpentGuard>`. -/
def dropGuard (h : ServerHub) (spentGuard : Bool) : ServerHub :=
  if spentGuard then
    { h with state := { h.state with
        singleUse := h.state.singleUse.map fun single => { single with finished := true } } }
  else h

/-- A resume token for a new session, given what `new_token` would return. -/
def resumableSession (h : ServerHub) (minted : Option String) : Option String :=
  if h.state.resume.isSome then minted else none

/-- The browser of the session a resume token belongs to. -/
def behind (h : ServerHub) (r : Resume) (token : String) : Option Browser :=
  ((r.sessions.find? fun task => task.token = token).map ServeTask.browser).bind fun k =>
    h.given.lookup k

/-- The session's `resume::serve`, if it has one, has returned. -/
def Served (h : ServerHub) : Option Nat → Prop
  | none => True
  | some k => ∃ r task, h.state.resume = some r ∧ r.sessions[k]? = some task ∧
      task.phase = .returned

end ServerHub

/-- What comes after `take_single_use`. -/
def HandlerPhase.spent (proxy : Option RequestedProxy) (spentGuard : Bool) : HandlerPhase :=
  match proxy with
  | some proxy => .relayStarting proxy spentGuard
  | none => .routing false spentGuard

/-- The answer to a session's upgrade. -/
def sessionResponse (resumable : Option String) (proxied : Bool) : Response :=
  withProxyApplied (withResumeHeader switchingProtocols resumable) proxied

/-- What a claim does by itself while its future is polled. -/
def ClaimEvent.progresses : ClaimEvent → Bool
  | .run | .launchOk | .launchErr _ => true
  | _ => false

def claimKind (relay : Bool) : ClaimKind := if relay then .claimWith else .claim

inductive HandlerEvent where
  | dropped
  | check
  | resume
  | spend
  | relay (result : Except ProxyError Unit)
  | route
  | claim (e : ClaimEvent)
  | claimed (pipe : Bool) (minted : Option String)
  | claimFailed
  | claimProfile
  | created (result : Except String Unit) (minted : Option String)
  | upgraded (socket : Socket)
  | upgradeFailed
  | notLoaded (run : SessionRun)
  | loaded
  | served
  | servedProfile (run : SessionRun)
  | captured
  | destroyed

/-- One atomic section of request `i`: `ws_handler` with `serve_profile_session` and
`resume_session`, then the upgrade callback and the session task. -/
inductive HandlerStep (options : PoolOptions) (i : Nat) (request : WsRequest) :
    ServerHub → HandlerPhase → HandlerEvent → ServerHub → HandlerPhase → Prop
  | unpolled : HandlerStep options i request h .start .dropped h .over
  | refused (ha : admission h.state request = .refused response) :
      HandlerStep options i request h .start .check (h.respond i response) .over
  | resuming (ha : admission h.state request = .resume token) :
      HandlerStep options i request h .start .check h (.resuming token)
  | admitted (ha : admission h.state request = .session proxy) :
      HandlerStep options i request h .start .check h (.admitted proxy)
  | notResumable (hr : h.state.resume = none) :
      HandlerStep options i request h (.resuming token) .resume (h.respond i unknownResumeToken)
        .over
  | unknownToken (hr : h.state.resume = some r) (hn : (r.hub.registry.claim token).1 = none)
      (hs : Resume.Step r (.claim token) r') :
      HandlerStep options i request h (.resuming token) .resume
        ((h.withResume r').respond i unknownResumeToken) .over
  | resumed (hr : h.state.resume = some r)
      (hn : (r.hub.registry.claim token).1 = some handoff)
      (hs : Resume.Step r (.claim token) r') :
      HandlerStep options i request h (.resuming token) .resume
        (((h.withResume r').give i (h.behind r token)).respond i
          (withResumeHeader switchingProtocols (some token))) .over
  | unlimited (hs : h.state.singleUse = none) :
      HandlerStep options i request h (.admitted proxy) .spend h (.spent proxy false)
  | spent (hs : h.state.singleUse = some single) (ht : single.trySpend = (true, single')) :
      HandlerStep options i request h (.admitted proxy) .spend
        { h with
          state := { h.state with singleUse := some single' }
          takers := i :: h.takers } (.spent proxy true)
  | alreadySpent (hs : h.state.singleUse = some single)
      (ht : single.trySpend = (false, single')) :
      HandlerStep options i request h (.admitted proxy) .spend (h.respond i singleUseSpent) .over
  | relayStarted :
      HandlerStep options i request h (.relayStarting proxy spentGuard) (.relay (.ok ())) h
        (.routing true spentGuard)
  | relayFailed :
      HandlerStep options i request h (.relayStarting proxy spentGuard) (.relay (.error e))
        ((h.respond i (proxyStartRefused e)).dropGuard spentGuard) .over
  | relayDropped :
      HandlerStep options i request h (.relayStarting proxy spentGuard) .dropped
        (h.dropGuard spentGuard) .over
  | routeProfile (hq : request.query.lookup "profileToken" = some token)
      (hp : ProfileServer.Step h.state.profiles (.arrive token) profiles) :
      HandlerStep options i request h (.routing relay spentGuard) .route (h.withProfiles profiles)
        (.profiling h.state.profiles.requests.length relay spentGuard)
  | routePool (hq : request.query.lookup "profileToken" = none)
      (hp : Pool.Step options h.state.pool (.spawn (claimKind relay)) pool) :
      HandlerStep options i request h (.routing relay spentGuard) .route (h.withPool pool)
        (.claiming h.state.pool.claims.length relay spentGuard)
  | claim (he : e.progresses = true)
      (hp : Pool.Step options h.state.pool (.claim c e) pool) :
      HandlerStep options i request h (.claiming c relay spentGuard) (.claim e)
        { h.withPool pool with
          relayed := if relay ∧ e = .launchOk then (h.state.pool.inner.created, i) :: h.relayed
            else h.relayed } (.claiming c relay spentGuard)
  | claimFailed (hc : h.state.pool.claims[c]? = some ⟨kind, .failed e⟩) :
      HandlerStep options i request h (.claiming c relay spentGuard) .claimFailed
        ((h.respond i (reject (claimStatus e).1 (claimStatus e).2 e.toString)).dropGuard spentGuard)
        .over
  | claimDropped (he : e = .dropWaiter ∨ e = .dropLaunch)
      (hp : Pool.Step options h.state.pool (.claim c e) pool) :
      HandlerStep options i request h (.claiming c relay spentGuard) .dropped
        ((h.withPool pool).dropGuard spentGuard) .over
  | noTransport (hc : h.state.pool.claims[c]? = some ⟨kind, .claimed session⟩)
      (hp : Pool.Step options h.state.pool (.claim c .dropClaimed) pool) :
      HandlerStep options i request h (.claiming c relay spentGuard) (.claimed false minted)
        ((((h.withPool pool).give i (some ⟨i, h.relayed.lookup session⟩)).respond i
          (reject 500 "internal" "claimed browser had no transport")).dropGuard spentGuard) .over
  | claimed (hc : h.state.pool.claims[c]? = some ⟨kind, .claimed session⟩) :
      HandlerStep options i request h (.claiming c relay spentGuard) (.claimed true minted)
        ((h.give i (some ⟨i, h.relayed.lookup session⟩)).respond i
          (sessionResponse (h.resumableSession minted) relay))
        (.upgrading (.pool c) (h.resumableSession minted) spentGuard)
  | profileClaimed (hp : ProfileServer.Step h.state.profiles (.request r .claim) profiles)
      (hr : profiles.requests[r]?.map ProfileRequest.phase = some .launching) :
      HandlerStep options i request h (.profiling r relay spentGuard) .claimProfile
        (h.withProfiles profiles) (.creating r relay spentGuard)
  | profileUnknown (hp : ProfileServer.Step h.state.profiles (.request r .claim) profiles)
      (hr : profiles.requests[r]?.map ProfileRequest.phase = some .refused) :
      HandlerStep options i request h (.profiling r relay spentGuard) .claimProfile
        (((h.withProfiles profiles).respond i unknownProfileToken).dropGuard spentGuard) .over
  | created (hp : ProfileServer.Step h.state.profiles (.request r .launched) profiles) :
      HandlerStep options i request h (.creating r relay spentGuard) (.created (.ok ()) minted)
        (((h.withProfiles profiles).give i (some ⟨i, if relay then some i else none⟩)).respond i
          (sessionResponse (h.resumableSession minted) relay))
        (.upgrading (.profile r) (h.resumableSession minted) spentGuard)
  | createFailed (hp : ProfileServer.Step h.state.profiles (.request r .launchFailed) profiles) :
      HandlerStep options i request h (.creating r relay spentGuard) (.created (.error e) minted)
        (((h.withProfiles profiles).respond i (reject 503 "launch_failed" e)).dropGuard spentGuard)
        .over
  | createDropped (hp : ProfileServer.Step h.state.profiles (.request r .cancelled) profiles) :
      HandlerStep options i request h (.creating r relay spentGuard) .dropped
        ((h.withProfiles profiles).dropGuard spentGuard) .over
  | poolUpgraded :
      HandlerStep options i request h (.upgrading (.pool c) none spentGuard) (.upgraded socket) h
        (.serving (.pool c) none spentGuard)
  | poolUpgradedResumable (hr : h.state.resume = some r)
      (hs : Resume.Step r (.start token i socket) r') :
      HandlerStep options i request h (.upgrading (.pool c) (some token) spentGuard)
        (.upgraded socket) (h.withResume r')
        (.serving (.pool c) (some r.sessions.length) spentGuard)
  | profileUpgraded (hp : ProfileServer.Step h.state.profiles (.request r .upgraded) profiles) :
      HandlerStep options i request h (.upgrading (.profile r) resumable spentGuard)
        (.upgraded socket) (h.withProfiles profiles) (.seeding r socket resumable spentGuard)
  | poolUpgradeFailed (hp : Pool.Step options h.state.pool (.claim c .dropClaimed) pool) :
      HandlerStep options i request h (.upgrading (.pool c) resumable spentGuard) .upgradeFailed
        ((h.withPool pool).dropGuard spentGuard) .over
  | profileUpgradeFailed
      (hp : ProfileServer.Step h.state.profiles (.request r .upgradeFailed) profiles) :
      HandlerStep options i request h (.upgrading (.profile r) resumable spentGuard) .upgradeFailed
        ((h.withProfiles profiles).dropGuard spentGuard) .over
  | notLoaded (hrun : run.hasPipe = false ∨ ∃ e, run.seeded = .error e)
      (hp : ProfileServer.Step h.state.profiles (.request r (.ended run)) profiles) :
      HandlerStep options i request h (.seeding r socket resumable spentGuard) (.notLoaded run)
        (h.withProfiles profiles) (.destroying (.profile r) spentGuard)
  | loaded :
      HandlerStep options i request h (.seeding r socket none spentGuard) .loaded h
        (.serving (.profile r) none spentGuard)
  | loadedResumable (hr : h.state.resume = some r)
      (hs : Resume.Step r (.start token i socket) r') :
      HandlerStep options i request h (.seeding q socket (some token) spentGuard) .loaded
        (h.withResume r') (.serving (.profile q) (some r.sessions.length) spentGuard)
  | poolServed (hd : h.Served task)
      (hp : Pool.Step options h.state.pool (.claim c .destroy) pool) :
      HandlerStep options i request h (.serving (.pool c) task spentGuard) .served (h.withPool pool)
        (.destroying (.pool c) spentGuard)
  | profileReadOnly (hd : h.Served task) (hro : request.readOnly = true)
      (hrun : run.hasPipe = true ∧ run.seeded = .ok () ∧ run.readOnly = true)
      (hp : ProfileServer.Step h.state.profiles (.request r (.ended run)) profiles) :
      HandlerStep options i request h (.serving (.profile r) task spentGuard) (.servedProfile run)
        (h.withProfiles profiles) (.destroying (.profile r) spentGuard)
  | profileServed (hd : h.Served task) (hro : request.readOnly = false)
      (hrun : run.hasPipe = true ∧ run.seeded = .ok () ∧ run.readOnly = false) :
      HandlerStep options i request h (.serving (.profile r) task spentGuard) (.servedProfile run) h
        (.capturing r run spentGuard)
  | captured (hp : ProfileServer.Step h.state.profiles (.request r (.ended run)) profiles) :
      HandlerStep options i request h (.capturing r run spentGuard) .captured
        ((h.withProfiles profiles).dropGuard spentGuard) .over
  | poolDestroyed (hc : h.state.pool.claims[c]? = some ⟨kind, .finished⟩) :
      HandlerStep options i request h (.destroying (.pool c) spentGuard) .destroyed
        (h.dropGuard spentGuard) .over
  | profileDestroyed :
      HandlerStep options i request h (.destroying (.profile r) spentGuard) .destroyed
        (h.dropGuard spentGuard) .over

/-- What the pool's own tasks do: the replenisher, spawned destroys, `close` once it has
closed the semaphore, and what a claim does after its future is gone. -/
def Action.background : Action → Bool
  | .claim _ e => e = .run
  | .replenish | .drain | .startCleanup _ | .finishCleanup _ | .tick | .crash _ => true
  | .spawn _ | .close | .swapMax _ | .adjustPermits => false

/-- The clock of the profile store, and the requests to `/v1/profile`. -/
def ProfileAction.background : ProfileAction → Bool
  | .tick | .dropOff _ _ | .pickUp _ => true
  | .arrive _ | .request _ _ => false

/-- The clock of the registry, the `serve` tasks and the upgrades of resumed requests. -/
def ResumeAction.background : ResumeAction → Bool
  | .tick | .serve _ _ | .upgrade _ _ => true
  | .shutdown | .start _ _ _ | .claim _ => false

inductive ServerAction where
  | arrive (request : WsRequest)
  | handler (i : Nat) (event : HandlerEvent)
  | pool (a : Action)
  | profiles (a : ProfileAction)
  | resume (a : ResumeAction)
  | sample (gauge : PressureGauge) (threads : Option ThreadUsage)
  | calibrated (target : Nat)
  | adjusted
  | opened
  | signal
  | shutdown
  | cancel

/-- `wait_for_shutdown` resolves. -/
def ServerHub.ShutsDown (h : ServerHub) : Prop :=
  h.signalled = true ∨ ∃ single, h.state.singleUse = some single ∧ single.finished = true

/-- One step of the server. -/
inductive Server.Step (options : PoolOptions) : Server → ServerAction → Server → Prop
  | arrive :
      Step options s (.arrive request) { s with handlers := s.handlers ++ [⟨request, .start⟩] }
  | handler (hi : s.handlers[i]? = some handler)
      (h : HandlerStep options i handler.request s.hub handler.phase e hub' phase') :
      Step options s (.handler i e)
        { hub := hub', handlers := s.handlers.set i ⟨handler.request, phase'⟩ }
  | pool (ha : a.background = true) (h : Pool.Step options s.hub.state.pool a pool) :
      Step options s (.pool a) { s with hub := s.hub.withPool pool }
  | profiles (ha : a.background = true) (h : ProfileServer.Step s.hub.state.profiles a profiles) :
      Step options s (.profiles a) { s with hub := s.hub.withProfiles profiles }
  | resume (ha : a.background = true) (hr : s.hub.state.resume = some r)
      (h : Resume.Step r a r') :
      Step options s (.resume a) { s with hub := s.hub.withResume r' }
  | sample {gauge : PressureGauge} {threads : Option ThreadUsage} :
      Step options s (.sample gauge threads)
        { s with hub := { s.hub with state := { s.hub.state with gauge, threads } } }
  | calibrated (hc : s.hub.calibration = .measuring)
      (h : Pool.Step options s.hub.state.pool (.swapMax target) pool) :
      Step options s (.calibrated target)
        { s with hub := { s.hub.withPool pool with calibration := .swapped } }
  | adjusted (hc : s.hub.calibration = .swapped)
      (h : Pool.Step options s.hub.state.pool .adjustPermits pool) :
      Step options s .adjusted
        { s with hub := { s.hub.withPool pool with calibration := .adjusted } }
  | opened (hc : s.hub.calibration = .adjusted) :
      Step options s .opened
        { s with hub := { s.hub with
            state := { s.hub.state with calibrating := false }
            calibration := .finished } }
  | signal : Step options s .signal { s with hub := { s.hub with signalled := true } }
  | shutdown (hd : s.hub.ShutsDown) (hs : s.hub.stopped = false)
      (h : Pool.Step options s.hub.state.pool .close pool) :
      Step options s .shutdown { s with hub := { s.hub.withPool pool with stopped := true } }
  | cancel (hs : s.hub.stopped = true) :
      Step options s .cancel
        { s with hub := { s.hub with state := { s.hub.state with
            cancel := true
            resume := s.hub.state.resume.map fun r =>
              { r with hub := { r.hub with cancelled := true } } } } }

def Server.system (config : RuntimeConfig) : System Server ServerAction where
  init s := s = .new config
  step := Server.Step config.options

end BrowserServe
