import BrowserServe.PoolRest
import BrowserServe.ResumeRest
import BrowserServe.ServerLinks
import BrowserServe.ServerProxied

namespace BrowserServe
open Library
set_option autoImplicit true

/-- What goes on in a server that gets no new request, no signal and no more calls of its
profile store, while no time passes and no parked browser sends anything. -/
def ServerAction.quiet : ServerAction → Bool
  | .handler _ _ | .calibrated _ | .adjusted | .opened => true
  | .pool .tick | .pool (.crash _) => false
  | .pool _ => true
  | .resume a => a.quiet
  | .arrive _ | .profiles _ | .sample _ _ | .signal | .shutdown | .cancel => false

/-- A request that waits for answers of its browser, to what `seed_profile` or `capture_cookies`
asks of it. Neither has a deadline, and neither looks at `cancel`. -/
@[simp] def HandlerPhase.asks : HandlerPhase → Bool
  | .seeding _ _ _ _ => true
  | .capturing _ run _ => run.served.reclaims
  | _ => false

/-- It has no browser of the pool. -/
theorem HandlerPhase.held_of_asks {phase : HandlerPhase} (h : phase.asks = true) :
    phase.held ≠ some (.pool c) := by
  intro hheld
  cases phase with
  | seeding r socket resumable spentGuard => cases hheld
  | capturing r run spentGuard => cases hheld
  | _ => cases h

def HandlerEvent.polled : HandlerEvent → Bool
  | .dropped => false
  | _ => true

/-- The answers to what a browser is asked, with the end of `calibrate`, which asks too. -/
def ServerAction.answers : ServerAction → Bool
  | .handler _ .loaded | .handler _ (.notLoaded _) | .handler _ .captured | .calibrated _ => true
  | _ => false

/-- What the tasks of a server do, whether or not a client or a browser ends or answers anything.
An upgrade is their own: the connection hands its socket over, or fails. -/
def Server.Own (s : Server) (a : ServerAction) (_ : Server) : Prop :=
  match a with
  | .handler i e =>
    e.polled = true ∧ ∀ handler, s.handlers[i]? = some handler → handler.phase.asks = false
  | .calibrated _ => False
  | .resume a => a.own = true
  | a => a.quiet = true

/-- What they do where the browsers answer what they are asked. -/
def Server.Answered (s : Server) (a : ServerAction) (t : Server) : Prop :=
  s.Own a t ∨ a.answers = true

def Server.Quiet (_ : Server) (a : ServerAction) (_ : Server) : Prop := a.quiet = true

theorem Server.Own.quiet {s : Server} (h : s.Own a t) : s.Quiet a t := by
  cases a with
  | handler i e => rfl
  | calibrated target => exact h.elim
  | resume a => exact ResumeAction.quiet_of_own h
  | _ => exact h

theorem Server.Answered.quiet {s : Server} (h : s.Answered a t) : s.Quiet a t := by
  cases h with
  | inl hown => exact hown.quiet
  | inr hanswers =>
    cases a with
    | handler i e => rfl
    | calibrated target => rfl
    | _ => cases hanswers

/-- How many sections a request has before it, with those of what it may still start: a claim,
a session that can be resumed, or the upgrade of one. -/
@[simp] def HandlerPhase.work : HandlerPhase → Nat
  | .start => 27
  | .admitted _ => 26
  | .relayStarting _ _ => 25
  | .routing _ _ => 24
  | .profiling _ _ _ => 13
  | .claiming _ _ _ | .creating _ _ _ => 12
  | .upgrading _ _ _ => 11
  | .resuming _ | .seeding _ _ _ _ => 10
  | .serving _ _ _ => 2
  | .capturing _ _ _ | .destroying _ _ => 1
  | .over => 0

@[simp] def Calibration.work : Calibration → Nat
  | .measuring => 4
  | .swapped => 2
  | .adjusted => 1
  | .finished => 0

def ServerHub.work (h : ServerHub) : Nat :=
  h.state.pool.work + (h.state.resume.map Resume.work).getD 0 + h.calibration.work

def Server.work (s : Server) : Nat := s.hub.work + total (fun h => h.phase.work) s.handlers

namespace ServerHub

variable (h : ServerHub)

@[simp] theorem dropGuard_work (spentGuard : Bool) : (h.dropGuard spentGuard).work = h.work := by
  cases spentGuard <;> rfl

@[simp] theorem respond_work (i : Nat) (response : Response) :
    (h.respond i response).work = h.work :=
  rfl

@[simp] theorem give_work (i : Nat) (browser : Option Browser) : (h.give i browser).work = h.work :=
  rfl

@[simp] theorem withProfiles_work (profiles : ProfileServer) :
    (h.withProfiles profiles).work = h.work := rfl

theorem withPool_work (pool : Pool) :
    (h.withPool pool).work + h.state.pool.work = h.work + pool.work := by
  simp only [work, withPool]
  omega

theorem withResume_work {h : ServerHub} (hr : h.state.resume = some r) (r' : Resume) :
    (h.withResume r').work + r.work = h.work + r'.work := by
  simp only [work, withResume, hr, Option.map_some, Option.getD_some]
  omega

end ServerHub

theorem Pool.Step.spawn_work (h : Pool.Step options s (.spawn kind) t) : t.work = s.work + 11 := by
  cases h
  simp only [Pool.work, total_append, total_cons, total_nil, ClaimPhase.work]
  omega

theorem Resume.Step.start_work (h : Resume.Step s (.start token browser socket) t) :
    t.work = s.work + 7 := by
  cases h
  simp only [Resume.work, ResumeHub.work, total_append, total_cons, total_nil, ServePhase.work]
  omega

theorem Resume.Step.claim_work (h : Resume.Step s (.claim token) t) : t.work ≤ s.work + 9 := by
  cases h with
  | claim =>
    simp only [Resume.work, ResumeHub.work, total_append, total_cons, total_nil, Upgrade.work]
    omega
  | unknown =>
    simp only [Resume.work, ResumeHub.work]
    omega

theorem ServerHub.spawned_work {h : ServerHub}
    (hp : Pool.Step options h.state.pool (.spawn kind) pool) :
    (h.withPool pool).work = h.work + 11 := by
  have hwith := h.withPool_work pool
  have hwork := hp.spawn_work
  omega

theorem ServerHub.started_work {h : ServerHub} (hr : h.state.resume = some r)
    (hs : Resume.Step r (.start token browser socket) r') :
    (h.withResume r').work = h.work + 7 := by
  have hwith := withResume_work hr r'
  have hwork := hs.start_work
  omega

theorem ServerHub.claimed_work {h : ServerHub} (hr : h.state.resume = some r)
    (hs : Resume.Step r (.claim token) r') : (h.withResume r').work ≤ h.work + 9 := by
  have hwith := withResume_work hr r'
  have hwork := hs.claim_work
  omega

theorem HandlerPhase.spent_work (proxy : Option RequestedProxy) (spentGuard : Bool) :
    (HandlerPhase.spent proxy spentGuard).work ≤ 25 := by
  cases proxy with
  | none => exact Nat.le_succ 24
  | some proxy => exact Nat.le_refl 25

theorem Pool.Quiet.claim {s t : Pool} : s.Quiet (.claim c e) t := trivial

/-- In a server whose pool is closed each section of a request brings it nearer to its end. -/
theorem HandlerStep.works (h : HandlerStep options i request hub phase e hub' phase')
    (hclosed : hub.state.pool.inner.semaphore.closed = true) :
    hub'.work + phase'.work < hub.work + phase.work := by
  have hclaim : ∀ {c e pool}, Pool.Step options hub.state.pool (.claim c e) pool →
      (hub.withPool pool).work < hub.work := by
    intro c e pool hp
    have hworks := (hp.works Pool.Quiet.claim hclosed).2
    have hpool := hub.withPool_work pool
    omega
  cases h with
  | @unlimited _ proxy =>
    have hspent := HandlerPhase.spent_work proxy false
    exact Nat.add_lt_add_left (Nat.lt_succ_of_le hspent) _
  | @spent _ single single' proxy =>
    have hspent := HandlerPhase.spent_work proxy true
    exact Nat.add_lt_add_left (Nat.lt_succ_of_le hspent) _
  | unknownToken hr _ hs =>
    have hwork := ServerHub.claimed_work hr hs
    simp only [ServerHub.respond_work, HandlerPhase.work]
    omega
  | resumed hr _ hs =>
    have hwork := ServerHub.claimed_work hr hs
    simp only [ServerHub.respond_work, ServerHub.give_work, HandlerPhase.work]
    omega
  | routePool _ hp =>
    have hwork := ServerHub.spawned_work hp
    simp only [HandlerPhase.work]
    omega
  | claim _ hp => exact Nat.add_lt_add_right (hclaim hp) _
  | claimDropped _ hp =>
    have hworks := hclaim hp
    simp only [ServerHub.dropGuard_work, HandlerPhase.work]
    omega
  | noTransport _ hp =>
    have hworks := hclaim hp
    simp only [ServerHub.dropGuard_work, ServerHub.respond_work, ServerHub.give_work,
      HandlerPhase.work]
    omega
  | poolUpgradedResumable hr hs =>
    have hwork := ServerHub.started_work hr hs
    simp only [HandlerPhase.work]
    omega
  | poolUpgradeFailed hp =>
    have hworks := hclaim hp
    simp only [ServerHub.dropGuard_work, HandlerPhase.work]
    omega
  | loadedResumable hr hs =>
    have hwork := ServerHub.started_work hr hs
    simp only [HandlerPhase.work]
    omega
  | poolServed _ hp =>
    have hworks := hclaim hp
    simp only [HandlerPhase.work]
    omega
  | _ =>
    simp only [ServerHub.dropGuard_work, ServerHub.respond_work, ServerHub.give_work,
      ServerHub.withProfiles_work, HandlerPhase.work]
    omega

/-- In a server whose pool is closed each section that is left brings it nearer to its rest. -/
theorem Server.Step.works (h : Server.Step options s a t) (hquiet : a.quiet = true)
    (hclosed : s.hub.state.pool.inner.semaphore.closed = true) : t.work < s.work := by
  cases h with
  | arrive => cases hquiet
  | profiles => cases hquiet
  | sample => cases hquiet
  | signal => cases hquiet
  | shutdown => cases hquiet
  | cancel => cases hquiet
  | @handler i handler e hub phase _ hi h =>
    have hworks := h.works hclosed
    have hset := total_set (fun h : Handler => h.phase.work) hi ⟨handler.request, phase⟩
    simp only [Server.work] at hset ⊢
    omega
  | @pool a pool _ ha h =>
    have hpool : s.hub.state.pool.Quiet a pool := by
      cases a with
      | spawn kind => cases ha
      | close => cases ha
      | swapMax target => cases ha
      | tick => cases hquiet
      | crash session => cases hquiet
      | _ => trivial
    have hworks := (h.works hpool hclosed).2
    have hwith := s.hub.withPool_work pool
    simp only [Server.work]
    omega
  | @resume a r r' _ _ hr h =>
    have hworks := h.works hquiet
    have hwith := ServerHub.withResume_work hr r'
    simp only [Server.work]
    omega
  | calibrated hc h =>
    cases h with
    | swapMax hnone =>
      simp only [Server.work, ServerHub.work, ServerHub.withPool, Pool.work, Inner.work, hc, hnone,
        Calibration.work, Option.toList_some, Option.toList_none, List.length_singleton,
        List.length_nil]
      omega
  | @adjusted pool _ hc h =>
    have hworks := (h.works trivial hclosed).2
    simp only [Server.work, ServerHub.work, ServerHub.withPool, hc, Calibration.work]
    omega
  | opened hc =>
    simp only [Server.work, ServerHub.work, hc, Calibration.work]
    omega

/-- A server of which nothing is left to do but to wait for answers of browsers: its other requests
are over, with their sessions and its pool, and each browser its pool launched was destroyed once,
if it is not still parked. -/
structure Server.Settled (s : Server) : Prop where
  handlers : ∀ handler ∈ s.handlers, handler.phase = .over ∨ handler.phase.asks = true
  pool : s.hub.state.pool.Over
  resume : ∀ r, s.hub.state.resume = some r → r.AtRest
  calibration : s.hub.calibration = .finished ∨ s.hub.calibration = .measuring
  browsers : ∀ x < s.hub.state.pool.inner.created,
    s.hub.state.pool.inner.destroyCalls.count x +
      (s.hub.state.pool.inner.warm.map Warm.session).count x = 1

/-- A server of which nothing is left to do, nor to wait for. -/
structure Server.AtRest (s : Server) : Prop extends s.Settled where
  requests : ∀ handler ∈ s.handlers, handler.phase = .over
  calibrated : s.hub.calibration = .finished

theorem Pool.Over.destroyed {s : Pool} (h : s.Over) (ho : s.Owned) (hx : x < s.inner.created) :
    s.inner.destroyCalls.count x + (s.inner.warm.map Warm.session).count x = 1 := by
  have honce := ho.once x
  simp only [Pool.stock, Inner.stock, h.claims.stock, h.claims.owed, h.spawned, h.replenisher,
    Inner.born, if_pos hx, Replenisher.stock, List.count_nil] at honce
  omega

theorem ClaimPhase.Released.runs (options : PoolOptions) (i : Nat) (kind : ClaimKind) {p : Inner}
    {phase : ClaimPhase} (hreleased : phase.Released) (hclosed : p.semaphore.closed = true)
    (hphase : phase.over = false) :
    ∃ p' phase', ClaimStep options i kind p phase .run p' phase' := by
  rcases ClaimStep.goes_on options i kind hclosed hphase with ⟨session, rfl⟩ |
      ⟨e, p', phase', he, h⟩
  · exact hreleased.elim
  · rcases he with rfl | ⟨_, rfl⟩
    · exact ⟨p', phase', h⟩
    · exact hreleased.elim

/-- A profile session that the shutdown cuts off. -/
def SessionRun.cancelled (readOnly hasPipe : Bool) : SessionRun where
  readOnly := readOnly
  hasPipe := hasPipe
  seeded := .ok ()
  served := .cancelled
  sent := .error .closed
  inbound := []
  udd := ⟨fun _ => none, ⟨none, none⟩⟩
  codecs := ⟨fun _ => none, fun _ => none⟩
  joined := true

/-- A profile session whose browser answers with an error, or is gone, while it is seeded. -/
def SessionRun.refused : SessionRun :=
  { SessionRun.cancelled false true with seeded := .error (.cdp (.pipe .closed)) }

/-- What a request that is not over, and does not wait for its browser, can do in a server that was
stopped. -/
theorem HandlerStep.goes_on (options : PoolOptions) (i : Nat) (request : WsRequest)
    {hub : ServerHub} {phase : HandlerPhase}
    (hclosed : hub.state.pool.inner.semaphore.closed = true) (hfits : phase.Fits hub)
    (hserved : ∀ task, hub.HasTask task → hub.Served task)
    (hdestroyed : ∀ c, hub.ClaimIs c ClaimPhase.Destroying →
      ∃ kind, hub.state.pool.claims[c]? = some ⟨kind, .finished⟩)
    (hphase : phase ≠ .over) (hasks : phase.asks = false) :
    ∃ e hub' phase', e.polled = true ∧ HandlerStep options i request hub phase e hub' phase' := by
  cases phase with
  | start =>
    cases hadmission : admission hub.state request with
    | refused response => exact ⟨_, _, _, rfl, .refused hadmission⟩
    | resume token => exact ⟨_, _, _, rfl, .resuming hadmission⟩
    | session proxy => exact ⟨_, _, _, rfl, .admitted hadmission⟩
  | resuming token =>
    cases hr : hub.state.resume with
    | none => exact ⟨_, _, _, rfl, .notResumable hr⟩
    | some r =>
      rcases hclaim : r.hub.registry.claim token with ⟨handoff, registry⟩
      cases handoff with
      | none => exact ⟨_, _, _, rfl, .unknownToken hr (congrArg Prod.fst hclaim) (.unknown hclaim)⟩
      | some handoff =>
        exact ⟨_, _, _, rfl, .resumed hr (congrArg Prod.fst hclaim) (.claim hclaim)⟩
  | admitted proxy =>
    cases hs : hub.state.singleUse with
    | none => exact ⟨_, _, _, rfl, .unlimited hs⟩
    | some single =>
      rcases htry : single.trySpend with ⟨taken, single'⟩
      cases taken with
      | true => exact ⟨_, _, _, rfl, .spent hs htry⟩
      | false => exact ⟨_, _, _, rfl, .alreadySpent hs htry⟩
  | relayStarting proxy spentGuard => exact ⟨_, _, _, rfl, .relayStarted⟩
  | routing relay spentGuard =>
    cases hq : request.query.lookup "profileToken" with
    | none => exact ⟨_, _, _, rfl, .routePool hq .spawn⟩
    | some token => exact ⟨_, _, _, rfl, .routeProfile hq .arrive⟩
  | claiming c relay spentGuard =>
    obtain ⟨⟨kind, phase⟩, hc, hawaited⟩ := hfits
    cases hover : phase.over with
    | true =>
      cases phase with
      | failed e => exact ⟨_, _, _, rfl, .claimFailed hc⟩
      | finished => exact hawaited.elim
      | cancelled => exact hawaited.elim
      | abandoned session => exact hawaited.elim
      | _ => cases hover
    | false =>
      rcases ClaimStep.goes_on options c kind hclosed hover with ⟨session, rfl⟩ | hgoes
      · exact ⟨.claimed true none, _, _, rfl, .claimed hc⟩
      · obtain ⟨e, p, phase', he, h⟩ := hgoes
        have hprogresses : e.progresses = true := by
          rcases he with rfl | ⟨rfl, _⟩
          · rfl
          · rfl
        exact ⟨_, _, _, rfl, .claim hprogresses (.claim hc h)⟩
  | profiling r relay spentGuard =>
    obtain ⟨token, hr⟩ := hfits
    have hlt := (List.getElem?_eq_some_iff.1 hr).1
    rcases hclaim : hub.state.profiles.store.claim hub.state.profiles.now token with
        ⟨payload, store⟩
    cases payload with
    | none =>
      refine ⟨_, _, _, rfl, .profileUnknown (.request hr (.refused hclaim)) ?_⟩
      exact congrArg (Option.map _) (List.getElem?_set_self hlt)
    | some payload =>
      refine ⟨_, _, _, rfl, .profileClaimed (.request hr (.claimed hclaim)) ?_⟩
      exact congrArg (Option.map _) (List.getElem?_set_self hlt)
  | creating r relay spentGuard =>
    obtain ⟨token, hr⟩ := hfits
    exact ⟨.created (.ok ()) none, _, _, rfl, .created (.request hr .launched)⟩
  | upgrading x resumable spentGuard =>
    cases x with
    | pool c =>
      obtain ⟨⟨kind, phase⟩, hc, hclaimed⟩ := hfits
      cases phase with
      | claimed session => exact ⟨_, _, _, rfl, .poolUpgradeFailed (.claim hc .dropClaimed)⟩
      | _ => exact hclaimed.elim
    | profile r =>
      obtain ⟨token, hr⟩ := hfits
      exact ⟨_, _, _, rfl, .profileUpgradeFailed (.request hr .upgradeFailed)⟩
  | seeding r socket resumable spentGuard => cases hasks
  | serving x task spentGuard =>
    cases x with
    | pool c =>
      obtain ⟨⟨⟨kind, phase⟩, hc, hclaimed⟩, htask⟩ := hfits
      cases phase with
      | claimed session =>
        exact ⟨_, _, _, rfl, .poolServed (hserved task htask) (.claim hc .destroy)⟩
      | _ => exact hclaimed.elim
    | profile r =>
      obtain ⟨⟨token, hr⟩, htask⟩ := hfits
      cases hro : request.readOnly with
      | true =>
        exact ⟨.servedProfile (.cancelled true true), _, _, rfl,
          .profileReadOnly (hserved task htask) hro ⟨rfl, rfl, rfl⟩ (.request hr .ended)⟩
      | false =>
        exact ⟨.servedProfile (.cancelled false true), _, _, rfl,
          .profileServed (hserved task htask) hro ⟨rfl, rfl, rfl⟩⟩
  | capturing r run spentGuard =>
    obtain ⟨token, hr⟩ := hfits
    exact ⟨_, _, _, rfl, .captured (.request hr .ended)⟩
  | destroying x spentGuard =>
    cases x with
    | pool c =>
      obtain ⟨kind, hc⟩ := hdestroyed c hfits
      exact ⟨_, _, _, rfl, .poolDestroyed hc⟩
    | profile r => exact ⟨_, _, _, rfl, .profileDestroyed⟩
  | «over» => exact absurd rfl hphase

/-- A browser that is asked can answer. -/
theorem HandlerStep.answered (options : PoolOptions) (i : Nat) (request : WsRequest)
    {hub : ServerHub} {phase : HandlerPhase} (hfits : phase.Fits hub) (hasks : phase.asks = true) :
    ∃ e hub' phase', (ServerAction.handler i e).answers = true ∧
      HandlerStep options i request hub phase e hub' phase' := by
  cases phase with
  | seeding r socket resumable spentGuard =>
    obtain ⟨token, hr⟩ := hfits
    exact ⟨.notLoaded .refused, _, _, rfl, .notLoaded (.inr ⟨_, rfl⟩) (.request hr .ended)⟩
  | capturing r run spentGuard =>
    obtain ⟨token, hr⟩ := hfits
    exact ⟨_, _, _, rfl, .captured (.request hr .ended)⟩
  | _ => cases hasks

theorem Resume.AtRest.served {hub : ServerHub}
    (hrest : ∀ r, hub.state.resume = some r → r.AtRest) (htask : hub.HasTask task) :
    hub.Served task := by
  cases task with
  | none => trivial
  | some k =>
    obtain ⟨r, hr, hlt⟩ := htask k rfl
    have hk := List.getElem?_eq_getElem hlt
    exact ⟨r, _, hr, hk, (hrest r hr).sessions _ (List.mem_of_getElem? hk)⟩

theorem ResumeAction.background_of_own {a : ResumeAction} (h : a.own = true) :
    ResumeAction.background a = true := by
  cases a with
  | serve i e => rfl
  | upgrade j e => rfl
  | tick => rfl
  | shutdown => cases h
  | start token browser socket => cases h
  | claim token => cases h

/-- Where none of the tasks of a server that was cancelled can go on by itself, it is settled. -/
theorem Server.settled_of_stuck (h : (Server.system config).Reachable s)
    (hcancel : s.hub.state.cancel = true)
    (hstuck : ∀ a t, ¬ ((Server.system config).guarded Server.Own).step s a t) : s.Settled := by
  have hlinked := Server.linked h
  have hstops := Server.stops h
  obtain ⟨hstopped, hcancelled⟩ := hstops.cancelled hcancel
  have hclosed := hstops.closed hstopped
  have hresume : ∀ r, s.hub.state.resume = some r → r.AtRest := by
    intro r hr
    apply (Resume.tracked (Server.resume_reachable h hr)).rest (hcancelled r hr)
    intro a t hown hstep
    exact hstuck (.resume a) _ ⟨.resume (ResumeAction.background_of_own hown) hr hstep, hown⟩
  have hreleased : ∀ (c : Nat) claim, s.hub.state.pool.claims[c]? = some claim →
      claim.phase.Released → claim.phase.over = true := by
    intro c claim hc hrel
    by_contra hover
    obtain ⟨p, phase, hstep⟩ :=
      hrel.runs config.options c claim.kind hclosed (Bool.eq_false_iff.2 hover)
    exact hstuck (.pool (.claim c .run)) _ ⟨.pool rfl (.claim hc hstep), rfl⟩
  have hdestroyed : ∀ c, s.hub.ClaimIs c ClaimPhase.Destroying →
      ∃ kind, s.hub.state.pool.claims[c]? = some ⟨kind, .finished⟩ := by
    rintro c ⟨⟨kind, phase⟩, hc, hdestroying⟩
    cases phase with
    | destroying session background => cases hreleased c _ hc trivial
    | releasing => cases hreleased c _ hc trivial
    | finished => exact ⟨kind, hc⟩
    | _ => exact hdestroying.elim
  have hhandlers : ∀ handler ∈ s.handlers, handler.phase = .over ∨ handler.phase.asks = true := by
    intro handler hmem
    by_contra hphase
    obtain ⟨hover, hasks⟩ := not_or.1 hphase
    have hasks := Bool.eq_false_iff.2 hasks
    obtain ⟨i, hi⟩ := List.getElem?_of_mem hmem
    obtain ⟨e, hub, phase, he, hstep⟩ := HandlerStep.goes_on config.options i handler.request
      hclosed (hlinked.fits handler hmem) (fun _ htask => Resume.AtRest.served hresume htask)
      hdestroyed hover hasks
    refine hstuck (.handler i e) _ ⟨.handler hi hstep, he, fun handler' hi' => ?_⟩
    cases hi.symm.trans hi'
    exact hasks
  have hidle : s.hub.state.pool.Idle := by
    intro claim hmem
    obtain ⟨c, hc⟩ := List.getElem?_of_mem hmem
    rcases hlinked.covered c claim hc with hrel | ⟨handler, hhandler, hheld⟩
    · exact hreleased c claim hc hrel
    · rcases hhandlers handler hhandler with hover | hasks
      · rw [hover] at hheld
        cases hheld
      · exact absurd hheld (HandlerPhase.held_of_asks hasks)
  have hpool : s.hub.state.pool.Over := by
    apply Pool.over_of_idle hclosed hidle
    intro a t htask hstep
    have hbackground : Action.background a = true := by
      cases a with
      | replenish => rfl
      | drain => rfl
      | startCleanup session => rfl
      | finishCleanup session => rfl
      | _ => cases htask
    have hown : s.Own (.pool a) { s with hub := s.hub.withPool t } := by
      cases a with
      | replenish => rfl
      | drain => rfl
      | startCleanup session => rfl
      | finishCleanup session => rfl
      | _ => cases htask
    exact hstuck (.pool a) _ ⟨.pool hbackground hstep, hown⟩
  refine ⟨hhandlers, hpool, hresume, ?_, ?_⟩
  · cases hcalibration : s.hub.calibration with
    | measuring => exact .inr rfl
    | swapped =>
      obtain ⟨⟨previous, target⟩, hresizing⟩ := hstops.swapped hcalibration
      exact absurd ⟨.adjusted hcalibration (.adjustPermits hresizing), rfl⟩ (hstuck .adjusted _)
    | adjusted => exact absurd ⟨.opened hcalibration, rfl⟩ (hstuck .opened _)
    | finished => exact .inl rfl
  · intro x hx
    have howned := Pool.owned (System.guarded_reachable (Server.pool_reachable h))
    exact hpool.destroyed howned hx

/-- Where the browsers answer and it cannot go on all the same, it is at rest. -/
theorem Server.rest_of_stuck (h : (Server.system config).Reachable s)
    (hcancel : s.hub.state.cancel = true)
    (hstuck : ∀ a t, ¬ ((Server.system config).guarded Server.Answered).step s a t) :
    s.AtRest := by
  have hlinked := Server.linked h
  have hsettled := Server.settled_of_stuck h hcancel fun a t hstep =>
    hstuck a t ⟨hstep.1, .inl hstep.2⟩
  refine ⟨hsettled, ?_, ?_⟩
  · intro handler hmem
    refine (hsettled.handlers handler hmem).resolve_right fun hasks => ?_
    obtain ⟨i, hi⟩ := List.getElem?_of_mem hmem
    obtain ⟨e, hub, phase, hanswers, hstep⟩ := HandlerStep.answered config.options i
      handler.request (hlinked.fits handler hmem) hasks
    exact hstuck (.handler i e) _ ⟨.handler hi hstep, .inr hanswers⟩
  · refine hsettled.calibration.resolve_right fun hmeasuring => ?_
    have hnone : s.hub.state.pool.resizing = none := by
      by_contra hresizing
      have hswapped := (Server.calibrates h).resizing hresizing
      rw [hmeasuring] at hswapped
      cases hswapped
    exact hstuck (.calibrated 1) _ ⟨.calibrated hmeasuring (.swapMax hnone), .inr rfl⟩

theorem Server.Step.stays_cancelled (h : Server.Step options s a t)
    (hc : s.hub.state.cancel = true) :
    t.hub.state.cancel = true := by
  cases h with
  | handler _ h => exact h.stops.2.trans hc
  | cancel => rfl
  | _ => exact hc

/-- The server has cancelled what was left of its sessions. -/
def Server.Cancelled (config : RuntimeConfig) (s : Server) : Prop :=
  (Server.system config).Reachable s ∧ s.hub.state.cancel = true

/-- A section of a cancelled server brings it nearer to its rest. -/
theorem Server.Cancelled.works (hs : s.Cancelled config)
    (hst : ((Server.system config).guarded Server.Quiet).step s a t) :
    t.Cancelled config ∧ t.work < s.work := by
  obtain ⟨hreach, hcancel⟩ := hs
  obtain ⟨hstep, hquiet⟩ := hst
  have hstops := Server.stops hreach
  have hclosed := hstops.closed (hstops.cancelled hcancel).1
  exact ⟨⟨hreach.step hstep, hstep.stays_cancelled hcancel⟩, hstep.works hquiet hclosed⟩

/-- With nothing from outside it comes to where it cannot go on. -/
theorem Server.Cancelled.comes_to_stuck {guard : Server → ServerAction → Server → Prop}
    (hs : s.Cancelled config) (hguard : ∀ s a t, guard s a t → s.Quiet a t) :
    ∃ as t, ((Server.system config).guarded guard).Run s as t ∧ t.Cancelled config ∧
      ∀ a u, ¬ ((Server.system config).guarded guard).step t a u := by
  have hworks : ∀ (s : Server) a t, s.Cancelled config →
      ((Server.system config).guarded guard).step s a t →
      t.Cancelled config ∧ t.work < s.work :=
    fun s a t hs hst => hs.works ⟨hst.1, hguard s a t hst.2⟩
  obtain ⟨as, t, hrun, hstuck⟩ := System.exists_stuck hs hworks
  exact ⟨as, t, hrun, (hrun.length_le hs hworks).2, hstuck⟩

/-- A server that was shut down comes to its end. Once it has cancelled what was left, and
unless something comes from outside, its tasks have a bounded number of sections left, in any
order and whatever its clients and browsers do. Where none of its own tasks can go on, though no
client leaves and no browser ends, all its requests are over with everything they had, but for
those that wait for an answer of a profile's browser, which `cancel` does not end, and for the
calibration; and where the browsers answer, these are over too. Such ends can be reached. -/
theorem shut_down_server_comes_to_rest (h : (Server.system config).Reachable s)
    (hcancel : s.hub.state.cancel = true) :
    (∀ as t, ((Server.system config).guarded Server.Quiet).Run s as t →
      as.length + t.work ≤ s.work ∧
        ((∀ a u, ¬ ((Server.system config).guarded Server.Own).step t a u) → t.Settled) ∧
        ((∀ a u, ¬ ((Server.system config).guarded Server.Answered).step t a u) → t.AtRest)) ∧
      (∃ as t, ((Server.system config).guarded Server.Own).Run s as t ∧ t.Settled) ∧
      ∃ as t, ((Server.system config).guarded Server.Answered).Run s as t ∧ t.AtRest := by
  have hs : s.Cancelled config := ⟨h, hcancel⟩
  refine ⟨?_, ?_, ?_⟩
  · intro as t hrun
    obtain ⟨hlength, hreach, hstays⟩ := hrun.length_le hs fun _ _ _ => Server.Cancelled.works
    exact ⟨hlength, Server.settled_of_stuck hreach hstays, Server.rest_of_stuck hreach hstays⟩
  · obtain ⟨as, t, hrun, ⟨hreach, hstays⟩, hstuck⟩ :=
      hs.comes_to_stuck fun _ _ _ => Server.Own.quiet
    exact ⟨as, t, hrun, Server.settled_of_stuck hreach hstays hstuck⟩
  · obtain ⟨as, t, hrun, ⟨hreach, hstays⟩, hstuck⟩ :=
      hs.comes_to_stuck fun _ _ _ => Server.Answered.quiet
    exact ⟨as, t, hrun, Server.rest_of_stuck hreach hstays hstuck⟩

/-- A session that its client still uses, and one whose profile is being loaded, when the server is
shut down. -/
def sessionsCutOff : List ServerAction :=
  [.arrive proxiedRequest, .handler 0 .check, .handler 0 .spend, .handler 0 (.relay (.ok ())),
    .handler 0 .route, .handler 0 (.claim .run), .handler 0 (.claim .run),
    .handler 0 (.claim .launchOk), .handler 0 (.claimed true (some "t")),
    .handler 0 (.upgraded ⟨0, none⟩), .resume (.serve 0 .poll),
    .profiles (.dropOff ⟨[], [], []⟩ (some "p")), .arrive ⟨[("profileToken", "p")], []⟩,
    .handler 1 .check, .handler 1 .spend, .handler 1 .route, .handler 1 .claimProfile,
    .handler 1 (.created (.ok ()) none), .handler 1 (.upgraded ⟨1, none⟩),
    .signal, .shutdown, .cancel]

theorem sessionsCutOff_run : ∃ s,
    (Server.system resumableConfig).Run (.new resumableConfig) sessionsCutOff s ∧
      s.hub.state.cancel = true ∧ s.handlers.map Handler.phase =
        [.serving (.pool 0) (some 0) false, .seeding 0 ⟨1, none⟩ none false] := by
  have hclaim : (((ProfileServer.new PROFILE_TTL MAX_PENDING).store.dropOff 0 ⟨[], [], []⟩
      (some "p")).2).claim 0 "p" = (some ⟨[], [], []⟩, _) := rfl
  exact ⟨_, .cons .arrive <|
    .cons (.handler rfl (.admitted proxiedRequest_admitted)) <|
    .cons (.handler rfl (.unlimited rfl)) <|
    .cons (.handler rfl .relayStarted) <|
    .cons (.handler rfl (.routePool rfl .spawn)) <|
    .cons (.handler rfl (.claim rfl (.claim rfl (.tryAcquireOk rfl)))) <|
    .cons (.handler rfl (.claim rfl (.claim rfl (.launchDedicated rfl)))) <|
    .cons (.handler rfl (.claim rfl (.claim rfl .launchOk))) <|
    .cons (.handler rfl (.claimed rfl)) <|
    .cons (.handler rfl (.poolUpgradedResumable rfl
      (.start List.not_mem_nil List.not_mem_nil rfl List.not_mem_nil))) <|
    .cons (.resume rfl rfl (.serve rfl .poll)) <|
    .cons (.profiles rfl (.dropOff fun _ _ => List.not_mem_nil)) <|
    .cons .arrive <|
    .cons (.handler rfl (.admitted (admission_session rfl rfl rfl (by decide +kernel)
      (by decide +kernel) rfl rfl))) <|
    .cons (.handler rfl (.unlimited rfl)) <|
    .cons (.handler rfl (.routeProfile rfl .arrive)) <|
    .cons (.handler rfl (.profileClaimed (.request (i := 0) rfl (.claimed hclaim)) rfl)) <|
    .cons (.handler rfl (.created (.request (i := 0) rfl .launched))) <|
    .cons (.handler rfl (.profileUpgraded (.request (i := 0) rfl .upgraded))) <|
    .cons .signal <| .cons (.shutdown (.inl rfl) rfl .close) <| .single (.cancel rfl), rfl, rfl⟩

theorem shut_down_server_comes_to_rest_cut : ∃ s,
    (Server.system resumableConfig).Reachable s ∧ s.handlers.map Handler.phase =
        [.serving (.pool 0) (some 0) false, .seeding 0 ⟨1, none⟩ none false] ∧
      (∃ as t, ((Server.system resumableConfig).guarded Server.Own).Run s as t ∧ t.Settled) ∧
      ∃ as t, ((Server.system resumableConfig).guarded Server.Answered).Run s as t ∧ t.AtRest := by
  obtain ⟨s, hrun, hcancel, hphases⟩ := sessionsCutOff_run
  have hreach : (Server.system resumableConfig).Reachable s := hrun.reachable (.init rfl)
  obtain ⟨_, hsettles, hrests⟩ := shut_down_server_comes_to_rest hreach hcancel
  exact ⟨s, hreach, hphases, hsettles, hrests⟩

end BrowserServe
