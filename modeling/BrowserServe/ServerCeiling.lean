import BrowserServe.PoolReserve
import BrowserServe.ServerProxied

namespace BrowserServe
open Library
set_option autoImplicit true

/-- The session of a pool claim: its browser launches, is served or parked, or is torn down. -/
@[simp] def ClaimPhase.clientSession : ClaimPhase → Nat
  | .launching | .claimed _ | .orphaned _ | .destroying _ _ | .abandoned _ => 1
  | _ => 0

def Pool.clientSessions (s : Pool) : Nat := total (fun c => c.phase.clientSession) s.claims

/-- A profile session from `create_seeded` to the end of its destroy. -/
@[simp] def HandlerPhase.profileSession : HandlerPhase → Nat
  | .creating .. | .upgrading (.profile _) _ _ | .seeding .. | .serving (.profile _) _ _
  | .capturing .. | .destroying (.profile _) _ => 1
  | _ => 0

def Server.profileSessions (s : Server) : Nat := total (fun h => h.phase.profileSession) s.handlers

/-- The client sessions whose browser launches, is served or parked, or is torn down. -/
def Server.clientSessions (s : Server) : Nat :=
  s.hub.state.pool.clientSessions + s.profileSessions

def Server.InsideCeiling (s : Server) : Prop :=
  s.clientSessions ≤ s.hub.state.pool.inner.maxSessions

/-- The claim has its slot, and its next section launches its browser or takes a live one. -/
@[simp] def ClaimPhase.begins (p : Inner) (kind : ClaimKind) : ClaimPhase → Prop
  | .holding => kind = .claimWith ∨ p.warm = []
  | .popped entry => p.isAlive entry.session = true
  | _ => False

def Pool.Begins (s : Pool) (c : Nat) : Prop :=
  ∃ claim, s.claims[c]? = some claim ∧ claim.phase.begins s.inner claim.kind

/-- A section of a claim begins its session, or it adds none. -/
theorem ClaimStep.clientSession (h : ClaimStep options i kind p phase e p' phase') :
    e = .run ∧ phase.begins p kind ∧ phase'.clientSession = phase.clientSession + 1 ∨
      (e = .run → ¬ phase.begins p kind) ∧ phase'.clientSession ≤ phase.clientSession := by
  cases h with
  | noWarm hk h => exact .inl ⟨rfl, .inr h, rfl⟩
  | launchDedicated hk => exact .inl ⟨rfl, .inl hk, rfl⟩
  | warmAlive h => exact .inl ⟨rfl, h, rfl⟩
  | popWarm hk h =>
    have hnot : ¬ ClaimPhase.holding.begins p kind := by
      intro hbegins
      rcases hbegins with hw | hw
      · rw [hk] at hw
        cases hw
      · rw [h] at hw
        cases hw
    exact .inr ⟨fun _ => hnot, Nat.le_refl _⟩
  | @warmDead _ entry h =>
    have hnot : ¬ (ClaimPhase.popped entry).begins p kind := by
      intro hbegins
      rw [ClaimPhase.begins, h] at hbegins
      cases hbegins
    exact .inr ⟨fun _ => hnot, Nat.le_refl _⟩
  | launchErr => exact .inr ⟨nofun, Nat.zero_le _⟩
  | dropLaunching => exact .inr ⟨nofun, Nat.zero_le _⟩
  | destroyed => exact .inr ⟨fun _ => id, Nat.zero_le _⟩
  | _ => exact .inr ⟨fun _ => id, Nat.le_refl _⟩

theorem Pool.Step.clientSessions (h : Pool.Step options s a t) :
    (∃ c, a = .claim c .run ∧ s.Begins c ∧ t.clientSessions = s.clientSessions + 1) ∨
      (∀ c, a = .claim c .run → ¬ s.Begins c) ∧ t.clientSessions ≤ s.clientSessions := by
  cases h with
  | @claim i claim e p phase _ hc h =>
    have hset := total_set (fun c : Claim => c.phase.clientSession) hc ⟨claim.kind, phase⟩
    rcases h.clientSession with ⟨rfl, hbegins, hmore⟩ | ⟨hnot, hle⟩
    · left
      refine ⟨i, rfl, ⟨claim, hc, hbegins⟩, ?_⟩
      simp only [Pool.clientSessions] at hset ⊢
      omega
    · right
      constructor
      · rintro c heq ⟨other, hother, hbegins⟩
        cases heq
        cases hc.symm.trans hother
        exact hnot rfl hbegins
      · simp only [Pool.clientSessions] at hset ⊢
        omega
  | spawn =>
    right
    refine ⟨nofun, ?_⟩
    rw [Pool.clientSessions, total_append]
    exact Nat.le_refl _
  | _ => exact .inr ⟨nofun, Nat.le_refl _⟩

theorem ClaimPhase.clientSession_le (phase : ClaimPhase) :
    phase.clientSession ≤ phase.slot + phase.abandonedSlot := by
  cases phase with
  | _ => simp

theorem ClaimPhase.begins_slot {phase : ClaimPhase} (h : phase.begins p kind) :
    phase.clientSession < phase.slot + phase.abandonedSlot := by
  cases phase with
  | holding => exact Nat.zero_lt_one
  | popped => exact Nat.zero_lt_one
  | _ => exact absurd h id

theorem Pool.claims_le_heldSlots (s : Pool) :
    total (fun c : Claim => c.phase.slot + c.phase.abandonedSlot) s.claims ≤ s.heldSlots := by
  have hslots := total_add (fun c : Claim => c.phase.slot) (fun c => c.phase.abandonedSlot)
    s.claims
  have hphases := total_add (fun c : Claim => c.phase.launchingSlot)
    (fun c => c.phase.claimedSlot) s.claims
  simp only [Pool.heldSlots, Pool.launchingSlots, Pool.claimedSlots, ClaimPhase.slot] at *
  omega

/-- A claim about to begin its session has its slot already. -/
theorem Pool.Begins.heldSlots {s : Pool} (h : s.Begins c) : s.clientSessions < s.heldSlots := by
  obtain ⟨claim, hc, hbegins⟩ := h
  have hlt := total_lt (fun c : Claim => c.phase.clientSession_le) (List.mem_of_getElem? hc)
    (ClaimPhase.begins_slot hbegins)
  exact Nat.lt_of_lt_of_le hlt s.claims_le_heldSlots

/-- The store would hand the request its profile. -/
def ProfileServer.Grants (s : ProfileServer) (r : Nat) : Prop :=
  ∃ request, s.requests[r]? = some request ∧
    (s.store.claim s.now request.token).1.isSome = true

theorem ProfileServer.Step.grants (h : ProfileServer.Step s (.request r .claim) t)
    (hr : t.requests[r]?.map ProfileRequest.phase = some phase) :
    phase = .launching ∧ s.Grants r ∨ phase = .refused ∧ ¬ s.Grants r := by
  cases h with
  | request hi h =>
    rw [List.getElem?_set_self (List.getElem?_eq_some_iff.1 hi).1] at hr
    cases hr
    cases h with
    | claimed h =>
      have hsome := congrArg (fun r => r.1.isSome) h
      exact .inl ⟨rfl, _, hi, hsome⟩
    | refused h =>
      have hnot : ¬ s.Grants r := by
        rintro ⟨request, hrequest, hsome⟩
        cases hi.symm.trans hrequest
        rw [h] at hsome
        cases hsome
      exact .inr ⟨rfl, hnot⟩

/-- The request to the profile store a handler is about to make. -/
@[simp] def HandlerPhase.profileRequest : HandlerPhase → Option Nat
  | .profiling r _ _ => some r
  | _ => none

/-- What one section of a handler does to the pool's sessions and its own profile session. -/
inductive SessionMove (options : PoolOptions) (hub : ServerHub) (phase : HandlerPhase)
    (e : HandlerEvent) (hub' : ServerHub) (phase' : HandlerPhase) : Prop
  | ran (hphase : phase.waitsFor = some (c, relay)) (he : e = .claim event)
      (hp : Pool.Step options hub.state.pool (.claim c event) hub'.state.pool)
      (hprofile : phase'.profileSession = phase.profileSession)
  | granted (he : e = .claimProfile) (hphase : phase.profileRequest = some r)
      (hgrants : hub.state.profiles.Grants r) (hpool : hub'.state.pool = hub.state.pool)
      (hprofile : phase'.profileSession = phase.profileSession + 1)
  | moved (he : ∀ event, e ≠ .claim event) (hnot : e ≠ .claimProfile)
      (hp : Pool.Step options hub.state.pool a hub'.state.pool)
      (ha : a.resizes = false ∧ ∀ c, a ≠ .claim c .run)
      (hprofile : phase'.profileSession = phase.profileSession)
  | kept (he : ∀ event, e ≠ .claim event)
      (hnot : e = .claimProfile → ∀ r, phase.profileRequest = some r →
        ¬ hub.state.profiles.Grants r)
      (hpool : hub'.state.pool = hub.state.pool)
      (hprofile : phase'.profileSession ≤ phase.profileSession)

theorem HandlerPhase.spent_profileSession (proxy : Option RequestedProxy) (spentGuard : Bool) :
    (HandlerPhase.spent proxy spentGuard).profileSession = 0 := by
  cases proxy <;> rfl

theorem SessionMove.released (hp : Pool.Step options hub.state.pool a pool)
    (hpool : hub'.state.pool = pool) (he : ∀ event, e ≠ .claim event) (hnot : e ≠ .claimProfile)
    (ha : a.resizes = false ∧ ∀ c, a ≠ .claim c .run)
    (hprofile : phase'.profileSession = phase.profileSession) :
    SessionMove options hub phase e hub' phase' :=
  .moved he hnot (hpool ▸ hp) ha hprofile

theorem HandlerStep.sessions (h : HandlerStep options i request hub phase e hub' phase') :
    SessionMove options hub phase e hub' phase' := by
  cases h with
  | unlimited =>
    exact .kept nofun nofun rfl (Nat.le_of_eq (HandlerPhase.spent_profileSession _ _))
  | spent => exact .kept nofun nofun rfl (Nat.le_of_eq (HandlerPhase.spent_profileSession _ _))
  | claim _ hp => exact .ran rfl rfl hp rfl
  | profileClaimed hp hr =>
    rcases hp.grants hr with ⟨_, hgrants⟩ | ⟨hphase, _⟩
    · exact .granted rfl rfl hgrants rfl rfl
    · cases hphase
  | profileUnknown hp hr =>
    rcases hp.grants hr with ⟨hphase, _⟩ | ⟨_, hnot⟩
    · cases hphase
    · refine .kept nofun ?_ (ServerHub.dropGuard_pool _ _) (Nat.le_refl _)
      rintro _ _ ⟨⟩
      exact hnot
  | routePool _ hp => exact .moved nofun nofun hp ⟨rfl, nofun⟩ rfl
  | claimDropped he hp =>
    refine .released hp (ServerHub.dropGuard_pool _ _) nofun nofun ⟨rfl, ?_⟩ rfl
    rintro c ⟨⟩
    rcases he with he | he
    · cases he
    · cases he
  | noTransport _ hp =>
    exact .released hp (ServerHub.dropGuard_pool _ _) nofun nofun ⟨rfl, nofun⟩ rfl
  | poolUpgradeFailed hp =>
    exact .released hp (ServerHub.dropGuard_pool _ _) nofun nofun ⟨rfl, nofun⟩ rfl
  | poolServed _ hp => exact .moved nofun nofun hp ⟨rfl, nofun⟩ rfl
  | _ =>
    first
    | exact .kept nofun nofun rfl (Nat.le_refl _)
    | exact .kept nofun nofun (ServerHub.dropGuard_pool _ _) (Nat.zero_le _)

/-- The claim of the pool that an action lets run. -/
def Server.Runs (s : Server) (a : ServerAction) (c : Nat) : Prop :=
  a = .pool (.claim c .run) ∨ ∃ i handler relay, a = .handler i (.claim .run) ∧
    s.handlers[i]? = some handler ∧ handler.phase.waitsFor = some (c, relay)

/-- A pool claim launches its browser or takes a warm one. -/
def Server.StartsPool (s : Server) (a : ServerAction) : Prop :=
  ∃ c, s.Runs a c ∧ s.hub.state.pool.Begins c

theorem Server.StartsPool.slot {s : Server} (h : s.StartsPool a) :
    s.hub.state.pool.clientSessions < s.hub.state.pool.heldSlots := by
  obtain ⟨_, _, hbegins⟩ := h
  exact hbegins.heldSlots

/-- A `?profileToken=` request gets its profile and goes on to `create_seeded`. -/
def Server.StartsProfile (s : Server) (a : ServerAction) : Prop :=
  ∃ (i : Nat) (handler : Handler) (r : Nat), a = .handler i .claimProfile ∧
    s.handlers[i]? = some handler ∧ handler.phase.profileRequest = some r ∧
      s.hub.state.profiles.Grants r

/-- Profile sessions start only while there is room for one more client session, and while
there are profile sessions so do pool sessions. -/
def Server.KeepsRoom (s : Server) (a : ServerAction) (_ : Server) : Prop :=
  (s.StartsProfile a → s.clientSessions < s.hub.state.pool.inner.maxSessions) ∧
    (s.StartsPool a → s.profileSessions = 0 ∨
      s.clientSessions < s.hub.state.pool.inner.maxSessions)

/-- What a step of the server does to the number of client sessions. -/
inductive Server.Change (s : Server) (a : ServerAction) (t : Server) : Prop
  | startsPool (hs : s.StartsPool a) (hnot : ¬ s.StartsProfile a)
      (hmore : t.clientSessions = s.clientSessions + 1)
      (hmax : t.hub.state.pool.inner.maxSessions = s.hub.state.pool.inner.maxSessions)
  | startsProfile (hs : s.StartsProfile a) (hnot : ¬ s.StartsPool a)
      (hmore : t.clientSessions = s.clientSessions + 1)
      (hmax : t.hub.state.pool.inner.maxSessions = s.hub.state.pool.inner.maxSessions)
  | kept (hpool : ¬ s.StartsPool a) (hprofile : ¬ s.StartsProfile a)
      (hle : t.clientSessions ≤ s.clientSessions)
      (hmax : t.hub.state.pool.inner.maxSessions = s.hub.state.pool.inner.maxSessions ∨
        t.clientSessions = 0)

theorem Server.Change.of_pool {s t : Server} {a' : Action}
    (hp : Pool.Step options s.hub.state.pool a' t.hub.state.pool) (ha : a'.resizes = false)
    (hruns : ∀ c, s.Runs a c ↔ a' = .claim c .run) (hnot : ¬ s.StartsProfile a)
    (hprofile : t.profileSessions = s.profileSessions) : s.Change a t := by
  have hmax := hp.maxSessions ha
  rcases hp.clientSessions with ⟨c, heq, hbegins, hmore⟩ | ⟨hnone, hle⟩
  · have hcount : t.clientSessions = s.clientSessions + 1 := by
      simp only [Server.clientSessions, hprofile, hmore]
      omega
    exact .startsPool ⟨c, (hruns c).2 heq, hbegins⟩ hnot hcount hmax
  · have hpool : ¬ s.StartsPool a := by
      rintro ⟨c, hc, hbegins⟩
      exact hnone c ((hruns c).1 hc) hbegins
    have hcount : t.clientSessions ≤ s.clientSessions := by
      simp only [Server.clientSessions, hprofile]
      omega
    exact .kept hpool hnot hcount (.inl hmax)

theorem Server.profileSessions_set {s : Server} (hi : s.handlers[i]? = some handler)
    (hub' : ServerHub) (phase' : HandlerPhase) :
    Server.profileSessions ⟨hub', s.handlers.set i ⟨handler.request, phase'⟩⟩ +
        handler.phase.profileSession = s.profileSessions + phase'.profileSession :=
  total_set (fun h : Handler => h.phase.profileSession) hi ⟨handler.request, phase'⟩

theorem HandlerPhase.profileSession_of_not_passed {phase : HandlerPhase} (h : ¬ phase.Passed) :
    phase.profileSession = 0 := by
  cases phase with
  | _ =>
    first
    | rfl
    | exact absurd trivial h

/-- While the server calibrates there is no client session. -/
theorem Server.Calibrates.clientSessions {s : Server} (hs : s.Calibrates)
    (hc : s.hub.state.calibrating = true) : s.clientSessions = 0 := by
  have hpool : s.hub.state.pool.clientSessions = 0 := by
    rw [Pool.clientSessions, hs.claims hc]
    rfl
  have hprofile : s.profileSessions = 0 := by
    apply total_eq_zero
    intro handler hmem
    exact HandlerPhase.profileSession_of_not_passed (hs.handlers hc handler hmem)
  rw [Server.clientSessions, hpool, hprofile]

theorem Server.not_runs {s : Server} (hpool : ∀ c, a ≠ .pool (.claim c .run))
    (hhandler : ∀ i, a ≠ .handler i (.claim .run)) (c : Nat) : ¬ s.Runs a c := by
  rintro (heq | ⟨i, _, _, heq, _⟩)
  · exact hpool c heq
  · exact hhandler i heq

theorem Server.not_startsProfile {s : Server} (h : ∀ i, a ≠ .handler i .claimProfile) :
    ¬ s.StartsProfile a := by
  rintro ⟨i, _, _, heq, _⟩
  exact h i heq

/-- A step that lets no claim run and asks the store for no profile starts no session. -/
theorem Server.Change.quiet {s t : Server} (hruns : ∀ c, ¬ s.Runs a c)
    (hnot : ¬ s.StartsProfile a) (hle : t.clientSessions ≤ s.clientSessions)
    (hmax : t.hub.state.pool.inner.maxSessions = s.hub.state.pool.inner.maxSessions ∨
      t.clientSessions = 0) : s.Change a t := by
  apply Server.Change.kept _ hnot hle hmax
  rintro ⟨c, hc, _⟩
  exact hruns c hc

theorem Server.Change.of_handler {s : Server} (hi : s.handlers[i]? = some handler)
    (h : HandlerStep options i handler.request s.hub handler.phase e hub' phase') :
    s.Change (.handler i e) ⟨hub', s.handlers.set i ⟨handler.request, phase'⟩⟩ := by
  have hset := Server.profileSessions_set hi hub' phase'
  have hruns (he : ∀ event, e ≠ .claim event) : ∀ c, ¬ s.Runs (.handler i e) c := by
    refine Server.not_runs nofun ?_
    rintro j ⟨⟩
    exact he _ rfl
  cases h.sessions with
  | @ran c relay event hphase he hp hprofile =>
    subst he
    refine .of_pool hp rfl ?_ (Server.not_startsProfile nofun) (by omega)
    intro c'
    constructor
    · rintro (heq | ⟨j, other, relay', heq, hj, hother⟩)
      · cases heq
      · cases heq
        cases hi.symm.trans hj
        cases hphase.symm.trans hother
        rfl
    · intro heq
      cases heq
      exact .inr ⟨i, handler, relay, rfl, hi, hphase⟩
  | granted he hphase hgrants hpool hprofile =>
    subst he
    have hnot : ¬ s.StartsPool (.handler i .claimProfile) := by
      rintro ⟨c, hc, _⟩
      exact hruns nofun c hc
    apply Server.Change.startsProfile ⟨i, handler, _, rfl, hi, hphase, hgrants⟩ hnot
    · simp only [Server.clientSessions, hpool]
      omega
    · rw [hpool]
  | moved he hnot hp ha hprofile =>
    refine .of_pool hp ha.1 ?_ (Server.not_startsProfile ?_) (by omega)
    · exact fun c => iff_of_false (hruns he c) (ha.2 c)
    · rintro j ⟨⟩
      exact hnot rfl
  | kept he hnot hpool hprofile =>
    have hprofile' : ¬ s.StartsProfile (.handler i e) := by
      rintro ⟨j, other, r, heq, hj, hother, hgrants⟩
      cases heq
      cases hi.symm.trans hj
      exact hnot rfl r hother hgrants
    apply Server.Change.quiet (hruns he) hprofile'
    · simp only [Server.clientSessions, hpool]
      omega
    · rw [hpool]
      exact .inl rfl

theorem Server.Step.change (h : Server.Step options s a t) (hcal : s.Calibrates) :
    s.Change a t := by
  have htarget := h.calibrates hcal
  cases h with
  | arrive =>
    refine .quiet (Server.not_runs nofun nofun) (Server.not_startsProfile nofun) ?_ (.inl rfl)
    rw [Server.clientSessions, Server.profileSessions, total_append]
    exact Nat.le_refl _
  | handler hi h => exact .of_handler hi h
  | pool ha hp =>
    refine .of_pool hp (Action.resizes_of_background ha) ?_ (Server.not_startsProfile nofun) rfl
    intro c
    constructor
    · rintro (heq | ⟨_, _, _, heq, _⟩)
      · cases heq
        rfl
      · cases heq
    · rintro rfl
      exact .inl rfl
  | calibrated hc hp =>
    have hzero := htarget.clientSessions
      (htarget.closed (show Calibration.swapped ≠ .finished by decide))
    exact .quiet (Server.not_runs nofun nofun) (Server.not_startsProfile nofun)
      (hzero ▸ Nat.zero_le _) (.inr hzero)
  | adjusted hc hp =>
    have hzero := htarget.clientSessions
      (htarget.closed (show Calibration.adjusted ≠ .finished by decide))
    exact .quiet (Server.not_runs nofun nofun) (Server.not_startsProfile nofun)
      (hzero ▸ Nat.zero_le _) (.inr hzero)
  | shutdown _ _ hp =>
    have hruns : ∀ c, ¬ s.Runs .shutdown c := Server.not_runs nofun nofun
    refine .of_pool hp rfl ?_ (Server.not_startsProfile nofun) rfl
    exact fun c => iff_of_false (hruns c) nofun
  | _ =>
    exact .quiet (Server.not_runs nofun nofun) (Server.not_startsProfile nofun) (Nat.le_refl _)
      (.inl rfl)

/-- From inside the ceiling exactly the steps that keep room stay inside it. -/
theorem Server.Step.insideCeiling_iff (h : Server.Step options s a t) (hcal : s.Calibrates)
    (hheld : s.hub.state.pool.heldSlots ≤ s.hub.state.pool.inner.maxSessions)
    (hs : s.InsideCeiling) : t.InsideCeiling ↔ s.KeepsRoom a t := by
  unfold Server.InsideCeiling at *
  cases h.change hcal with
  | startsPool hstart hnot hmore hmax =>
    have hslot := hstart.slot
    have hsum : s.clientSessions = s.hub.state.pool.clientSessions + s.profileSessions := rfl
    rw [hmore, hmax]
    constructor
    · exact fun hroom => ⟨fun hp => absurd hp hnot, fun _ => .inr hroom⟩
    · rintro ⟨_, hroom⟩
      rcases hroom hstart with hnone | hroom
      · omega
      · exact hroom
  | startsProfile hstart hnot hmore hmax =>
    rw [hmore, hmax]
    constructor
    · exact fun hroom => ⟨fun _ => hroom, fun hp => absurd hp hnot⟩
    · exact fun hroom => hroom.1 hstart
  | kept hpool hprofile hle hmax =>
    apply iff_of_true
    · rcases hmax with hmax | hzero
      · rw [hmax]
        exact Nat.le_trans hle hs
      · rw [hzero]
        exact Nat.zero_le _
    · exact ⟨fun hp => absurd hp hprofile, fun hp => absurd hp hpool⟩

/-- Over the runs of the server, for any mix of plain, proxied, resumed and profile
connections: the client sessions stay inside the ceiling all along exactly in the runs that
keep room for the profile sessions, which take no slot. -/
theorem client_sessions_inside_ceiling_iff (config : RuntimeConfig) (as : List ServerAction)
    (s : Server) :
    ((Server.system config).guarded fun _ _ t => t.InsideCeiling).Run (.new config) as s ↔
      ((Server.system config).guarded Server.KeepsRoom).Run (.new config) as s := by
  apply System.guarded_run_iff (.init rfl)
  · exact Nat.zero_le _
  · intro s a t hreach hs hst
    exact hst.insideCeiling_iff (Server.calibrates hreach)
      (Pool.heldSlots_le (Server.pool_reachable hreach)) hs

/-- With a ceiling of one, a client is served by the pool while a `?profileToken=` request
launches a second browser. -/
theorem profile_session_exceeds_ceiling : ∃ s, (Server.system resumableConfig).Reachable s ∧
    s.hub.state.pool.inner.maxSessions = 1 ∧ s.clientSessions = 2 ∧ ¬ s.InsideCeiling := by
  have hclaim : (((ProfileServer.new PROFILE_TTL MAX_PENDING).store.dropOff 0 ⟨[], [], []⟩
      (some "p")).2).claim 0 "p" = (some ⟨[], [], []⟩, _) := rfl
  have hplain : admission (AppState.new resumableConfig) ⟨[], []⟩ = .session none :=
    admission_session rfl rfl rfl (by decide +kernel) (by decide +kernel) rfl rfl
  have hrun : (Server.system resumableConfig).Run (.new resumableConfig)
      [.arrive ⟨[], []⟩, .handler 0 .check, .handler 0 .spend, .handler 0 .route,
        .handler 0 (.claim .run), .handler 0 (.claim .run), .handler 0 (.claim .launchOk),
        .handler 0 (.claimed true none), .handler 0 (.upgraded ⟨0, none⟩),
        .profiles (.dropOff ⟨[], [], []⟩ (some "p")), .arrive ⟨[("profileToken", "p")], []⟩,
        .handler 1 .check, .handler 1 .spend, .handler 1 .route, .handler 1 .claimProfile] _ :=
    .cons .arrive <|
      .cons (.handler rfl (.admitted hplain)) <|
      .cons (.handler rfl (.unlimited rfl)) <|
      .cons (.handler rfl (.routePool rfl .spawn)) <|
      .cons (.handler rfl (.claim rfl (.claim rfl (.tryAcquireOk rfl)))) <|
      .cons (.handler rfl (.claim rfl (.claim rfl (.noWarm rfl rfl)))) <|
      .cons (.handler rfl (.claim rfl (.claim rfl .launchOk))) <|
      .cons (.handler rfl (.claimed rfl)) <|
      .cons (.handler rfl .poolUpgraded) <|
      .cons (.profiles rfl (.dropOff fun _ _ => List.not_mem_nil)) <|
      .cons .arrive <|
      .cons (.handler rfl (.admitted (admission_session rfl rfl rfl (by decide +kernel)
        (by decide +kernel) rfl rfl))) <|
      .cons (.handler rfl (.unlimited rfl)) <|
      .cons (.handler rfl (.routeProfile rfl .arrive)) <|
      .single (.handler rfl (.profileClaimed (.request (i := 0) rfl (.claimed hclaim)) rfl))
  refine ⟨_, hrun.reachable (.init rfl), rfl, rfl, ?_⟩
  intro hinside
  exact absurd (show 2 ≤ 1 from hinside) (by decide)

end BrowserServe
