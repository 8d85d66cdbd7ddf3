import BrowserServe.PoolCeiling
import BrowserServe.ServerStep

namespace BrowserServe
open Library
set_option autoImplicit true

namespace ServerHub

variable (h : ServerHub) (spentGuard : Bool)

@[simp] theorem dropGuard_pool : (h.dropGuard spentGuard).state.pool = h.state.pool := by
  cases spentGuard <;> rfl

@[simp] theorem dropGuard_profiles :
    (h.dropGuard spentGuard).state.profiles = h.state.profiles := by
  cases spentGuard <;> rfl

@[simp] theorem dropGuard_resume : (h.dropGuard spentGuard).state.resume = h.state.resume := by
  cases spentGuard <;> rfl

@[simp] theorem dropGuard_calibrating :
    (h.dropGuard spentGuard).state.calibrating = h.state.calibrating := by
  cases spentGuard <;> rfl

@[simp] theorem dropGuard_calibration :
    (h.dropGuard spentGuard).calibration = h.calibration := by
  cases spentGuard <;> rfl

@[simp] theorem dropGuard_relayed : (h.dropGuard spentGuard).relayed = h.relayed := by
  cases spentGuard <;> rfl

@[simp] theorem dropGuard_takers : (h.dropGuard spentGuard).takers = h.takers := by
  cases spentGuard <;> rfl

@[simp] theorem dropGuard_given : (h.dropGuard spentGuard).given = h.given := by
  cases spentGuard <;> rfl

@[simp] theorem dropGuard_sent : (h.dropGuard spentGuard).sent = h.sent := by
  cases spentGuard <;> rfl

end ServerHub

/-- What a handler does to the pool is a step of the pool, and it never resizes it. -/
theorem HandlerStep.pool (h : HandlerStep options i request hub phase e hub' phase') :
    hub'.state.pool = hub.state.pool ∨
      ∃ a, a.resizes = false ∧ Pool.Step options hub.state.pool a hub'.state.pool := by
  cases h with
  | routePool _ hp => exact .inr ⟨_, rfl, hp⟩
  | claim _ hp => exact .inr ⟨_, rfl, hp⟩
  | claimDropped _ hp =>
    rw [ServerHub.dropGuard_pool]
    exact .inr ⟨_, rfl, hp⟩
  | noTransport _ hp =>
    rw [ServerHub.dropGuard_pool]
    exact .inr ⟨_, rfl, hp⟩
  | poolUpgradeFailed hp =>
    rw [ServerHub.dropGuard_pool]
    exact .inr ⟨_, rfl, hp⟩
  | poolServed _ hp => exact .inr ⟨_, rfl, hp⟩
  | _ => first | exact .inl rfl | exact .inl (ServerHub.dropGuard_pool _ _)

theorem HandlerStep.resume (h : HandlerStep options i request hub phase e hub' phase') :
    hub'.state.resume = hub.state.resume ∨
      ∃ r a r', hub.state.resume = some r ∧ Resume.Step r a r' ∧
        hub'.state.resume = some r' := by
  cases h with
  | unknownToken hr _ hs => exact .inr ⟨_, _, _, hr, hs, rfl⟩
  | resumed hr _ hs => exact .inr ⟨_, _, _, hr, hs, rfl⟩
  | poolUpgradedResumable hr hs => exact .inr ⟨_, _, _, hr, hs, rfl⟩
  | loadedResumable hr hs => exact .inr ⟨_, _, _, hr, hs, rfl⟩
  | _ => first | exact .inl rfl | exact .inl (ServerHub.dropGuard_resume _ _)

theorem HandlerStep.calibration (h : HandlerStep options i request hub phase e hub' phase') :
    hub'.calibration = hub.calibration ∧ hub'.state.calibrating = hub.state.calibrating := by
  cases h with
  | _ =>
    first
    | exact ⟨rfl, rfl⟩
    | exact ⟨ServerHub.dropGuard_calibration _ _, ServerHub.dropGuard_calibrating _ _⟩

/-- A handler that has come through the checks and has not ended. -/
@[simp] def HandlerPhase.Passed : HandlerPhase → Prop
  | .start | .resuming _ | .over => False
  | _ => True

theorem admission_calibrating {state : AppState} (h : admission state request = .session proxy) :
    state.calibrating = false := by
  unfold admission at h
  split at h
  · cases h
  · split at h
    · cases h
    · split at h
      · cases h
      · simp only at h
        split at h
        · cases h
        · split at h
          · cases h
          · split at h
            · cases h
            · split at h
              · cases h
              · next hcal => simpa using hcal

/-- A request that none of the checks refuses goes on to `take_single_use`. -/
theorem admission_session {state : AppState} (hauth : checkAuth state request = true)
    (hresume : request.query.lookup "resume" = none)
    (hproxy : requestedProxy state request.headers = .ok proxy)
    (hcpu : ¬ state.pressure.maxCpuPercent < state.gauge.snapshot.1)
    (hmemory : ¬ state.pressure.maxMemoryPercent < state.gauge.snapshot.2)
    (hthreads : state.threads.filter (fun usage => !usage.fitsASession) = none)
    (hcal : state.calibrating = false) : admission state request = .session proxy := by
  simp only [admission, hauth, hresume, hproxy, hthreads, hcal, if_neg hcpu, if_neg hmemory]
  rfl

/-- Only a handler that has passed touches the pool, and none passes while the server
calibrates. -/
theorem HandlerStep.gated (h : HandlerStep options i request hub phase e hub' phase')
    (hphase : ¬ phase.Passed) :
    hub'.state.pool = hub.state.pool ∧ (phase'.Passed → hub.state.calibrating = false) := by
  cases h with
  | admitted ha => exact ⟨rfl, fun _ => admission_calibrating ha⟩
  | unpolled => exact ⟨rfl, False.elim⟩
  | refused => exact ⟨rfl, False.elim⟩
  | resuming => exact ⟨rfl, False.elim⟩
  | notResumable => exact ⟨rfl, False.elim⟩
  | unknownToken => exact ⟨rfl, False.elim⟩
  | resumed => exact ⟨rfl, False.elim⟩
  | _ => exact absurd trivial hphase

theorem Pool.Step.resizing (h : Pool.Step options s a t) (ha : a.resizes = false) :
    t.resizing = s.resizing := by
  cases h with
  | swapMax => cases ha
  | adjustPermits => cases ha
  | _ => rfl

theorem Pool.Step.noClaims (h : Pool.Step options s a t) (ha : ∀ kind, a ≠ .spawn kind)
    (hs : s.claims = []) : t.claims = [] := by
  cases h with
  | spawn => exact absurd rfl (ha _)
  | claim hc _ =>
    rw [hs] at hc
    cases hc
  | _ => exact hs

theorem Action.resizes_of_background (h : Action.background a = true) : a.resizes = false := by
  cases a with
  | swapMax => cases h
  | adjustPermits => cases h
  | _ => rfl

/-- The calibration and what it holds back. -/
structure Server.Calibrates (s : Server) : Prop where
  closed : s.hub.calibration ≠ .finished → s.hub.state.calibrating = true
  resizing : s.hub.state.pool.resizing ≠ none → s.hub.calibration = .swapped
  claims : s.hub.state.calibrating = true → s.hub.state.pool.claims = []
  handlers : s.hub.state.calibrating = true → ∀ handler ∈ s.handlers, ¬ handler.phase.Passed

theorem Server.Calibrates.of_pool {s : Server} (hs : s.Calibrates) (ha : a.resizes = false)
    (hspawn : ∀ kind, a ≠ .spawn kind) (h : Pool.Step options s.hub.state.pool a pool)
    (hub : ServerHub) (hpool : hub.state.pool = pool) (hcal : hub.calibration = s.hub.calibration)
    (hopen : hub.state.calibrating = s.hub.state.calibrating) :
    Server.Calibrates ⟨hub, s.handlers⟩ where
  closed := by
    rw [hcal, hopen]
    exact hs.closed
  resizing := by
    rw [hpool, hcal, h.resizing ha]
    exact hs.resizing
  claims := by
    rw [hpool, hopen]
    exact fun hc => h.noClaims hspawn (hs.claims hc)
  handlers := by
    rw [hopen]
    exact hs.handlers

theorem Server.Step.calibrates (h : Server.Step options s a t) (hs : s.Calibrates) :
    t.Calibrates := by
  cases h with
  | arrive =>
    refine ⟨hs.closed, hs.resizing, hs.claims, fun hc => ?_⟩
    exact forall_mem_append_single id (hs.handlers hc)
  | handler hi h =>
    obtain ⟨hcal, hopen⟩ := h.calibration
    refine ⟨?_, ?_, ?_, ?_⟩
    · rw [hcal, hopen]
      exact hs.closed
    · rw [hcal]
      rcases h.pool with heq | ⟨a, ha, hp⟩
      · rw [heq]
        exact hs.resizing
      · rw [hp.resizing ha]
        exact hs.resizing
    · rw [hopen]
      intro hc
      rw [(h.gated (hs.handlers hc _ (List.mem_of_getElem? hi))).1]
      exact hs.claims hc
    · rw [hopen]
      intro hc
      apply forall_mem_set _ (hs.handlers hc)
      intro hpassed
      have hopened := (h.gated (hs.handlers hc _ (List.mem_of_getElem? hi))).2 hpassed
      rw [hc] at hopened
      cases hopened
  | pool ha h =>
    refine hs.of_pool ?_ ?_ h _ rfl rfl rfl
    · exact Action.resizes_of_background ha
    · rintro kind rfl
      cases ha
  | profiles => exact ⟨hs.closed, hs.resizing, hs.claims, hs.handlers⟩
  | resume => exact ⟨hs.closed, hs.resizing, hs.claims, hs.handlers⟩
  | sample => exact ⟨hs.closed, hs.resizing, hs.claims, hs.handlers⟩
  | calibrated hc h =>
    have hclosed := hs.closed (by rw [hc]; decide)
    refine ⟨fun _ => hclosed, fun _ => rfl, fun _ => ?_, hs.handlers⟩
    exact h.noClaims (fun _ heq => by cases heq) (hs.claims hclosed)
  | adjusted hc h =>
    have hclosed := hs.closed (by rw [hc]; decide)
    refine ⟨fun _ => hclosed, fun hr => ?_, fun _ => ?_, hs.handlers⟩
    · cases h
      exact absurd rfl hr
    · exact h.noClaims (fun _ heq => by cases heq) (hs.claims hclosed)
  | opened hc =>
    refine ⟨fun hne => absurd rfl hne, fun hr => ?_, ?_, ?_⟩
    · have hswapped := hs.resizing hr
      rw [hc] at hswapped
      cases hswapped
    · intro hopen
      cases hopen
    · intro hopen
      cases hopen
  | signal => exact ⟨hs.closed, hs.resizing, hs.claims, hs.handlers⟩
  | shutdown _ _ h => exact hs.of_pool rfl (fun _ heq => by cases heq) h _ rfl rfl rfl
  | cancel => exact ⟨hs.closed, hs.resizing, hs.claims, hs.handlers⟩

theorem Server.calibrates (h : (Server.system config).Reachable s) : s.Calibrates := by
  apply h.invariant ?_ fun _ _ _ _ hi hs => hs.calibrates hi
  rintro _ rfl
  refine ⟨fun hne => ?_, fun hr => absurd rfl hr, fun _ => rfl, fun _ _ hm => by cases hm⟩
  by_cases hcal : config.willCalibrate = true
  · exact hcal
  · simp [Server.new, hcal] at hne

/-- What a step of the server does to the pool is a step of the pool or nothing. -/
theorem Server.Step.pool_cases (h : Server.Step options s a t) :
    t.hub.state.pool = s.hub.state.pool ∨
      ∃ a, Pool.Step options s.hub.state.pool a t.hub.state.pool := by
  cases h with
  | handler _ h =>
    rcases h.pool with heq | ⟨a, _, hp⟩
    · exact .inl heq
    · exact .inr ⟨a, hp⟩
  | pool _ h => exact .inr ⟨_, h⟩
  | calibrated _ h => exact .inr ⟨_, h⟩
  | adjusted _ h => exact .inr ⟨_, h⟩
  | shutdown _ _ h => exact .inr ⟨_, h⟩
  | _ => exact .inl rfl

/-- The server's pool goes through the states of a pool that is resized behind the calibration
gate only. -/
theorem Server.pool_reachable (h : (Server.system config).Reachable s) :
    (Pool.gatedSystem config.options).Reachable s.hub.state.pool := by
  apply Pool.calibration_gate
  induction h with
  | init hs =>
    cases hs
    exact .init rfl
  | @step s a t hr hs ih =>
    have hcal := hs.calibrates (Server.calibrates hr)
    rcases hs.pool_cases with heq | ⟨a, hp⟩
    · rw [heq]
      exact ih
    · apply ih.step ⟨hp, fun hresizing => ?_⟩
      have hswapped := hcal.resizing hresizing
      exact hcal.claims (hcal.closed (by rw [hswapped]; decide))

theorem Server.Step.resume_cases (h : Server.Step options s a t) :
    t.hub.state.resume = s.hub.state.resume ∨
      ∃ r a r', s.hub.state.resume = some r ∧ Resume.Step r a r' ∧
        t.hub.state.resume = some r' := by
  cases h with
  | handler _ h => exact h.resume
  | resume _ hr h => exact .inr ⟨_, _, _, hr, h, rfl⟩
  | cancel =>
    cases hr : s.hub.state.resume with
    | none => exact .inl rfl
    | some r => exact .inr ⟨r, _, _, rfl, .shutdown, rfl⟩
  | _ => exact .inl rfl

/-- The server's registry and its tasks go through the states of `Resume.system`. -/
theorem Server.resume_reachable (h : (Server.system config).Reachable s)
    (hr : s.hub.state.resume = some r) : (Resume.system config.resumeWindow).Reachable r := by
  induction h generalizing r with
  | init hs =>
    cases hs
    simp only [Server.new, AppState.new] at hr
    split at hr
    · cases hr
      exact .init rfl
    · cases hr
  | step _ hs ih =>
    rcases hs.resume_cases with heq | ⟨r₀, a, r', hr₀, hstep, hr'⟩
    · exact ih (heq ▸ hr)
    · cases hr'.symm.trans hr
      exact (ih hr₀).step hstep

end BrowserServe
