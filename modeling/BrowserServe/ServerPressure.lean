import BrowserServe.ServerHttp
import BrowserServe.ServerParts

namespace BrowserServe
open Library
set_option autoImplicit true

/-- The claim waits in the queue or for a launch. -/
def ClaimPhase.parked : ClaimPhase → Bool
  | .waiting _ | .launching => true
  | _ => false

/-- A claim that nothing else comes between fails, without a wait or a launch. -/
inductive ClaimRefuses (options : PoolOptions) (i : Nat) (kind : ClaimKind) :
    Inner → ClaimPhase → ClaimError → Prop
  | failed : ClaimRefuses options i kind p (.failed e) e
  | step (hp : phase.parked = false) (hs : ClaimStep options i kind p phase .run p' phase')
      (hr : ClaimRefuses options i kind p' phase' e) : ClaimRefuses options i kind p phase e

/-- What a request does by itself, up to its answer, before it is given a browser. -/
def HandlerEvent.admits : HandlerEvent → Bool
  | .check | .spend | .route | .claimFailed => true
  | .claim e => e = .run
  | _ => false

def HandlerPhase.hasClaim : HandlerPhase → Bool
  | .claiming _ _ _ => true
  | _ => false

def HandlerPhase.Parked (h : ServerHub) (phase : HandlerPhase) : Prop :=
  ∃ c relay spentGuard claim, phase = .claiming c relay spentGuard ∧
    h.state.pool.claims[c]? = some claim ∧ claim.phase.parked = true

/-- A request that nothing else comes between is answered before it is given a browser, without a
wait or a launch. -/
inductive Refuses (options : PoolOptions) (i : Nat) (request : WsRequest) :
    ServerHub → HandlerPhase → Response → Prop
  | answered (hp : ¬phase.Parked h) (he : e.admits = true)
      (hs : HandlerStep options i request h phase e h' .over)
      (hr : h'.sent = (i, response) :: h.sent) : Refuses options i request h phase response
  | step (hp : ¬phase.Parked h) (he : e.admits = true)
      (hs : HandlerStep options i request h phase e h' phase')
      (hr : Refuses options i request h' phase' response) :
          Refuses options i request h phase response

section
variable {options : PoolOptions} {i c : Nat} {kind : ClaimKind} {p : Inner} {phase : ClaimPhase}
  {e : ClaimError}

/-- A claim with a permit gets a browser or launches one. -/
def ClaimPhase.permitted : ClaimPhase → Bool
  | .holding | .popped _ | .launching | .claimed _ => true
  | _ => false

theorem ClaimRefuses.not_permitted (h : ClaimRefuses options i kind p phase e) :
    phase.permitted = false := by
  induction h with
  | failed => rfl
  | step hp hs _ ih =>
    cases hs with
    | popWarm => cases ih
    | noWarm => cases ih
    | launchDedicated => cases ih
    | warmAlive => cases ih
    | warmDead => cases ih
    | _ => rfl

theorem not_claimRefuses_waiting {started : Nat} :
    ¬ClaimRefuses options i kind p (.waiting started) e := by
  intro h
  cases h with
  | step hp => cases hp

theorem claimRefuses_counted {queued : Nat} (hopen : p.semaphore.closed = false)
    (hpermits : p.semaphore.permits = 0) :
    (∃ e, ClaimRefuses options i kind p (.counted queued) e) ↔ options.maxQueue < queued := by
  have hnone : p.semaphore.tryAcquire = .error .noPermits := by
    rw [Semaphore.tryAcquire, hopen, hpermits]
    rfl
  constructor
  · rintro ⟨e, h⟩
    cases h with
    | step _ hs hr =>
      cases hs with
      | queueFull hfull => exact hfull
      | acquireOk _ hok => rw [hnone] at hok; cases hok
      | acquireClosed _ hclosed => rw [hnone] at hclosed; cases hclosed
      | acquirePending => exact absurd hr not_claimRefuses_waiting
  · intro hfull
    exact ⟨_, .step rfl (.queueFull hfull) (.step rfl .refused .failed)⟩

/-- A claim is refused at once where the pool is closed, or all is taken and the queue full. -/
theorem claimRefuses_start : (∃ e, ClaimRefuses options i kind p .start e) ↔
    p.semaphore.closed = true ∨ (p.semaphore.permits = 0 ∧ options.maxQueue < p.waiting + 1) := by
  by_cases hclosed : p.semaphore.closed = true
  · have herror : p.semaphore.tryAcquire = .error .closed := by
      rw [Semaphore.tryAcquire, if_pos hclosed]
    exact iff_of_true ⟨_, .step rfl (.tryAcquireClosed herror) .failed⟩ (.inl hclosed)
  · have hopen : p.semaphore.closed = false := Bool.eq_false_iff.mpr hclosed
    rw [or_iff_right hclosed]
    by_cases hpermits : p.semaphore.permits = 0
    · have hnone : p.semaphore.tryAcquire = .error .noPermits := by
        rw [Semaphore.tryAcquire, hopen, hpermits]
        rfl
      have hcounted : (∃ e, ClaimRefuses options i kind { p with waiting := p.waiting + 1 }
          (.counted (p.waiting + 1)) e) ↔ options.maxQueue < p.waiting + 1 :=
        claimRefuses_counted hopen hpermits
      rw [and_iff_right hpermits, ← hcounted]
      constructor
      · rintro ⟨e, h⟩
        cases h with
        | step _ hs hr =>
          cases hs with
          | tryAcquireOk hok => rw [hnone] at hok; cases hok
          | tryAcquireClosed herror => rw [hnone] at herror; cases herror
          | tryAcquireNoPermits =>
            cases hr with
            | step _ hs hr =>
              cases hs with
              | fetchAdd => exact ⟨e, hr⟩
      · rintro ⟨e, h⟩
        exact ⟨e, .step rfl (.tryAcquireNoPermits hnone) (.step rfl .fetchAdd h)⟩
    · apply iff_of_false
      · rintro ⟨e, h⟩
        cases h with
        | step _ hs hr =>
          cases hs with
          | tryAcquireOk => cases hr.not_permitted
          | tryAcquireClosed herror =>
            rw [Semaphore.tryAcquire, if_neg hclosed, if_neg hpermits] at herror
            cases herror
          | tryAcquireNoPermits herror =>
            rw [Semaphore.tryAcquire, if_neg hclosed, if_neg hpermits] at herror
            cases herror
      · rintro ⟨hzero, _⟩
        exact hpermits hzero

end

section
variable {options : PoolOptions} {i c : Nat} {request : WsRequest} {h : ServerHub}
  {phase : HandlerPhase} {relay spentGuard : Bool} {response : Response}

theorem not_refuses_over : ¬Refuses options i request h .over response := by
  intro hr
  cases hr with
  | answered _ _ hs => cases hs
  | step _ _ hs => cases hs

theorem Refuses.claiming (hr : Refuses options i request h (.claiming c relay spentGuard) response)
    (hc : h.state.pool.claims[c]? = some claim) :
    ∃ e, ClaimRefuses options c claim.kind h.state.pool.inner claim.phase e := by
  generalize hphase : HandlerPhase.claiming c relay spentGuard = phase at hr
  induction hr generalizing claim with
  | answered hp he hs hr =>
    cases hphase
    cases hs with
    | claimFailed hfailed =>
      rw [hc] at hfailed
      cases hfailed
      exact ⟨_, .failed⟩
    | claimDropped => cases he
    | noTransport => cases he
  | step hp he hs hr ih =>
    cases hphase
    cases hs with
    | claim _ hpool =>
      have hrun := of_decide_eq_true he
      cases hrun
      cases hpool with
      | claim hc' hclaim =>
        rw [hc] at hc'
        cases hc'
        have hparked : claim.phase.parked = false := by
          apply Bool.eq_false_iff.mpr
          intro hparked
          exact hp ⟨c, relay, spentGuard, claim, rfl, hc, hparked⟩
        have hlt := (List.getElem?_eq_some_iff.mp hc).1
        obtain ⟨e, he⟩ := ih (List.getElem?_set_self hlt) rfl
        exact ⟨e, .step hparked hclaim he⟩
    | claimFailed => exact absurd hr not_refuses_over
    | claimDropped => cases he
    | noTransport => cases he
    | claimed => cases he

theorem not_parked (hphase : phase.hasClaim = false) : ¬phase.Parked h := by
  rintro ⟨c, relay, spentGuard, _, rfl, _⟩
  cases hphase

theorem not_parked_claiming {claim : Claim} (hc : h.state.pool.claims[c]? = some claim)
    (hparked : claim.phase.parked = false) :
    ¬(HandlerPhase.claiming c relay spentGuard).Parked h := by
  rintro ⟨c', _, _, other, hphase, hc', hparked'⟩
  cases hphase
  rw [hc] at hc'
  cases hc'
  rw [hparked] at hparked'
  cases hparked'

/-- A step of its claim is a step of the request. -/
theorem HandlerStep.of_claim {p : Inner} {claimPhase claimPhase' : ClaimPhase} {kind : ClaimKind}
    (hs : ClaimStep options c kind h.state.pool.inner claimPhase .run p claimPhase')
    (hc : h.state.pool.claims[c]? = some ⟨kind, claimPhase⟩) :
    ∃ h', HandlerStep options i request h (.claiming c relay spentGuard) (.claim .run) h'
        (.claiming c relay spentGuard) ∧
      h'.state.pool.inner = p ∧ h'.state.pool.claims[c]? = some ⟨kind, claimPhase'⟩ := by
  have hlt := (List.getElem?_eq_some_iff.mp hc).1
  exact ⟨_, .claim rfl (.claim hc hs), rfl, List.getElem?_set_self hlt⟩

theorem ClaimRefuses.refuses {p : Inner} {claimPhase : ClaimPhase} {e : ClaimError}
    {kind : ClaimKind} (hr : ClaimRefuses options c kind p claimPhase e)
    (hp : h.state.pool.inner = p) (hc : h.state.pool.claims[c]? = some ⟨kind, claimPhase⟩) :
    ∃ response, Refuses options i request h (.claiming c relay spentGuard) response := by
  induction hr generalizing h with
  | failed =>
    exact ⟨_, .answered (not_parked_claiming hc rfl) rfl (.claimFailed hc)
      (ServerHub.dropGuard_sent _ _)⟩
  | step hparked hs _ ih =>
    subst hp
    obtain ⟨h', hstep, hp', hc'⟩ := HandlerStep.of_claim (i := i) hs hc
    obtain ⟨response, hrest⟩ := ih hp' hc'
    exact ⟨response, .step (not_parked_claiming hc hparked) rfl hstep hrest⟩

/-- What a request comes to once all but the pool has let it through. -/
theorem refuses_routing (hprofile : request.query.lookup "profileToken" = none) :
    (∃ response, Refuses options i request h (.routing false spentGuard) response) ↔
      ∃ e, ClaimRefuses options h.state.pool.claims.length .claim h.state.pool.inner .start e := by
  constructor
  · rintro ⟨response, hr⟩
    cases hr with
    | answered _ he hs => cases hs
    | step _ he hs hr =>
      cases hs with
      | routeProfile htoken => rw [hprofile] at htoken; cases htoken
      | routePool _ hpool =>
        cases hpool with
        | spawn => exact hr.claiming List.getElem?_concat_length
  · rintro ⟨e, hr⟩
    let spawned := h.withPool
        { h.state.pool with claims := h.state.pool.claims ++ [⟨.claim, .start⟩] }
    have hclaims : ∃ response, Refuses options i request spawned
        (.claiming h.state.pool.claims.length false spentGuard) response :=
      hr.refuses rfl List.getElem?_concat_length
    obtain ⟨response, hrest⟩ := hclaims
    exact ⟨response, .step (not_parked rfl) rfl (.routePool hprofile .spawn) hrest⟩

theorem refuses_admitted (hprofile : request.query.lookup "profileToken" = none) :
    (∃ response, Refuses options i request h (.admitted none) response) ↔
      h.state.singleUse.any SingleUse.isSpent = true ∨
        ∃ e, ClaimRefuses options h.state.pool.claims.length .claim h.state.pool.inner .start
          e := by
  have hparked : ¬(HandlerPhase.admitted none).Parked h := not_parked rfl
  cases hsingle : h.state.singleUse with
  | none =>
    have hrouting : (∃ response, Refuses options i request h (.routing false false) response) ↔
        ∃ e, ClaimRefuses options h.state.pool.claims.length .claim h.state.pool.inner .start e :=
      refuses_routing hprofile
    rw [← hrouting]
    constructor
    · rintro ⟨response, hr⟩
      cases hr with
      | answered _ he hs => cases hs with
        | alreadySpent hs => rw [hsingle] at hs; cases hs
      | step _ he hs hr =>
        cases hs with
        | unlimited => exact .inr ⟨response, hr⟩
        | spent hs => rw [hsingle] at hs; cases hs
        | alreadySpent hs => rw [hsingle] at hs; cases hs
    · rintro (hspent | ⟨response, hr⟩)
      · cases hspent
      · exact ⟨response, .step hparked rfl (.unlimited hsingle) hr⟩
  | some single =>
    cases hspent : single.spent with
    | true =>
      have htry : single.trySpend = (false, single) := if_pos hspent
      exact iff_of_true ⟨_, .answered hparked rfl (.alreadySpent hsingle htry) rfl⟩ (.inl hspent)
    | false =>
      have htry : single.trySpend = (true, { single with spent := true }) :=
        if_neg (Bool.eq_false_iff.mp hspent)
      let taken : ServerHub := { h with
        state := { h.state with singleUse := some { single with spent := true } }
        takers := i :: h.takers }
      have hrouting : (∃ response, Refuses options i request taken (.routing false true) response) ↔
          ∃ e, ClaimRefuses options h.state.pool.claims.length .claim h.state.pool.inner .start e :=
        refuses_routing hprofile
      have hunspent : ¬(some single).any SingleUse.isSpent = true := by
        intro hany
        have hcontra : single.spent = true := hany
        rw [hspent] at hcontra
        cases hcontra
      rw [or_iff_right hunspent, ← hrouting]
      constructor
      · rintro ⟨response, hr⟩
        cases hr with
        | answered _ he hs => cases hs with
          | alreadySpent hs ht =>
            rw [hsingle] at hs
            cases hs
            rw [htry] at ht
            cases ht
        | step _ he hs hr =>
          cases hs with
          | unlimited hs => rw [hsingle] at hs; cases hs
          | spent hs ht =>
            rw [hsingle] at hs
            cases hs
            rw [htry] at ht
            cases ht
            exact ⟨response, hr⟩
          | alreadySpent => exact absurd hr not_refuses_over
      · rintro ⟨response, hr⟩
        exact ⟨response, .step hparked rfl (.spent hsingle htry) hr⟩

/-- The request has leave to connect, and asks for no more than a browser. -/
structure WsRequest.Plain (request : WsRequest) (state : AppState) : Prop where
  authorised : checkAuth state request = true
  resume : request.query.lookup "resume" = none
  proxy : request.headers.lookup PROXY_HEADER = none
  profile : request.query.lookup "profileToken" = none

/-- The checks before the single use let nothing through. -/
def AppState.Overloaded (state : AppState) : Prop :=
  state.pressure.maxCpuPercent < state.gauge.snapshot.1 ∨
    state.pressure.maxMemoryPercent < state.gauge.snapshot.2 ∨
    state.threads.any (!·.fitsASession) = true ∨ state.calibrating = true

theorem admission_plain {state : AppState} (hplain : request.Plain state) :
    ((∃ response, admission state request = .refused response) ∧ state.Overloaded) ∨
      (admission state request = .session none ∧ ¬state.Overloaded) := by
  have hproxy : requestedProxy state request.headers = .ok none := by
    simp only [requestedProxy, hplain.proxy]
  simp only [admission, hplain.authorised, hplain.resume, hproxy, Bool.not_true, Bool.false_eq_true,
    if_false, AppState.Overloaded]
  by_cases hcpu : state.pressure.maxCpuPercent < state.gauge.snapshot.1
  · exact .inl ⟨⟨_, if_pos hcpu⟩, .inl hcpu⟩
  · rw [if_neg hcpu, or_iff_right hcpu]
    by_cases hmemory : state.pressure.maxMemoryPercent < state.gauge.snapshot.2
    · exact .inl ⟨⟨_, if_pos hmemory⟩, .inl hmemory⟩
    · rw [if_neg hmemory, or_iff_right hmemory]
      by_cases hthreads : state.threads.any (!·.fitsASession) = true
      · cases hsome : state.threads with
        | none => rw [hsome] at hthreads; cases hthreads
        | some threads =>
          rw [hsome] at hthreads
          have hfilter : (some threads).filter (!·.fitsASession) = some threads := if_pos hthreads
          rw [hfilter]
          exact .inl ⟨⟨_, rfl⟩, .inl hthreads⟩
      · have hfilter : state.threads.filter (!·.fitsASession) = none := by
          cases hsome : state.threads with
          | none => rfl
          | some threads =>
            rw [hsome] at hthreads
            exact if_neg hthreads
        rw [hfilter, or_iff_right hthreads]
        by_cases hcalibrating : state.calibrating = true
        · exact .inl ⟨⟨_, if_pos hcalibrating⟩, hcalibrating⟩
        · exact .inr ⟨if_neg hcalibrating, hcalibrating⟩

theorem refuses_start (hplain : request.Plain h.state) :
    (∃ response, Refuses options i request h .start response) ↔
      h.state.Overloaded ∨ h.state.singleUse.any SingleUse.isSpent = true ∨
        ∃ e, ClaimRefuses options h.state.pool.claims.length .claim h.state.pool.inner .start
          e := by
  have hparked : ¬HandlerPhase.start.Parked h := not_parked rfl
  rcases admission_plain hplain with ⟨⟨response, hrefused⟩, hover⟩ | ⟨hsession, hover⟩
  · exact iff_of_true ⟨response, .answered hparked rfl (.refused hrefused) rfl⟩ (.inl hover)
  · rw [or_iff_right hover, ← refuses_admitted (i := i) hplain.profile]
    constructor
    · rintro ⟨response, hr⟩
      cases hr with
      | answered _ he hs =>
        cases hs with
        | unpolled => cases he
        | refused hrefused => rw [hsession] at hrefused; cases hrefused
      | step _ he hs hr =>
        cases hs with
        | unpolled => cases he
        | refused hrefused => rw [hsession] at hrefused; cases hrefused
        | resuming hresume => rw [hsession] at hresume; cases hresume
        | admitted hadmitted =>
          rw [hsession] at hadmitted
          cases hadmitted
          exact ⟨response, hr⟩
    · rintro ⟨response, hr⟩
      exact ⟨response, .step hparked rfl (.admitted hsession) hr⟩

/-- `/pressure` gives a reason exactly where a connection would be turned away at once. -/
theorem pressure_reason_agrees (options : PoolOptions) (f : ChromeFactory) (cells : SandboxCells)
    (h : ServerHub) (i : Nat) (request : WsRequest) (hplain : request.Plain h.state)
    (hmax : 1 ≤ h.state.pool.inner.maxSessions)
    (hsandbox : f.sandboxRequiredButUnavailable cells = false) :
    (∃ response, Refuses options i request h .start response) ↔
      (pressureReason options f cells h.state).1 ≠ "" := by
  have haccepting : (h.state.pool.inner.stats options).accepting =
      !h.state.pool.inner.semaphore.closed := rfl
  have hgate : gate f cells h.state (h.state.pool.inner.stats options).accepting ≠ .isOpen ↔
      h.state.singleUse.any SingleUse.isSpent = true ∨
        h.state.pool.inner.semaphore.closed = true ∨ h.state.calibrating = true := by
    rw [ne_eq, gate_eq_isOpen, and_iff_right hsandbox, haccepting]
    simp only [not_and_or, Bool.not_eq_false, Bool.not_eq_true']
  rw [refuses_start hplain, claimRefuses_start, pressureReason, unavailableReason_ne_empty]
  simp only [hgate, AppState.Overloaded]
  by_cases hclosed : h.state.pool.inner.semaphore.closed = true
  · exact iff_of_true (.inr (.inr (.inl hclosed))) (.inl (.inr (.inl hclosed)))
  · rw [Inner.stats_full hmax (Bool.eq_false_iff.mpr hclosed)]
    tauto

/-- A server of one session, which is in use, while nobody waits. -/
def fullConfig (maxQueue : Nat) : LoadedConfig :=
  { LoadedConfig.default 4 with maxSessions := some 1, calibrate := false, maxQueue }

def fullHub (maxQueue : Nat) : ServerHub :=
  let hub := (Server.new (fullConfig maxQueue).toRuntimeConfig).hub
  let inner := { hub.state.pool.inner with semaphore := ⟨0, [], [], false⟩ }
  hub.withPool { hub.state.pool with inner }

/-- A connection is turned away at once where there is no queue, and waits where there is. -/
theorem pressure_reason_agrees_full :
    (∃ response, Refuses (fullConfig 0).options 0 ⟨[], []⟩ (fullHub 0) .start response) ∧
      ¬∃ response, Refuses (fullConfig 10).options 0 ⟨[], []⟩ (fullHub 10) .start response := by
  have hplain : ∀ maxQueue, WsRequest.Plain ⟨[], []⟩ (fullHub maxQueue).state :=
    fun _ => ⟨rfl, rfl, rfl, rfl⟩
  have hagrees := fun maxQueue => pressure_reason_agrees (fullConfig maxQueue).options
    (ChromeFactory.new (fullConfig maxQueue) FactoryHost.plain) ⟨false, false⟩ (fullHub maxQueue) 0
    _ (hplain maxQueue) (Nat.le_refl 1) rfl
  rw [hagrees 0, hagrees 10]
  decide +kernel

end

end BrowserServe
