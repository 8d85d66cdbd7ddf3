import BrowserServe.PoolRest
import BrowserServe.ResumeRest
import BrowserServe.ServerParts

namespace BrowserServe
open Library
set_option autoImplicit true

/-- What a request has: its claim of the pool or its request to the profile store. -/
@[simp] def HandlerPhase.held : HandlerPhase → Option Held
  | .claiming c _ _ => some (.pool c)
  | .profiling r _ _ | .creating r _ _ | .seeding r _ _ _ | .capturing r _ _ => some (.profile r)
  | .upgrading held _ _ | .serving held _ _ | .destroying held _ => some held
  | _ => none

/-- A claim whose future is still waited for, with what it has returned. -/
@[simp] def ClaimPhase.Awaited : ClaimPhase → Prop
  | .leaving .dropped | .orphaned _ | .destroying _ _ | .releasing | .finished | .cancelled
  | .abandoned _ => False
  | _ => True

@[simp] def ClaimPhase.Claimed : ClaimPhase → Prop
  | .claimed _ => True
  | _ => False

@[simp] def ClaimPhase.Destroying : ClaimPhase → Prop
  | .destroying _ _ | .releasing | .finished => True
  | _ => False

/-- A claim that comes to its end without its request. -/
@[simp] def ClaimPhase.Released : ClaimPhase → Prop
  | .leaving .dropped | .orphaned _ | .destroying _ _ | .releasing | .finished | .failed _
  | .cancelled | .abandoned _ => True
  | _ => False

namespace ServerHub

def ClaimIs (h : ServerHub) (c : Nat) (P : ClaimPhase → Prop) : Prop :=
  ∃ claim, h.state.pool.claims[c]? = some claim ∧ P claim.phase

def RequestIs (h : ServerHub) (r : Nat) (phase : RequestPhase) : Prop :=
  ∃ token, h.state.profiles.requests[r]? = some ⟨token, phase⟩

/-- The session has its `resume::serve`, if it is to have one. -/
def HasTask (h : ServerHub) (task : Option Nat) : Prop :=
  ∀ k, task = some k → ∃ r, h.state.resume = some r ∧ k < r.sessions.length

/-- What is held is no claim and no request yet. -/
def Fresh (h : ServerHub) : Held → Prop
  | .pool c => h.state.pool.claims.length ≤ c
  | .profile r => h.state.profiles.requests.length ≤ r

end ServerHub

/-- What a request has stands where the request does. -/
def HandlerPhase.Fits (hub : ServerHub) : HandlerPhase → Prop
  | .claiming c _ _ => hub.ClaimIs c ClaimPhase.Awaited
  | .profiling r _ _ => hub.RequestIs r .arriving
  | .creating r _ _ => hub.RequestIs r .launching
  | .upgrading (.pool c) _ _ => hub.ClaimIs c ClaimPhase.Claimed
  | .upgrading (.profile r) _ _ => hub.RequestIs r .upgrading
  | .seeding r _ _ _ => hub.RequestIs r .running
  | .serving (.pool c) task _ => hub.ClaimIs c ClaimPhase.Claimed ∧ hub.HasTask task
  | .serving (.profile r) task _ => hub.RequestIs r .running ∧ hub.HasTask task
  | .capturing r _ _ => hub.RequestIs r .running
  | .destroying (.pool c) _ => hub.ClaimIs c ClaimPhase.Destroying
  | .destroying (.profile r) _ => hub.RequestIs r .over
  | _ => True

/-- All claims, requests and sessions stay as they are, but for what is held. -/
structure ServerHub.KeepsOthers (h h' : ServerHub) (held : Option Held) : Prop where
  claims : ∀ c claim, h.state.pool.claims[c]? = some claim → held ≠ some (.pool c) →
    h'.state.pool.claims[c]? = some claim
  requests : ∀ (r : Nat) request, h.state.profiles.requests[r]? = some request →
    held ≠ some (.profile r) → h'.state.profiles.requests[r]? = some request
  tasks : ∀ r, h.state.resume = some r →
    ∃ r', h'.state.resume = some r' ∧ r.sessions.length ≤ r'.sessions.length

namespace ServerHub.KeepsOthers

variable {h h' : ServerHub} {held : Option Held}

theorem claimIs (hk : h.KeepsOthers h' held) (hc : h.ClaimIs c P) (hne : held ≠ some (.pool c)) :
    h'.ClaimIs c P := by
  obtain ⟨claim, hclaim, hphase⟩ := hc
  exact ⟨claim, hk.claims c claim hclaim hne, hphase⟩

theorem requestIs (hk : h.KeepsOthers h' held) (hr : h.RequestIs r phase)
    (hne : held ≠ some (.profile r)) : h'.RequestIs r phase := by
  obtain ⟨token, hrequest⟩ := hr
  exact ⟨token, hk.requests r _ hrequest hne⟩

theorem hasTask (hk : h.KeepsOthers h' held) (ht : h.HasTask task) : h'.HasTask task := by
  intro k hk'
  obtain ⟨r, hr, hlt⟩ := ht k hk'
  obtain ⟨r', hr', hle⟩ := hk.tasks r hr
  exact ⟨r', hr', Nat.lt_of_lt_of_le hlt hle⟩

/-- A request of which nothing moved still fits. -/
theorem fits (hk : h.KeepsOthers h' held) {phase : HandlerPhase} (hf : phase.Fits h)
    (hne : ∀ x, phase.held = some x → held ≠ some x) : phase.Fits h' := by
  cases phase with
  | claiming c relay spentGuard => exact hk.claimIs hf (hne _ rfl)
  | profiling r relay spentGuard => exact hk.requestIs hf (hne _ rfl)
  | creating r relay spentGuard => exact hk.requestIs hf (hne _ rfl)
  | upgrading x resumable spentGuard =>
    cases x with
    | pool c => exact hk.claimIs hf (hne _ rfl)
    | profile r => exact hk.requestIs hf (hne _ rfl)
  | seeding r socket resumable spentGuard => exact hk.requestIs hf (hne _ rfl)
  | serving x task spentGuard =>
    cases x with
    | pool c => exact ⟨hk.claimIs hf.1 (hne _ rfl), hk.hasTask hf.2⟩
    | profile r => exact ⟨hk.requestIs hf.1 (hne _ rfl), hk.hasTask hf.2⟩
  | capturing r run spentGuard => exact hk.requestIs hf (hne _ rfl)
  | destroying x spentGuard =>
    cases x with
    | pool c => exact hk.claimIs hf (hne _ rfl)
    | profile r => exact hk.requestIs hf (hne _ rfl)
  | _ => trivial

end ServerHub.KeepsOthers

/-- What a request has is there. -/
theorem HandlerPhase.Fits.not_fresh {phase : HandlerPhase} (h : phase.Fits hub)
    (hheld : phase.held = some x) : ¬ hub.Fresh x := by
  have hclaim : ∀ c P, hub.ClaimIs c P → ¬ hub.Fresh (.pool c) := by
    rintro c P ⟨claim, hc, _⟩ hfresh
    exact absurd (List.getElem?_eq_some_iff.1 hc).1 (Nat.not_lt_of_le hfresh)
  have hrequest : ∀ r p, hub.RequestIs r p → ¬ hub.Fresh (.profile r) := by
    rintro r p ⟨token, hr⟩ hfresh
    exact absurd (List.getElem?_eq_some_iff.1 hr).1 (Nat.not_lt_of_le hfresh)
  cases phase with
  | claiming c relay spentGuard =>
    cases hheld
    exact hclaim _ _ h
  | profiling r relay spentGuard =>
    cases hheld
    exact hrequest _ _ h
  | creating r relay spentGuard =>
    cases hheld
    exact hrequest _ _ h
  | upgrading x resumable spentGuard =>
    cases hheld
    cases x with
    | pool c => exact hclaim _ _ h
    | profile r => exact hrequest _ _ h
  | seeding r socket resumable spentGuard =>
    cases hheld
    exact hrequest _ _ h
  | serving x task spentGuard =>
    cases hheld
    cases x with
    | pool c => exact hclaim _ _ h.1
    | profile r => exact hrequest _ _ h.1
  | capturing r run spentGuard =>
    cases hheld
    exact hrequest _ _ h
  | destroying x spentGuard =>
    cases hheld
    cases x with
    | pool c => exact hclaim _ _ h
    | profile r => exact hrequest _ _ h
  | _ => cases hheld

/-- A step of one claim, taken apart. -/
theorem Pool.Step.claim_cases (h : Pool.Step options s (.claim c e) t) :
    ∃ claim phase, s.claims[c]? = some claim ∧
      ClaimStep options c claim.kind s.inner claim.phase e t.inner phase ∧
      t.claims = s.claims.set c ⟨claim.kind, phase⟩ := by
  cases h with
  | claim hc h => exact ⟨_, _, hc, h, rfl⟩

theorem ProfileServer.Step.request_cases (h : ProfileServer.Step s (.request r e) t) :
    ∃ token phase phase', s.requests[r]? = some ⟨token, phase⟩ ∧
      RequestStep s.now token s.store phase e t.store phase' ∧
      t.requests = s.requests.set r ⟨token, phase'⟩ := by
  cases h with
  | request hi h => exact ⟨_, _, _, hi, h, rfl⟩

theorem Pool.Step.other {c : Nat} {entry : Claim} (h : Pool.Step options s a t)
    (ha : ∀ e, a ≠ .claim c e) (hc : s.claims[c]? = some entry) : t.claims[c]? = some entry := by
  cases h with
  | spawn =>
    rw [List.getElem?_append_left (List.getElem?_eq_some_iff.1 hc).1]
    exact hc
  | @claim i _ e _ _ hi h =>
    have hne : i ≠ c := by
      rintro rfl
      exact ha e rfl
    rw [List.getElem?_set_ne hne]
    exact hc
  | _ => exact hc

theorem ProfileServer.Step.other {r : Nat} {entry : ProfileRequest}
    (h : ProfileServer.Step s a t) (ha : ∀ e, a ≠ .request r e)
    (hr : s.requests[r]? = some entry) : t.requests[r]? = some entry := by
  cases h with
  | arrive =>
    rw [List.getElem?_append_left (List.getElem?_eq_some_iff.1 hr).1]
    exact hr
  | @request _ i token phase phase' e store hi h =>
    have hne : i ≠ r := by
      rintro rfl
      exact ha e rfl
    rw [List.getElem?_set_ne hne]
    exact hr
  | _ => exact hr

theorem Resume.Step.sessions_le (h : Resume.Step s a t) :
    s.sessions.length ≤ t.sessions.length := by
  cases h with
  | start =>
    rw [List.length_append]
    exact Nat.le_add_right _ _
  | serve =>
    rw [List.length_set]
  | _ => exact Nat.le_refl _

theorem ProfileServer.Step.goes (h : ProfileServer.Step s (.request r e) t)
    (hto : ∀ now token store phase store' phase',
      RequestStep now token store phase e store' phase' → phase' = p) :
    ∃ token, t.requests[r]? = some ⟨token, p⟩ := by
  obtain ⟨token, phase, phase', hi, h, hrequests⟩ := h.request_cases
  cases hto _ _ _ _ _ _ h
  refine ⟨token, ?_⟩
  rw [hrequests, List.getElem?_set_self (List.getElem?_eq_some_iff.1 hi).1]

theorem ClaimStep.awaited (h : ClaimStep options i kind p phase e p' phase')
    (he : e.progresses = true) (hp : phase.Awaited) : phase'.Awaited := by
  cases h with
  | uncounted => exact hp.elim
  | destroySpawned => exact hp.elim
  | destroyed => exact hp.elim
  | addPermit => exact hp.elim
  | destroy => cases he
  | dropUnpolled => cases he
  | dropWaiting => cases he
  | dropLaunching => cases he
  | dropClaimed => cases he
  | dropDestroying => cases he
  | _ => trivial

theorem ClaimStep.not_claimed (h : ClaimStep options i kind p phase .run p' phase') :
    ¬ phase.Claimed := by
  cases h with
  | _ => exact id

theorem ClaimStep.destroy_called (h : ClaimStep options i kind p phase .destroy p' phase') :
    phase'.Destroying := by
  cases h
  trivial

theorem ClaimStep.destroying (h : ClaimStep options i kind p phase .run p' phase')
    (hp : phase.Destroying) : phase'.Destroying := by
  cases h with
  | destroyed => trivial
  | addPermit => trivial
  | _ => exact hp.elim

theorem ClaimStep.released (h : ClaimStep options i kind p phase .run p' phase')
    (hp : phase.Released) : phase'.Released := by
  cases h with
  | uncounted => trivial
  | destroySpawned => trivial
  | destroyed => trivial
  | addPermit => trivial
  | _ => exact hp.elim

namespace ServerHub.KeepsOthers

variable {h h' : ServerHub} {held : Option Held}

theorem same (hpool : h'.state.pool = h.state.pool)
    (hprofiles : h'.state.profiles = h.state.profiles)
    (hresume : h'.state.resume = h.state.resume) : h.KeepsOthers h' held where
  claims _ _ hc _ := hpool ▸ hc
  requests _ _ hr _ := hprofiles ▸ hr
  tasks r hr := ⟨r, hresume.trans hr, Nat.le_refl _⟩

theorem of_pool (hp : Pool.Step options h.state.pool a pool)
    (ha : ∀ c e, a = .claim c e → held = some (.pool c)) (hpool : h'.state.pool = pool)
    (hprofiles : h'.state.profiles = h.state.profiles)
    (hresume : h'.state.resume = h.state.resume) : h.KeepsOthers h' held where
  claims c _ hc hne := by
    rw [hpool]
    exact hp.other (fun e heq => hne (ha c e heq)) hc
  requests _ _ hr _ := hprofiles ▸ hr
  tasks r hr := ⟨r, hresume.trans hr, Nat.le_refl _⟩

theorem of_profiles (hp : ProfileServer.Step h.state.profiles a profiles)
    (ha : ∀ r e, a = .request r e → held = some (.profile r)) (hpool : h'.state.pool = h.state.pool)
    (hprofiles : h'.state.profiles = profiles)
    (hresume : h'.state.resume = h.state.resume) : h.KeepsOthers h' held where
  claims _ _ hc _ := hpool ▸ hc
  requests r _ hr hne := by
    rw [hprofiles]
    exact hp.other (fun e heq => hne (ha r e heq)) hr
  tasks r hr := ⟨r, hresume.trans hr, Nat.le_refl _⟩

theorem of_resume (hr : h.state.resume = some r) (hs : Resume.Step r a r')
    (hpool : h'.state.pool = h.state.pool) (hprofiles : h'.state.profiles = h.state.profiles)
    (hresume : h'.state.resume = some r') : h.KeepsOthers h' held where
  claims _ _ hc _ := hpool ▸ hc
  requests _ _ hr _ := hprofiles ▸ hr
  tasks r₀ hr₀ := by
    cases hr.symm.trans hr₀
    exact ⟨r', hresume, hs.sessions_le⟩

end ServerHub.KeepsOthers

/-- A section of a request moves nothing but what it has. -/
theorem HandlerStep.others (h : HandlerStep options i request hub phase e hub' phase') :
    hub.KeepsOthers hub' phase.held := by
  cases h with
  | unknownToken hr _ hs => exact .of_resume hr hs rfl rfl rfl
  | resumed hr _ hs => exact .of_resume hr hs rfl rfl rfl
  | routeProfile _ hp => exact .of_profiles hp (fun _ _ heq => nomatch heq) rfl rfl rfl
  | routePool _ hp => exact .of_pool hp (fun _ _ heq => nomatch heq) rfl rfl rfl
  | claim _ hp =>
    refine .of_pool hp ?_ rfl rfl rfl
    rintro c e ⟨⟩
    rfl
  | claimDropped _ hp =>
    refine .of_pool hp ?_ (ServerHub.dropGuard_pool _ _) (ServerHub.dropGuard_profiles _ _)
      (ServerHub.dropGuard_resume _ _)
    rintro c e ⟨⟩
    rfl
  | noTransport _ hp =>
    refine .of_pool hp ?_ (ServerHub.dropGuard_pool _ _) (ServerHub.dropGuard_profiles _ _)
      (ServerHub.dropGuard_resume _ _)
    rintro c e ⟨⟩
    rfl
  | poolUpgradeFailed hp =>
    refine .of_pool hp ?_ (ServerHub.dropGuard_pool _ _) (ServerHub.dropGuard_profiles _ _)
      (ServerHub.dropGuard_resume _ _)
    rintro c e ⟨⟩
    rfl
  | poolServed _ hp =>
    refine .of_pool hp ?_ rfl rfl rfl
    rintro c e ⟨⟩
    rfl
  | profileClaimed hp =>
    refine .of_profiles hp ?_ rfl rfl rfl
    rintro r e ⟨⟩
    rfl
  | profileUnknown hp =>
    refine .of_profiles hp ?_ (ServerHub.dropGuard_pool _ _) (ServerHub.dropGuard_profiles _ _)
      (ServerHub.dropGuard_resume _ _)
    rintro r e ⟨⟩
    rfl
  | created hp =>
    refine .of_profiles hp ?_ rfl rfl rfl
    rintro r e ⟨⟩
    rfl
  | createFailed hp =>
    refine .of_profiles hp ?_ (ServerHub.dropGuard_pool _ _) (ServerHub.dropGuard_profiles _ _)
      (ServerHub.dropGuard_resume _ _)
    rintro r e ⟨⟩
    rfl
  | createDropped hp =>
    refine .of_profiles hp ?_ (ServerHub.dropGuard_pool _ _) (ServerHub.dropGuard_profiles _ _)
      (ServerHub.dropGuard_resume _ _)
    rintro r e ⟨⟩
    rfl
  | poolUpgradedResumable hr hs => exact .of_resume hr hs rfl rfl rfl
  | profileUpgraded hp =>
    refine .of_profiles hp ?_ rfl rfl rfl
    rintro r e ⟨⟩
    rfl
  | profileUpgradeFailed hp =>
    refine .of_profiles hp ?_ (ServerHub.dropGuard_pool _ _) (ServerHub.dropGuard_profiles _ _)
      (ServerHub.dropGuard_resume _ _)
    rintro r e ⟨⟩
    rfl
  | notLoaded _ hp =>
    refine .of_profiles hp ?_ rfl rfl rfl
    rintro r e ⟨⟩
    rfl
  | loadedResumable hr hs => exact .of_resume hr hs rfl rfl rfl
  | profileReadOnly _ _ _ hp =>
    refine .of_profiles hp ?_ rfl rfl rfl
    rintro r e ⟨⟩
    rfl
  | captured hp =>
    refine .of_profiles hp ?_ (ServerHub.dropGuard_pool _ _) (ServerHub.dropGuard_profiles _ _)
      (ServerHub.dropGuard_resume _ _)
    rintro r e ⟨⟩
    rfl
  | _ =>
    first
    | exact .same rfl rfl rfl
    | exact .same (ServerHub.dropGuard_pool _ _) (ServerHub.dropGuard_profiles _ _)
        (ServerHub.dropGuard_resume _ _)

theorem HandlerPhase.spent_held (proxy : Option RequestedProxy) (spentGuard : Bool) :
    (HandlerPhase.spent proxy spentGuard).held = none := by
  cases proxy with
  | none => rfl
  | some proxy => rfl

theorem HandlerPhase.spent_fits (proxy : Option RequestedProxy) (spentGuard : Bool) :
    (HandlerPhase.spent proxy spentGuard).Fits hub := by
  cases proxy with
  | none => trivial
  | some proxy => trivial

/-- A request gets nothing that another one has. -/
theorem HandlerStep.holds (h : HandlerStep options i request hub phase e hub' phase')
    (hx : phase'.held = some x) : phase.held = some x ∨ hub.Fresh x := by
  cases h with
  | unlimited =>
    rw [HandlerPhase.spent_held] at hx
    cases hx
  | spent =>
    rw [HandlerPhase.spent_held] at hx
    cases hx
  | routeProfile =>
    cases hx
    exact .inr (Nat.le_refl _)
  | routePool =>
    cases hx
    exact .inr (Nat.le_refl _)
  | _ =>
    first
    | exact .inl hx
    | cases hx

theorem Resume.Step.started (h : Resume.Step s (.start token browser socket) t) :
    t.sessions.length = s.sessions.length + 1 := by
  cases h
  rw [List.length_append, List.length_singleton]

/-- What a request has goes with it. -/
theorem HandlerStep.fits (h : HandlerStep options i request hub phase e hub' phase')
    (hf : phase.Fits hub) : phase'.Fits hub' := by
  cases h with
  | unlimited => exact HandlerPhase.spent_fits _ _
  | spent => exact HandlerPhase.spent_fits _ _
  | routeProfile _ hp =>
    cases hp
    exact ⟨_, List.getElem?_concat_length⟩
  | routePool _ hp =>
    cases hp
    exact ⟨_, List.getElem?_concat_length, trivial⟩
  | claim he hp =>
    obtain ⟨claim, phase, hc, h, hclaims⟩ := hp.claim_cases
    obtain ⟨claim', hc', hawaited⟩ := hf
    cases hc.symm.trans hc'
    refine ⟨⟨claim.kind, phase⟩, ?_, h.awaited he hawaited⟩
    exact hclaims ▸ List.getElem?_set_self (List.getElem?_eq_some_iff.1 hc).1
  | claimed hc => exact ⟨_, hc, trivial⟩
  | profileClaimed _ hr =>
    obtain ⟨⟨token, phase⟩, hrequest, hphase⟩ := Option.map_eq_some_iff.1 hr
    cases hphase
    exact ⟨token, hrequest⟩
  | created hp =>
    exact hp.goes fun _ _ _ _ _ _ h => by
      cases h
      rfl
  | poolUpgraded => exact ⟨hf, fun _ hk => nomatch hk⟩
  | poolUpgradedResumable hr hs =>
    refine ⟨hf, fun k hk => ⟨_, rfl, ?_⟩⟩
    cases hk
    rw [hs.started]
    exact Nat.lt_succ_self _
  | profileUpgraded hp =>
    exact hp.goes fun _ _ _ _ _ _ h => by
      cases h
      rfl
  | notLoaded _ hp =>
    exact hp.goes fun _ _ _ _ _ _ h => by
      cases h
      rfl
  | loaded => exact ⟨hf, fun _ hk => nomatch hk⟩
  | loadedResumable hr hs =>
    refine ⟨hf, fun k hk => ⟨_, rfl, ?_⟩⟩
    cases hk
    rw [hs.started]
    exact Nat.lt_succ_self _
  | poolServed _ hp =>
    obtain ⟨claim, phase, hc, h, hclaims⟩ := hp.claim_cases
    refine ⟨⟨claim.kind, phase⟩, ?_, h.destroy_called⟩
    exact hclaims ▸ List.getElem?_set_self (List.getElem?_eq_some_iff.1 hc).1
  | profileReadOnly _ _ _ hp =>
    exact hp.goes fun _ _ _ _ _ _ h => by
      cases h
      rfl
  | profileServed => exact hf.1
  | _ => trivial

/-- Where the claims stay as they are a request may leave only one that is released. -/
theorem leaves_of_same {hub : ServerHub} {phase phase' : HandlerPhase}
    (hto : ∀ c, phase.held = some (.pool c) → phase'.held = some (.pool c) ∨
      ∀ claim, hub.state.pool.claims[c]? = some claim → claim.phase.Released)
    (hc : hub.state.pool.claims[c]? = some claim) :
    phase'.held = some (.pool c) ∨ claim.phase.Released ∨
      hub.state.pool.claims[c]? = some claim ∧ phase.held ≠ some (.pool c) := by
  by_cases hheld : phase.held = some (.pool c)
  · rcases hto c hheld with hstays | hreleased
    · exact .inl hstays
    · exact .inr (.inl (hreleased claim hc))
  · exact .inr (.inr ⟨hc, hheld⟩)

theorem leaves_of_step {hub : ServerHub} {phase phase' : HandlerPhase} {d : Nat}
    (hp : Pool.Step options hub.state.pool (.claim d e) pool)
    (hto : phase'.held = some (.pool d) ∨
      ∀ i kind p q p' q', ClaimStep options i kind p q e p' q' → q'.Released)
    (hphase : phase.held = some (.pool d)) (hc : pool.claims[c]? = some claim) :
    phase'.held = some (.pool c) ∨ claim.phase.Released ∨
      hub.state.pool.claims[c]? = some claim ∧ phase.held ≠ some (.pool c) := by
  obtain ⟨old, q, _, h, hclaims⟩ := hp.claim_cases
  rw [hclaims] at hc
  rcases getElem?_set_cases hc with ⟨rfl, rfl⟩ | ⟨hne, hold⟩
  · rcases hto with hstays | hreleased
    · exact .inl hstays
    · exact .inr (.inl (hreleased _ _ _ _ _ _ h))
  · refine .inr (.inr ⟨hold, ?_⟩)
    rw [hphase]
    rintro ⟨⟩
    exact hne rfl

/-- A claim that a request leaves comes to its end without it. -/
theorem HandlerStep.leaves (h : HandlerStep options i request hub phase e hub' phase')
    {entry : Claim} (hc : hub'.state.pool.claims[c]? = some entry) :
    phase'.held = some (.pool c) ∨ entry.phase.Released ∨
      hub.state.pool.claims[c]? = some entry ∧ phase.held ≠ some (.pool c) := by
  cases h with
  | routePool _ hp =>
    cases hp
    rcases getElem?_append_cases hc with ⟨rfl, _⟩ | hold
    · exact .inl rfl
    · exact .inr (.inr ⟨hold, fun heq => nomatch heq⟩)
  | claim _ hp => exact leaves_of_step hp (.inl rfl) rfl hc
  | claimFailed hfailed =>
    rw [ServerHub.dropGuard_pool] at hc
    refine leaves_of_same ?_ hc
    rintro c ⟨⟩
    refine .inr fun claim hclaim => ?_
    cases hfailed.symm.trans hclaim
    trivial
  | claimDropped he hp =>
    rw [ServerHub.dropGuard_pool] at hc
    refine leaves_of_step hp (.inr ?_) rfl hc
    intro i kind p q p' q' hstep
    rcases he with rfl | rfl
    · cases hstep with
      | _ => trivial
    · cases hstep with
      | _ => trivial
  | noTransport _ hp =>
    rw [ServerHub.dropGuard_pool] at hc
    refine leaves_of_step hp (.inr ?_) rfl hc
    intro i kind p q p' q' hstep
    cases hstep
    trivial
  | claimed =>
    refine leaves_of_same ?_ hc
    rintro c ⟨⟩
    exact .inl rfl
  | poolUpgraded =>
    refine leaves_of_same ?_ hc
    rintro c ⟨⟩
    exact .inl rfl
  | poolUpgradedResumable =>
    refine leaves_of_same ?_ hc
    rintro c ⟨⟩
    exact .inl rfl
  | poolUpgradeFailed hp =>
    rw [ServerHub.dropGuard_pool] at hc
    refine leaves_of_step hp (.inr ?_) rfl hc
    intro i kind p q p' q' hstep
    cases hstep
    trivial
  | poolServed _ hp => exact leaves_of_step hp (.inl rfl) rfl hc
  | poolDestroyed hfinished =>
    rw [ServerHub.dropGuard_pool] at hc
    refine leaves_of_same ?_ hc
    rintro c ⟨⟩
    refine .inr fun claim hclaim => ?_
    cases hfinished.symm.trans hclaim
    trivial
  | _ =>
    try rw [ServerHub.dropGuard_pool] at hc
    exact .inr (.inr ⟨hc, fun heq => nomatch heq⟩)

/-- The requests of a server and what they have. Each has its own claim or request to the
store, and a claim that none has comes to its end by itself. -/
structure Server.Linked (s : Server) : Prop where
  fits : ∀ handler ∈ s.handlers, handler.phase.Fits s.hub
  alone : ∀ (i j : Nat) handler other x, s.handlers[i]? = some handler →
    s.handlers[j]? = some other → handler.phase.held = some x → other.phase.held = some x → i = j
  covered : ∀ (c : Nat) claim, s.hub.state.pool.claims[c]? = some claim →
    claim.phase.Released ∨ ∃ handler ∈ s.handlers, handler.phase.held = some (.pool c)

/-- What goes on beside the requests leaves them their claims, or lets them run. -/
theorem Server.Linked.of_hub {s : Server} (hs : s.Linked)
    (hfits : ∀ phase : HandlerPhase, phase.Fits s.hub → phase.Fits hub')
    (hclaims : ∀ (c : Nat) claim, hub'.state.pool.claims[c]? = some claim →
      ∃ old, s.hub.state.pool.claims[c]? = some old ∧
        (old.phase.Released → claim.phase.Released)) :
    Server.Linked ⟨hub', s.handlers⟩ where
  fits handler hmem := hfits _ (hs.fits handler hmem)
  alone := hs.alone
  covered c claim hc := by
    obtain ⟨old, hold, hreleased⟩ := hclaims c claim hc
    rcases hs.covered c old hold with hrel | hheld
    · exact .inl (hreleased hrel)
    · exact .inr hheld

theorem Server.Linked.of_same {s : Server} (hs : s.Linked)
    (hk : s.hub.KeepsOthers hub' none)
    (hpool : hub'.state.pool.claims = s.hub.state.pool.claims) :
    Server.Linked ⟨hub', s.handlers⟩ := by
  refine hs.of_hub (fun phase hf => hk.fits hf fun _ _ heq => nomatch heq) ?_
  intro c claim hc
  rw [hpool] at hc
  exact ⟨claim, hc, id⟩

theorem ServerHub.ClaimIs.run {hub : ServerHub} {P : ClaimPhase → Prop} (h : hub.ClaimIs c P)
    (hP : ∀ i kind p q p' q', ClaimStep options i kind p q .run p' q' → P q → P q')
    (ha : Action.background a = true) (hp : Pool.Step options hub.state.pool a pool) :
    (hub.withPool pool).ClaimIs c P := by
  obtain ⟨claim, hc, hphase⟩ := h
  by_cases hclaim : ∃ e, a = .claim c e
  · obtain ⟨e, rfl⟩ := hclaim
    obtain ⟨old, q, hold, hstep, hclaims⟩ := hp.claim_cases
    cases hc.symm.trans hold
    have hrun : e = .run := of_decide_eq_true ha
    subst hrun
    refine ⟨⟨claim.kind, q⟩, ?_, hP _ _ _ _ _ _ hstep hphase⟩
    exact hclaims ▸ List.getElem?_set_self (List.getElem?_eq_some_iff.1 hc).1
  · exact ⟨claim, hp.other (fun e heq => hclaim ⟨e, heq⟩) hc, hphase⟩

/-- What the pool does by itself lets the requests have what they have. -/
theorem HandlerPhase.Fits.run {phase : HandlerPhase} (hf : phase.Fits hub)
    (ha : Action.background a = true) (hp : Pool.Step options hub.state.pool a pool) :
    phase.Fits (hub.withPool pool) := by
  have hawaited : ∀ c, hub.ClaimIs c ClaimPhase.Awaited →
      (hub.withPool pool).ClaimIs c ClaimPhase.Awaited :=
    fun c h => h.run (fun _ _ _ _ _ _ hstep => hstep.awaited rfl) ha hp
  have hclaimed : ∀ c, hub.ClaimIs c ClaimPhase.Claimed →
      (hub.withPool pool).ClaimIs c ClaimPhase.Claimed :=
    fun c h => h.run (fun _ _ _ _ _ _ hstep hc => absurd hc hstep.not_claimed) ha hp
  have hdestroying : ∀ c, hub.ClaimIs c ClaimPhase.Destroying →
      (hub.withPool pool).ClaimIs c ClaimPhase.Destroying :=
    fun c h => h.run (fun _ _ _ _ _ _ hstep => hstep.destroying) ha hp
  cases phase with
  | claiming c relay spentGuard => exact hawaited c hf
  | upgrading x resumable spentGuard =>
    cases x with
    | pool c => exact hclaimed c hf
    | profile r => exact hf
  | serving x task spentGuard =>
    cases x with
    | pool c => exact ⟨hclaimed c hf.1, hf.2⟩
    | profile r => exact hf
  | destroying x spentGuard =>
    cases x with
    | pool c => exact hdestroying c hf
    | profile r => exact hf
  | _ => exact hf

theorem Pool.Step.before {c : Nat} {entry : Claim} (h : Pool.Step options s a t)
    (ha : Action.background a = true) (hc : t.claims[c]? = some entry) :
    ∃ old, s.claims[c]? = some old ∧ (old.phase.Released → entry.phase.Released) := by
  cases h with
  | spawn => cases ha
  | @claim i old e p phase _ hi h =>
    rcases getElem?_set_cases hc with ⟨rfl, rfl⟩ | ⟨_, hold⟩
    · have hrun : e = .run := of_decide_eq_true ha
      subst hrun
      exact ⟨old, hi, h.released⟩
    · exact ⟨entry, hold, id⟩
  | _ => exact ⟨entry, hc, id⟩

theorem Server.Step.linked (h : Server.Step options s a t) (hs : s.Linked) : t.Linked := by
  cases h with
  | arrive =>
    refine ⟨forall_mem_append_single trivial hs.fits, ?_, ?_⟩
    · intro i j handler other x hi hj hx hx'
      rcases getElem?_append_cases hi with ⟨_, rfl⟩ | hi
      · cases hx
      · rcases getElem?_append_cases hj with ⟨_, rfl⟩ | hj
        · cases hx'
        · exact hs.alone i j handler other x hi hj hx hx'
    · intro c claim hc
      rcases hs.covered c claim hc with hrel | ⟨handler, hmem, hheld⟩
      · exact .inl hrel
      · exact .inr ⟨handler, List.mem_append_left _ hmem, hheld⟩
  | @handler i handler e hub' phase' _ hi h =>
    have hothers := h.others
    have hmine : handler.phase.Fits s.hub := hs.fits handler (List.mem_of_getElem? hi)
    have hnew : ∀ (j : Nat) other x, j ≠ i → s.handlers[j]? = some other →
        other.phase.held = some x → phase'.held ≠ some x := by
      intro j other x hne hj hx hx'
      rcases h.holds hx' with hold | hfresh
      · exact hne (hs.alone j i other handler x hj hi hx hold)
      · exact (hs.fits other (List.mem_of_getElem? hj)).not_fresh hx hfresh
    refine ⟨?_, ?_, ?_⟩
    · intro other hmem
      obtain ⟨j, hj⟩ := List.getElem?_of_mem hmem
      rcases getElem?_set_cases hj with ⟨_, rfl⟩ | ⟨hne, hj⟩
      · exact h.fits hmine
      · refine hothers.fits (hs.fits other (List.mem_of_getElem? hj)) fun x hx hx' => ?_
        exact hne (hs.alone j i other handler x hj hi hx hx')
    · intro j k one other x hj hk hx hx'
      rcases getElem?_set_cases hj with ⟨rfl, rfl⟩ | ⟨hne, hone⟩
      · rcases getElem?_set_cases hk with ⟨rfl, rfl⟩ | ⟨hne', hother⟩
        · rfl
        · exact absurd hx (hnew k other x hne' hother hx')
      · rcases getElem?_set_cases hk with ⟨rfl, rfl⟩ | ⟨_, hother⟩
        · exact absurd hx' (hnew j one x hne hone hx)
        · exact hs.alone j k one other x hone hother hx hx'
    · intro c claim hc
      rcases h.leaves hc with hheld | hrel | ⟨hold, hnot⟩
      · have hlt := (List.getElem?_eq_some_iff.1 hi).1
        exact .inr ⟨⟨handler.request, phase'⟩, List.mem_set hlt _, hheld⟩
      · exact .inl hrel
      · rcases hs.covered c claim hold with hrel | ⟨other, hmem, hheld⟩
        · exact .inl hrel
        · refine .inr ⟨other, mem_set_of_ne hi hmem ?_, hheld⟩
          rintro rfl
          exact hnot hheld
  | pool ha h => exact hs.of_hub (fun _ hf => hf.run ha h) fun _ _ hc => h.before ha hc
  | @profiles a profiles _ ha h =>
    refine hs.of_same (.of_profiles h ?_ rfl rfl rfl) rfl
    rintro r e rfl
    cases ha
  | resume _ hr h => exact hs.of_same (.of_resume hr h rfl rfl rfl) rfl
  | sample => exact hs.of_same (.same rfl rfl rfl) rfl
  | calibrated _ h =>
    refine hs.of_same (.of_pool h (fun _ _ heq => nomatch heq) rfl rfl rfl) ?_
    cases h
    rfl
  | adjusted _ h =>
    refine hs.of_same (.of_pool h (fun _ _ heq => nomatch heq) rfl rfl rfl) ?_
    cases h
    rfl
  | opened => exact hs.of_same (.same rfl rfl rfl) rfl
  | signal => exact hs.of_same (.same rfl rfl rfl) rfl
  | shutdown _ _ h =>
    refine hs.of_same (.of_pool h (fun _ _ heq => nomatch heq) rfl rfl rfl) ?_
    cases h
    rfl
  | cancel =>
    refine hs.of_same ⟨fun _ _ hc _ => hc, fun _ _ hr _ => hr, fun r hr => ?_⟩ rfl
    exact ⟨_, congrArg (Option.map _) hr, Nat.le_refl _⟩

theorem Server.linked (h : (Server.system config).Reachable s) : s.Linked := by
  apply h.invariant ?_ fun _ _ _ _ hi hs => hs.linked hi
  rintro _ rfl
  refine ⟨fun _ hm => (nomatch hm), fun i _ _ _ _ hi => ?_, fun c _ hc => ?_⟩
  · cases hi
  · cases hc

/-- A server that was stopped has its pool closed, and one that was cancelled its sessions. -/
structure Server.Stops (s : Server) : Prop where
  swapped : s.hub.calibration = .swapped → ∃ r, s.hub.state.pool.resizing = some r
  closed : s.hub.stopped = true → s.hub.state.pool.inner.semaphore.closed = true
  cancelled : s.hub.state.cancel = true →
    s.hub.stopped = true ∧ ∀ r, s.hub.state.resume = some r → r.hub.cancelled = true

theorem Server.Stops.of_pool {s : Server} (hs : s.Stops) (hub' : ServerHub)
    (hp : hub'.state.pool = s.hub.state.pool ∨
      ∃ a, a.resizes = false ∧ Pool.Step options s.hub.state.pool a hub'.state.pool)
    (hcalibration : hub'.calibration = s.hub.calibration)
    (hstopped : s.hub.stopped = true → hub'.stopped = true)
    (hclosed : hub'.stopped = true → s.hub.stopped = true ∨
      hub'.state.pool.inner.semaphore.closed = true)
    (hcancel : hub'.state.cancel = s.hub.state.cancel)
    (hresume : hub'.state.resume = s.hub.state.resume ∨
      ∃ r a r', s.hub.state.resume = some r ∧ Resume.Step r a r' ∧
        hub'.state.resume = some r') (handlers : List Handler) : Server.Stops ⟨hub', handlers⟩ where
  swapped := by
    rw [hcalibration]
    intro hswapped
    rcases hp with hsame | ⟨a, ha, hp⟩
    · rw [hsame]
      exact hs.swapped hswapped
    · rw [hp.resizing ha]
      exact hs.swapped hswapped
  closed := by
    intro hstop
    rcases hclosed hstop with hold | hnew
    · rcases hp with hsame | ⟨a, _, hp⟩
      · rw [hsame]
        exact hs.closed hold
      · exact hp.closed (hs.closed hold)
    · exact hnew
  cancelled := by
    rw [hcancel]
    intro hcancelled
    obtain ⟨hstop, hold⟩ := hs.cancelled hcancelled
    refine ⟨hstopped hstop, fun r hr => ?_⟩
    rcases hresume with hsame | ⟨r₀, a, r', hr₀, hstep, hr'⟩
    · exact hold r (hsame.symm.trans hr)
    · cases hr'.symm.trans hr
      exact hstep.cancelled (hold r₀ hr₀)

theorem HandlerStep.stops (h : HandlerStep options i request hub phase e hub' phase') :
    hub'.stopped = hub.stopped ∧ hub'.state.cancel = hub.state.cancel := by
  have hdrop : ∀ (hub : ServerHub) (spentGuard : Bool),
      (hub.dropGuard spentGuard).stopped = hub.stopped ∧
        (hub.dropGuard spentGuard).state.cancel = hub.state.cancel := by
    intro hub spentGuard
    cases spentGuard with
    | true => exact ⟨rfl, rfl⟩
    | false => exact ⟨rfl, rfl⟩
  cases h with
  | _ => first | exact ⟨rfl, rfl⟩ | exact hdrop _ _

theorem Server.Step.stops (h : Server.Step options s a t) (hs : s.Stops) : t.Stops := by
  cases h with
  | arrive => exact ⟨hs.swapped, hs.closed, hs.cancelled⟩
  | handler _ h =>
    obtain ⟨hstopped, hcancel⟩ := h.stops
    exact hs.of_pool _ h.pool h.calibration.1 hstopped.trans
      (fun hstop => .inl (hstopped.symm.trans hstop)) hcancel h.resume _
  | pool ha h =>
    exact hs.of_pool (s.hub.withPool _) (.inr ⟨_, Action.resizes_of_background ha, h⟩) rfl id .inl
      rfl (.inl rfl) _
  | profiles => exact ⟨hs.swapped, hs.closed, hs.cancelled⟩
  | resume _ hr h =>
    refine ⟨hs.swapped, hs.closed, fun hcancel => ⟨(hs.cancelled hcancel).1, fun r hr' => ?_⟩⟩
    cases hr'
    exact h.cancelled ((hs.cancelled hcancel).2 _ hr)
  | sample => exact ⟨hs.swapped, hs.closed, hs.cancelled⟩
  | calibrated _ h =>
    refine ⟨fun _ => ?_, fun hstop => h.closed (hs.closed hstop), hs.cancelled⟩
    cases h
    exact ⟨_, rfl⟩
  | adjusted _ h =>
    exact ⟨fun hswapped => (nomatch hswapped), fun hstop => h.closed (hs.closed hstop),
      hs.cancelled⟩
  | opened => exact ⟨fun hswapped => (nomatch hswapped), hs.closed, hs.cancelled⟩
  | signal => exact ⟨hs.swapped, hs.closed, hs.cancelled⟩
  | shutdown _ _ h =>
    refine hs.of_pool { s.hub.withPool _ with stopped := true } (.inr ⟨_, rfl, h⟩) rfl
      (fun _ => rfl) (fun _ => .inr ?_) rfl (.inl rfl) _
    cases h
    rfl
  | cancel hstop =>
    refine ⟨hs.swapped, hs.closed, fun _ => ⟨hstop, fun r hr => ?_⟩⟩
    obtain ⟨r₀, _, rfl⟩ := Option.map_eq_some_iff.1 hr
    rfl

theorem Server.stops (h : (Server.system config).Reachable s) : s.Stops := by
  apply h.invariant ?_ fun _ _ _ _ hi hs => hs.stops hi
  rintro _ rfl
  refine ⟨fun hswapped => ?_, fun hstop => (nomatch hstop), fun hcancel => (nomatch hcancel)⟩
  unfold Server.new at hswapped
  split at hswapped
  · cases hswapped
  · cases hswapped

end BrowserServe
