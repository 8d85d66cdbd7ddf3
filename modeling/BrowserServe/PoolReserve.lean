import BrowserServe.PoolCeiling

namespace BrowserServe
open Library
set_option autoImplicit true

/-- Launches of the replenisher that have begun and are not in the warm stock yet. -/
@[simp] def Replenisher.inFlight : Replenisher → Nat
  | .creating | .created (.ok _) | .launched _ | .pushing _ => 1
  | _ => 0

/-- The browsers the pool keeps ahead of demand: parked, or on their way there. -/
def Pool.reserve (s : Pool) : Nat := s.inner.warm.length + s.replenisher.inFlight

/-- The live browsers of the pool: slots held by claims, warm sessions and launches in flight. -/
def Pool.browsers (s : Pool) : Nat := s.launchingSlots + s.claimedSlots + s.reserve

/-- The pool with its ceiling unchanged. -/
def Pool.fixedSystem (options : PoolOptions) : System Pool Action :=
  (Pool.system options).guarded fun _ a _ => a.resizes = false

/-- The same with no future dropped that holds a slot. -/
def Pool.keptSystem (options : PoolOptions) : System Pool Action :=
  (Pool.fixedSystem options).guarded fun _ a _ => a.losesSlot = false

/-- A step that takes a free permit or begins a launch of the replenisher. -/
def Pool.Grows (s t : Pool) : Prop :=
  t.freePermits < s.freePermits ∨ s.replenisher.inFlight < t.replenisher.inFlight

/-- A step that takes a free permit, or begins a launch of the replenisher, only while there
are more free permits than browsers in reserve. -/
def Pool.KeepsReserve (s : Pool) (_ : Action) (t : Pool) : Prop :=
  s.Grows t → s.reserve < s.freePermits

/-- A section of a claim takes one free permit and leaves the warm stock alone, or it takes
none and adds nothing to the stock. -/
theorem ClaimStep.reserve (h : ClaimStep options i kind p phase e p' phase') :
    p'.semaphore.permits + 1 = p.semaphore.permits ∧ p'.warm.length = p.warm.length ∨
      p.semaphore.permits ≤ p'.semaphore.permits ∧ p'.warm.length ≤ p.warm.length := by
  cases h with
  | tryAcquireOk h =>
    obtain ⟨_, hpos, rfl⟩ := Semaphore.tryAcquire_ok h
    exact .inl ⟨Nat.sub_add_cancel hpos, rfl⟩
  | acquireOk hq h =>
    obtain ⟨_, hpos, rfl⟩ := Semaphore.tryAcquire_ok h
    exact .inl ⟨Nat.sub_add_cancel hpos, rfl⟩
  | closedWaiting => exact .inr ⟨Semaphore.cancel_permits _ _, Nat.le_refl _⟩
  | timedOut => exact .inr ⟨Semaphore.cancel_permits _ _, Nat.le_refl _⟩
  | dropWaiting => exact .inr ⟨Semaphore.cancel_permits _ _, Nat.le_refl _⟩
  | launchErr => exact .inr ⟨Semaphore.release_permits _, Nat.le_refl _⟩
  | addPermit => exact .inr ⟨Semaphore.release_permits _, Nat.le_refl _⟩
  | popWarm hk h =>
    rw [h]
    exact .inr ⟨Nat.le_refl _, Nat.le_succ _⟩
  | _ => exact .inr ⟨Nat.le_refl _, Nat.le_refl _⟩

theorem cullLoop_length (options : PoolOptions) (now : Nat) (isAlive : Session → Bool)
    (warm kept : List Warm) (removed : List Session) :
    (cullLoop options now isAlive warm kept removed).1.length ≤ warm.length + kept.length := by
  induction warm generalizing kept removed with
  | nil => exact Nat.le_add_left _ _
  | cons entry warm ih =>
    simp only [cullLoop]
    split
    · have := ih kept (removed ++ [entry.session])
      simp only [List.length_cons]
      omega
    · have := ih (kept ++ [entry]) removed
      simp only [List.length_append, List.length_cons, List.length_nil] at this ⊢
      omega

theorem cullWarm_length (h : cullWarm options now isAlive warm = (kept, removed)) :
    kept.length ≤ warm.length := by
  have hloop := cullLoop_length options now isAlive warm [] []
  unfold cullWarm at h
  rw [h] at hloop
  exact hloop

/-- A section of the replenisher begins one launch, or it adds nothing to the reserve. -/
theorem ReplenisherStep.reserve (h : ReplenisherStep options p r p' r') :
    p'.warm.length = p.warm.length ∧ r'.inFlight = r.inFlight + 1 ∨
      p'.warm.length + r'.inFlight ≤ p.warm.length + r.inFlight ∧ r'.inFlight ≤ r.inFlight := by
  cases h with
  | beginLaunch => exact .inl ⟨rfl, rfl⟩
  | cull h => exact .inr ⟨by simpa using cullWarm_length h, Nat.le_refl _⟩
  | push =>
    refine .inr ⟨?_, Nat.zero_le _⟩
    simp
  | createErr => exact .inr ⟨Nat.le_succ _, Nat.zero_le _⟩
  | closedMeanwhile h => exact .inr ⟨Nat.le_succ _, Nat.zero_le _⟩
  | _ => exact .inr ⟨Nat.le_refl _, Nat.le_refl _⟩

/-- A step that grows makes the free permits and the reserve meet by one; any other step
keeps them apart. -/
theorem Pool.Step.reserve (h : Pool.Step options s a t) (ha : a.resizes = false) :
    s.Grows t ∧ t.reserve + s.freePermits = s.reserve + t.freePermits + 1 ∨
      ¬ s.Grows t ∧ t.reserve ≤ s.reserve ∧ s.freePermits ≤ t.freePermits := by
  cases h with
  | @claim i c e p phase _ hc h =>
    rcases h.reserve with ⟨htaken, hwarm⟩ | ⟨hle, hwarm⟩
    · left
      simp only [Pool.Grows, Pool.reserve, Pool.freePermits]
      omega
    · right
      simp only [Pool.Grows, Pool.reserve, Pool.freePermits]
      omega
  | replenish h =>
    rcases h.reserve with ⟨hwarm, hflight⟩ | ⟨hle, hflight⟩
    · left
      simp only [Pool.Grows, Pool.reserve, Pool.freePermits, h.semaphore]
      omega
    · right
      simp only [Pool.Grows, Pool.reserve, Pool.freePermits, h.semaphore]
      omega
  | drain h =>
    right
    simp [Pool.Grows, Pool.reserve, Pool.freePermits]
  | swapMax => cases ha
  | adjustPermits => cases ha
  | _ =>
    right
    simp [Pool.Grows, Pool.reserve, Pool.freePermits, Semaphore.close]

theorem Pool.Step.keepsReserve_iff (h : Pool.Step options s a t) (ha : a.resizes = false)
    (hs : s.reserve ≤ s.freePermits) : t.reserve ≤ t.freePermits ↔ s.KeepsReserve a t := by
  unfold Pool.KeepsReserve
  rcases h.reserve ha with ⟨hgrows, heq⟩ | ⟨hnot, hreserve, hfree⟩
  · rw [imp_iff_right hgrows]
    omega
  · exact iff_of_true (by omega) fun hgrows => (hnot hgrows).elim

theorem Pool.Step.maxSessions (h : Pool.Step options s a t) (ha : a.resizes = false) :
    t.inner.maxSessions = s.inner.maxSessions := by
  cases h with
  | claim hc h => exact h.maxSessions
  | replenish h => exact h.maxSessions
  | swapMax => cases ha
  | adjustPermits => cases ha
  | _ => rfl

/-- With its ceiling unchanged a pool never has more slots than that. -/
theorem Pool.slots_le (h : (Pool.fixedSystem options).Reachable s) :
    s.slots ≤ options.maxSessions ∧ s.inner.maxSessions = options.maxSessions := by
  apply h.invariant
    (I := fun s => s.slots ≤ options.maxSessions ∧ s.inner.maxSessions = options.maxSessions)
  · intro _ hinit
    cases hinit
    exact ⟨Nat.le_refl _, rfl⟩
  · intro _ a _ _ hi hs
    have hslots := hs.1.slots hs.2
    exact ⟨by omega, (hs.1.maxSessions hs.2).trans hi.2⟩

/-- As long as no slot is lost, the pool has exactly that many. -/
theorem Pool.slots_eq_max (h : (Pool.keptSystem options).Reachable s) :
    s.slots = options.maxSessions ∧ s.inner.maxSessions = options.maxSessions := by
  apply h.invariant
    (I := fun s => s.slots = options.maxSessions ∧ s.inner.maxSessions = options.maxSessions)
  · intro _ hinit
    cases hinit
    exact ⟨rfl, rfl⟩
  · intro _ a _ _ hi hs
    have hslots := hs.1.1.slots hs.1.2
    rw [Action.slotCost, hs.2] at hslots
    exact ⟨hslots.trans hi.1, (hs.1.1.maxSessions hs.1.2).trans hi.2⟩

/-- The live browsers of the pool stay inside its ceiling. -/
def Pool.InsideCeiling (s : Pool) : Prop := s.browsers ≤ s.inner.maxSessions

theorem Pool.insideCeiling_of_reserve (h : (Pool.fixedSystem options).Reachable s)
    (hr : s.reserve ≤ s.freePermits) : s.InsideCeiling := by
  obtain ⟨hslots, hmax⟩ := Pool.slots_le h
  rw [Pool.slots_eq] at hslots
  simp only [Pool.InsideCeiling, Pool.browsers, hmax]
  omega

theorem Pool.insideCeiling_iff (h : (Pool.keptSystem options).Reachable s) :
    s.InsideCeiling ↔ s.reserve ≤ s.freePermits := by
  obtain ⟨hslots, hmax⟩ := Pool.slots_eq_max h
  rw [Pool.slots_eq] at hslots
  simp only [Pool.InsideCeiling, Pool.browsers, hmax]
  omega

/-- With the ceiling unchanged, runs that keep the reserve stay inside the ceiling; as long
as no future that holds a slot is dropped, they are exactly the runs that do. -/
theorem warm_stock_inside_ceiling_iff (options : PoolOptions) (as : List Action) (s : Pool) :
    (((Pool.fixedSystem options).guarded Pool.KeepsReserve).Run (.new options) as s →
        s.InsideCeiling) ∧
      (((Pool.keptSystem options).guarded fun _ _ t => t.InsideCeiling).Run (.new options) as s ↔
        ((Pool.keptSystem options).guarded Pool.KeepsReserve).Run (.new options) as s) := by
  constructor
  · intro hrun
    have hreach := System.guarded_reachable (hrun.reachable (.init rfl))
    apply Pool.insideCeiling_of_reserve hreach
    apply hrun.preserves (I := fun s => s.reserve ≤ s.freePermits) (Nat.zero_le _)
    intro s a t hs hst
    exact (hst.1.1.keepsReserve_iff hst.1.2 hs).2 hst.2
  · apply System.guarded_run_iff (.init rfl)
    · exact (Pool.insideCeiling_iff (.init rfl)).2 (Nat.zero_le _)
    · intro s a t hreach hs hst
      rw [Pool.insideCeiling_iff (hreach.step hst)]
      exact hst.1.1.keepsReserve_iff hst.1.2 ((Pool.insideCeiling_iff hreach).1 hs)

/-- With a ceiling of one, a claim launches a browser of its own while the replenisher, which
saw a free slot, launches one too: both end up alive. -/
theorem launch_in_flight_overtaken :
    ∃ as s, (Pool.keptSystem ⟨1, 1, 0, 0, 1, 1⟩).Run (.new ⟨1, 1, 0, 0, 1, 1⟩) as s ∧
      s.inner.maxSessions = 1 ∧ s.inner.handedOut = [1] ∧
      s.inner.warm.map Warm.session = [0] ∧ s.browsers = 2 ∧ ¬ s.InsideCeiling := by
  have hrun : (Pool.keptSystem ⟨1, 1, 0, 0, 1, 1⟩).Run (.new ⟨1, 1, 0, 0, 1, 1⟩)
      [.replenish, .replenish, .replenish, .replenish, .replenish, .replenish, .replenish,
        .replenish, .spawn .claim, .claim 0 .run, .claim 0 .run, .replenish, .replenish,
        .replenish, .replenish, .claim 0 .launchOk] _ :=
    .cons ⟨⟨.replenish (.opened rfl), rfl⟩, rfl⟩ <|
      .cons ⟨⟨.replenish .readClock, rfl⟩, rfl⟩ <|
      .cons ⟨⟨.replenish (.cull rfl), rfl⟩, rfl⟩ <|
      .cons ⟨⟨.replenish .readWarm, rfl⟩, rfl⟩ <|
      .cons ⟨⟨.replenish .readLaunching, rfl⟩, rfl⟩ <|
      .cons ⟨⟨.replenish .readMax, rfl⟩, rfl⟩ <|
      .cons ⟨⟨.replenish (.someWanted (by decide)), rfl⟩, rfl⟩ <|
      .cons ⟨⟨.replenish .beginLaunch, rfl⟩, rfl⟩ <|
      .cons ⟨⟨.spawn, rfl⟩, rfl⟩ <|
      .cons ⟨⟨.claim rfl (.tryAcquireOk rfl), rfl⟩, rfl⟩ <|
      .cons ⟨⟨.claim rfl (.noWarm rfl rfl), rfl⟩, rfl⟩ <|
      .cons ⟨⟨.replenish .createOk, rfl⟩, rfl⟩ <|
      .cons ⟨⟨.replenish .launchedOk, rfl⟩, rfl⟩ <|
      .cons ⟨⟨.replenish (.stillOpen rfl), rfl⟩, rfl⟩ <|
      .cons ⟨⟨.replenish .push, rfl⟩, rfl⟩ <|
      .single ⟨⟨.claim rfl .launchOk, rfl⟩, rfl⟩
  refine ⟨_, _, hrun, rfl, rfl, rfl, rfl, ?_⟩
  intro hinside
  exact absurd (show 2 ≤ 1 from hinside) (by decide)

end BrowserServe
