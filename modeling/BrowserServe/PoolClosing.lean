import BrowserServe.PoolCeiling

namespace BrowserServe
open Library
set_option autoImplicit true

/-- The replenisher has returned, every claim, `Claimed` and spawned destroy is finished, and
no `Pool::close` is under way. -/
structure Pool.Over (s : Pool) : Prop where
  replenisher : s.replenisher = .returned
  claims : s.Idle
  spawned : s.inner.spawned = []
  destroying : s.inner.destroying = []
  closing : s.closing = 0

/-- No browser is left: none is parked, and each one the factory created was destroyed once,
by a destroy that was not dropped halfway. -/
structure Pool.LeaksNothing (s : Pool) : Prop where
  warm : s.inner.warm = []
  destroyed : ∀ x < s.inner.created, s.inner.destroyCalls.count x = 1
  completed : ∀ c ∈ s.claims, ∀ x, c.phase ≠ .abandoned x

/-- Once the pool is closed and drained nothing is parked, and no destroy was dropped
halfway. -/
structure Pool.Drained (s : Pool) : Prop where
  warm : s.inner.semaphore.closed = true → s.closing = 0 → s.inner.warm = []
  completed : ∀ c ∈ s.claims, ∀ x, c.phase ≠ .abandoned x

def Replenisher.isPushing : Replenisher → Bool
  | .pushing _ => true
  | _ => false

/-- A step that neither parks a browser in a closed pool that no `close` is yet to drain, nor
drops a destroy that is awaited. -/
def Pool.ParksOpen (s : Pool) (a : Action) (_ : Pool) : Prop :=
  match a with
  | .replenish => s.replenisher.isPushing = true → s.inner.semaphore.closed = true → s.closing ≠ 0
  | .claim _ .dropDestroy => False
  | _ => True

theorem ClaimStep.closed (h : ClaimStep options i kind p phase e p' phase') :
    p'.semaphore.closed = p.semaphore.closed := by
  cases h with
  | tryAcquireOk h =>
    obtain ⟨_, _, rfl⟩ := Semaphore.tryAcquire_ok h
    rfl
  | acquireOk hq h =>
    obtain ⟨_, _, rfl⟩ := Semaphore.tryAcquire_ok h
    rfl
  | closedWaiting => exact Semaphore.cancel_closed _ _
  | timedOut => exact Semaphore.cancel_closed _ _
  | dropWaiting => exact Semaphore.cancel_closed _ _
  | launchErr => exact Semaphore.release_closed _
  | addPermit => exact Semaphore.release_closed _
  | _ => rfl

theorem ClaimStep.warm_nil (h : ClaimStep options i kind p phase e p' phase')
    (hw : p.warm = []) : p'.warm = [] := by
  cases h with
  | popWarm hk h =>
    rw [hw] at h
    cases h
  | _ => exact hw

/-- A destroy that is dropped halfway is the only way a claim comes to be abandoned. -/
theorem ClaimStep.abandoned_iff (h : ClaimStep options i kind p phase e p' phase')
    (hp : ∀ x, phase ≠ .abandoned x) : (∀ x, phase' ≠ .abandoned x) ↔ e ≠ .dropDestroy := by
  cases h with
  | dropDestroying => simp
  | _ => simp

theorem ReplenisherStep.warm_nil (h : ReplenisherStep options p r p' r')
    (hw : p.warm = []) : p'.warm = [] ↔ r.isPushing = false := by
  cases h with
  | cull h =>
    rw [hw] at h
    cases h
    simp [Replenisher.isPushing]
  | push => simp [Replenisher.isPushing]
  | _ => simp [Replenisher.isPushing, hw]

theorem Pool.Drained.claim {s : Pool} (hd : s.Drained) (hc : s.claims[i]? = some c)
    (h : ClaimStep options i c.kind s.inner c.phase e p phase) :
    Pool.Drained { s with inner := p, claims := s.claims.set i ⟨c.kind, phase⟩ } ↔
      e ≠ .dropDestroy := by
  rw [← h.abandoned_iff (hd.completed c (List.mem_of_getElem? hc))]
  constructor
  · intro ht
    exact ht.completed _ (List.mem_set (List.getElem?_eq_some_iff.1 hc).1 _)
  · intro hphase
    refine ⟨?_, forall_mem_set hphase hd.completed⟩
    intro hclosed hclosing
    exact h.warm_nil (hd.warm (h.closed ▸ hclosed) hclosing)

/-- From a drained state exactly the steps that park nothing in a closed pool and drop no
awaited destroy lead to a drained one. -/
theorem Pool.Step.drained_iff (h : Pool.Step options s a t) (hd : s.Drained) :
    t.Drained ↔ s.ParksOpen a t := by
  cases h with
  | @claim i c e p phase _ hc h =>
    rw [hd.claim hc h]
    cases e with
    | dropDestroy => simp [Pool.ParksOpen]
    | _ => simp [Pool.ParksOpen]
  | replenish h =>
    simp only [Pool.ParksOpen]
    constructor
    · intro ht hpush hclosed hclosing
      have hwarm := hd.warm hclosed hclosing
      have hnot := (h.warm_nil hwarm).1 (ht.warm (h.semaphore ▸ hclosed) hclosing)
      rw [hpush] at hnot
      cases hnot
    · intro hparks
      refine ⟨?_, hd.completed⟩
      intro hclosed hclosing
      rw [h.semaphore] at hclosed
      apply (h.warm_nil (hd.warm hclosed hclosing)).2
      exact Bool.eq_false_iff.2 fun hpush => hparks hpush hclosed hclosing
  | spawn =>
    apply iff_of_true ?_ trivial
    exact ⟨hd.warm, forall_mem_append_single (fun x hx => (by cases hx)) hd.completed⟩
  | close => exact iff_of_true ⟨fun _ hclosing => (by cases hclosing), hd.completed⟩ trivial
  | drain => exact iff_of_true ⟨fun _ _ => rfl, hd.completed⟩ trivial
  | adjustPermits h =>
    apply iff_of_true ?_ trivial
    refine ⟨?_, hd.completed⟩
    intro hclosed hclosing
    simp only [Inner.adjustPermits] at hclosed ⊢
    split at hclosed <;> rename_i hgrow
    · rw [if_pos hgrow]
      exact hd.warm (by simpa using hclosed) hclosing
    · rw [if_neg hgrow]
      exact hd.warm hclosed hclosing
  | _ => exact iff_of_true ⟨hd.warm, hd.completed⟩ trivial

theorem ReplenisherStep.returns (h : ReplenisherStep options p r p' r')
    (hr : r' = .returned ∨ r' = .destroyingLast) :
    p.semaphore.closed = true ∨ r = .destroyingLast := by
  cases h with
  | closed h => exact .inl h
  | closedMeanwhile h => exact .inl h
  | destroyedLast => exact .inr rfl
  | _ => simp at hr

/-- The replenisher returns only from a closed pool. -/
def Pool.ReturnsClosed (s : Pool) : Prop :=
  s.replenisher = .returned ∨ s.replenisher = .destroyingLast → s.inner.semaphore.closed = true

theorem Pool.Step.closed (h : Pool.Step options s a t) (hs : s.inner.semaphore.closed = true) :
    t.inner.semaphore.closed = true := by
  cases h with
  | claim hc h => exact h.closed.trans hs
  | replenish h => exact (congrArg _ h.semaphore).trans hs
  | adjustPermits h =>
    simp only [Inner.adjustPermits]
    split
    · exact (Semaphore.addPermits_closed _ _).trans hs
    · exact hs
  | close => rfl
  | _ => exact hs

theorem Pool.Step.returnsClosed (h : Pool.Step options s a t) (hs : s.ReturnsClosed) :
    t.ReturnsClosed := by
  intro ht
  have hkeeps := h.closed
  cases h with
  | replenish h =>
    simp only [h.semaphore]
    cases h.returns ht with
    | inl hclosed => exact hclosed
    | inr hlast => exact hs (.inr hlast)
  | _ => exact hkeeps (hs ht)

theorem Pool.returnsClosed (h : (Pool.system options).Reachable s) : s.ReturnsClosed := by
  apply h.invariant ?_ fun _ _ _ _ hi hs => hs.returnsClosed hi
  intro _ hinit hret
  cases hinit
  simp [Pool.new] at hret

theorem Pool.Idle.stock {s : Pool} (hi : s.Idle) (x : Session) :
    total (fun c => c.phase.stock x) s.claims = 0 := by
  apply total_eq_zero
  intro c hc
  have hover := hi c hc
  cases hp : c.phase <;> simp [hp, ClaimPhase.over] at hover ⊢

theorem Pool.Idle.owed {s : Pool} (hi : s.Idle) (x : Session) : s.owed x = 0 := by
  apply total_eq_zero
  intro c hc
  have hover := hi c hc
  cases hp : c.phase <;> simp [hp, ClaimPhase.over] at hover ⊢

/-- When everything is over and nothing is parked, each session was destroyed once. -/
theorem Pool.Over.leaksNothing {s : Pool} (h : s.Over) (ho : s.Owned) (hr : s.ReturnsClosed)
    (hd : s.Drained) : s.LeaksNothing := by
  have hwarm := hd.warm (hr (.inl h.replenisher)) h.closing
  refine ⟨hwarm, ?_, hd.completed⟩
  intro x hx
  have honce := ho.once x
  simp only [Pool.stock, Inner.stock, h.claims.stock, h.claims.owed, h.spawned, h.replenisher,
    hwarm, Inner.born, if_pos hx, Replenisher.stock, List.map_nil, List.count_nil] at honce
  omega

/-- The runs that stay drained are the runs whose steps park nothing in a closed pool and
drop no awaited destroy; in such a run, when all is over, nothing leaks. -/
theorem closed_pool_leaks_nothing_iff (options : PoolOptions) (as : List Action) (s : Pool) :
    (((Pool.system options).guarded fun _ _ t => t.Drained).Run (.new options) as s ↔
        ((Pool.system options).guarded Pool.ParksOpen).Run (.new options) as s) ∧
      (((Pool.system options).guarded Pool.ParksOpen).Run (.new options) as s →
        s.Over → s.LeaksNothing) := by
  have hstart : (Pool.new options).Drained := ⟨fun _ _ => rfl, fun c hc => by cases hc⟩
  constructor
  · exact System.guarded_run_iff (.init rfl) hstart fun _ _ _ _ hd hst => hst.drained_iff hd
  · intro hrun hover
    have hreach := System.guarded_reachable (hrun.reachable (.init rfl))
    apply hover.leaksNothing (Pool.owned hreach) (Pool.returnsClosed hreach)
    exact hrun.preserves hstart fun _ _ _ hd hst => (hst.1.drained_iff hd).2 hst.2

/-- The replenisher finds the pool open, the pool is closed and drained, and then the
replenisher parks its browser and returns: nobody is left to destroy it. -/
theorem browser_parked_after_close :
    ∃ as s, (Pool.system ⟨1, 1, 0, 0, 1, 1⟩).Run (.new ⟨1, 1, 0, 0, 1, 1⟩) as s ∧ s.Over ∧
      s.inner.created = 1 ∧ s.inner.warm.map Warm.session = [0] ∧ s.inner.destroyCalls = [] ∧
      ¬ s.LeaksNothing := by
  have hrun : (Pool.system ⟨1, 1, 0, 0, 1, 1⟩).Run (.new ⟨1, 1, 0, 0, 1, 1⟩)
      [.replenish, .replenish, .replenish, .replenish, .replenish, .replenish, .replenish,
        .replenish, .replenish, .replenish, .replenish, .close, .drain, .replenish,
        .replenish] _ :=
    .cons (.replenish (.opened rfl)) <| .cons (.replenish .readClock) <|
      .cons (.replenish (.cull rfl)) <| .cons (.replenish .readWarm) <|
      .cons (.replenish .readLaunching) <| .cons (.replenish .readMax) <|
      .cons (.replenish (.someWanted (by decide))) <| .cons (.replenish .beginLaunch) <|
      .cons (.replenish .createOk) <| .cons (.replenish .launchedOk) <|
      .cons (.replenish (.stillOpen rfl)) <| .cons .close <| .cons (.drain rfl) <|
      .cons (.replenish .push) <| .single (.replenish (.closed rfl))
  refine ⟨_, _, hrun, ⟨rfl, fun c hc => (by cases hc), rfl, rfl, rfl⟩, rfl, rfl, rfl, ?_⟩
  intro hleaks
  cases hleaks.warm

end BrowserServe
