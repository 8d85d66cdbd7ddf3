import BrowserServe.PoolClosing
import BrowserServe.Library.Progress

namespace BrowserServe
open Library
set_option autoImplicit true

/-- Nothing comes to the pool from outside: no claim, no resize, no second `close`, no time and
no browser that dies. The hand-back of a session is a step of its claim, which may come. -/
def Pool.Quiet (_ : Pool) (a : Action) (_ : Pool) : Prop :=
  match a with
  | .spawn _ | .close | .swapMax _ | .tick | .crash _ => False
  | _ => True

/-- How many sections a claim still has before it in a closed pool, each warm browser that it
finds dead counted with what is left to do for it. -/
@[simp] def ClaimPhase.work : ClaimPhase → Nat
  | .start => 11
  | .noPermits => 10
  | .counted _ | .popped _ => 9
  | .waiting _ => 8
  | .leaving _ => 7
  | .holding => 6
  | .launching => 5
  | .claimed _ => 4
  | .orphaned _ => 3
  | .destroying _ _ => 2
  | .releasing => 1
  | .finished | .failed _ | .cancelled | .abandoned _ => 0

@[simp] def Replenisher.work : Replenisher → Nat
  | .culling => 11
  | .locking _ => 10
  | .expired sessions => 9 + 2 * sessions.length
  | .destroyingExpired rest => 10 + 2 * rest.length
  | .sawWarm _ => 8
  | .sawLaunching _ _ => 7
  | .sawMax _ _ _ => 6
  | .wanted => 5
  | .creating => 4
  | .created _ => 3
  | .launched _ | .idle | .backoff => 2
  | .pushing _ => 6
  | .top | .destroyingLast => 1
  | .returned => 0

def Inner.work (p : Inner) : Nat :=
  4 * p.warm.length + 2 * p.spawned.length + p.destroying.length

def Pool.work (s : Pool) : Nat :=
  s.inner.work + total (fun c => c.phase.work) s.claims + s.replenisher.work + s.closing +
    s.resizing.toList.length

/-- Each entry that a cull looks at is kept or removed. -/
theorem cullLoop_parts (options : PoolOptions) (now : Nat) (isAlive : Session → Bool)
    (warm kept : List Warm) (removed : List Session) :
    (cullLoop options now isAlive warm kept removed).1.length +
      (cullLoop options now isAlive warm kept removed).2.length =
        warm.length + kept.length + removed.length := by
  induction warm generalizing kept removed with
  | nil => simp only [cullLoop, List.length_nil, Nat.zero_add]
  | cons entry warm ih =>
    simp only [cullLoop]
    split
    · have := ih kept (removed ++ [entry.session])
      simp only [List.length_append, List.length_cons, List.length_nil] at this ⊢
      omega
    · have := ih (kept ++ [entry]) removed
      simp only [List.length_append, List.length_cons, List.length_nil] at this ⊢
      omega

theorem cullWarm_parts (h : cullWarm options now isAlive warm = (kept, removed)) :
    kept.length + removed.length = warm.length := by
  have hparts := cullLoop_parts options now isAlive warm [] []
  unfold cullWarm at h
  rw [h] at hparts
  exact hparts

theorem tryAcquire_closed {semaphore : Semaphore Nat} (h : semaphore.closed = true) :
    semaphore.tryAcquire = .error .closed := by
  rw [Semaphore.tryAcquire, if_pos h]

theorem ClaimStep.works (h : ClaimStep options i kind p phase e p' phase')
    (hclosed : p.semaphore.closed = true) : p'.work + phase'.work < p.work + phase.work := by
  have htry := tryAcquire_closed hclosed
  cases h with
  | tryAcquireOk h => cases htry.symm.trans h
  | tryAcquireNoPermits h => cases htry.symm.trans h
  | acquireOk _ h => cases htry.symm.trans h
  | acquirePending _ h => cases htry.symm.trans h
  | granted hopen => cases hclosed.symm.trans hopen
  | popWarm _ h =>
    simp only [Inner.work, ClaimPhase.work, h, List.length_cons]
    omega
  | warmDead =>
    simp only [Inner.work, ClaimPhase.work, List.length_cons]
    omega
  | _ =>
    simp only [Inner.work, ClaimPhase.work]
    omega

theorem ReplenisherStep.works (h : ReplenisherStep options p r p' r')
    (hclosed : p.semaphore.closed = true) : p'.work + r'.work < p.work + r.work := by
  cases h with
  | opened hopen => cases hclosed.symm.trans hopen
  | stillOpen hopen => cases hclosed.symm.trans hopen
  | cull h =>
    have hparts := cullWarm_parts h
    simp only [Inner.work, Replenisher.work]
    omega
  | push =>
    simp only [Inner.work, Replenisher.work, List.length_append, List.length_singleton]
    omega
  | _ =>
    simp only [Inner.work, Replenisher.work, List.length_cons, List.length_nil]
    omega

/-- In a closed pool each section that is left brings it nearer to its rest. -/
theorem Pool.Step.works (h : Pool.Step options s a t) (hquiet : s.Quiet a t)
    (hclosed : s.inner.semaphore.closed = true) :
    t.inner.semaphore.closed = true ∧ t.work < s.work := by
  refine ⟨h.closed hclosed, ?_⟩
  cases h with
  | spawn => exact hquiet.elim
  | close => exact hquiet.elim
  | swapMax => exact hquiet.elim
  | tick => exact hquiet.elim
  | crash => exact hquiet.elim
  | @claim i c e p phase _ hc h =>
    have hworks := h.works hclosed
    have hset := total_set (fun c : Claim => c.phase.work) hc ⟨c.kind, phase⟩
    simp only [Pool.work] at hset ⊢
    omega
  | replenish h =>
    have hworks := h.works hclosed
    simp only [Pool.work]
    omega
  | drain h =>
    simp only [Pool.work, Inner.work, h, List.length_append, List.length_map, List.length_nil]
    omega
  | startCleanup h =>
    have hpos := List.length_pos_of_mem h
    simp only [Pool.work, Inner.work, List.length_erase_of_mem h, List.length_cons]
    omega
  | finishCleanup h =>
    have hpos := List.length_pos_of_mem h
    simp only [Pool.work, Inner.work, List.length_erase_of_mem h]
    omega
  | adjustPermits h =>
    simp only [Pool.work, Inner.work, Inner.adjustPermits, h]
    split <;> simp

/-- A claim in a closed pool that is not over goes on by itself, or its browser is in use. -/
theorem ClaimStep.goes_on (options : PoolOptions) (i : Nat) (kind : ClaimKind) {p : Inner}
    (hclosed : p.semaphore.closed = true) (hphase : phase.over = false) :
    (∃ session, phase = .claimed session) ∨
      ∃ e p' phase', (e = .run ∨ e = .launchOk ∧ phase = .launching) ∧
        ClaimStep options i kind p phase e p' phase' := by
  have htry := tryAcquire_closed hclosed
  cases phase with
  | start => exact .inr ⟨_, _, _, .inl rfl, .tryAcquireClosed htry⟩
  | noPermits => exact .inr ⟨_, _, _, .inl rfl, .fetchAdd⟩
  | counted queued =>
    by_cases hfull : options.maxQueue < queued
    · exact .inr ⟨_, _, _, .inl rfl, .queueFull hfull⟩
    · exact .inr ⟨_, _, _, .inl rfl, .acquireClosed (Nat.le_of_not_lt hfull) htry⟩
  | waiting started => exact .inr ⟨_, _, _, .inl rfl, .closedWaiting hclosed⟩
  | leaving exit =>
    cases exit with
    | admitted => exact .inr ⟨_, _, _, .inl rfl, .admitted⟩
    | refused e => exact .inr ⟨_, _, _, .inl rfl, .refused⟩
    | dropped => exact .inr ⟨_, _, _, .inl rfl, .uncounted⟩
  | holding =>
    cases kind with
    | claim =>
      cases hwarm : p.warm with
      | nil => exact .inr ⟨_, _, _, .inl rfl, .noWarm rfl hwarm⟩
      | cons entry rest => exact .inr ⟨_, _, _, .inl rfl, .popWarm rfl hwarm⟩
    | claimWith => exact .inr ⟨_, _, _, .inl rfl, .launchDedicated rfl⟩
  | popped warm =>
    cases halive : p.isAlive warm.session with
    | true => exact .inr ⟨_, _, _, .inl rfl, .warmAlive halive⟩
    | false => exact .inr ⟨_, _, _, .inl rfl, .warmDead halive⟩
  | launching => exact .inr ⟨_, _, _, .inr ⟨rfl, rfl⟩, .launchOk⟩
  | claimed session => exact .inl ⟨session, rfl⟩
  | orphaned session => exact .inr ⟨_, _, _, .inl rfl, .destroySpawned⟩
  | destroying session background => exact .inr ⟨_, _, _, .inl rfl, .destroyed⟩
  | releasing => exact .inr ⟨_, _, _, .inl rfl, .addPermit⟩
  | finished => cases hphase
  | failed e => cases hphase
  | cancelled => cases hphase
  | abandoned session => cases hphase

theorem ReplenisherStep.goes_on (options : PoolOptions) {p : Inner}
    (hclosed : p.semaphore.closed = true) (hr : r ≠ .returned) :
    ∃ p' r', ReplenisherStep options p r p' r' := by
  cases r with
  | top => exact ⟨_, _, .closed hclosed⟩
  | culling => exact ⟨_, _, .readClock⟩
  | locking now => exact ⟨_, _, .cull rfl⟩
  | expired sessions =>
    cases sessions with
    | nil => exact ⟨_, _, .readWarm⟩
    | cons session rest => exact ⟨_, _, .destroyExpired⟩
  | destroyingExpired rest => exact ⟨_, _, .destroyedExpired⟩
  | sawWarm warm => exact ⟨_, _, .readLaunching⟩
  | sawLaunching warm launching => exact ⟨_, _, .readMax⟩
  | sawMax warm launching maxSessions =>
    by_cases hnone :
        Replenisher.wantedLaunches options warm launching maxSessions p.semaphore.permits = 0
    · exact ⟨_, _, .noneWanted hnone⟩
    · exact ⟨_, _, .someWanted hnone⟩
  | idle => exact ⟨_, _, .woken⟩
  | wanted => exact ⟨_, _, .beginLaunch⟩
  | creating => exact ⟨_, _, .createOk⟩
  | created result =>
    cases result with
    | ok session => exact ⟨_, _, .launchedOk⟩
    | error message => exact ⟨_, _, .launchedErr⟩
  | launched session => exact ⟨_, _, .closedMeanwhile hclosed⟩
  | pushing session => exact ⟨_, _, .push⟩
  | backoff => exact ⟨_, _, .retry⟩
  | destroyingLast => exact ⟨_, _, .destroyedLast⟩
  | returned => exact absurd rfl hr

/-- What the replenisher, the spawned destroys and `close` itself do. -/
def Action.task : Action → Bool
  | .replenish | .drain | .startCleanup _ | .finishCleanup _ => true
  | _ => false

/-- Where the claims of a closed pool are over and no task can go on, the pool is over. -/
theorem Pool.over_of_idle {s : Pool} (hclosed : s.inner.semaphore.closed = true) (hidle : s.Idle)
    (hstuck : ∀ a t, a.task = true → ¬ Pool.Step options s a t) : s.Over := by
  refine ⟨?_, hidle, ?_, ?_, ?_⟩
  · by_contra hr
    obtain ⟨p, r, h⟩ := ReplenisherStep.goes_on options hclosed hr
    exact hstuck .replenish _ rfl (.replenish h)
  · by_contra hspawned
    obtain ⟨session, hmem⟩ := List.exists_mem_of_ne_nil _ hspawned
    exact hstuck (.startCleanup session) _ rfl (.startCleanup hmem)
  · by_contra hdestroying
    obtain ⟨session, hmem⟩ := List.exists_mem_of_ne_nil _ hdestroying
    exact hstuck (.finishCleanup session) _ rfl (.finishCleanup hmem)
  · cases hclosing : s.closing with
    | zero => rfl
    | succ n => exact absurd (.drain hclosing) (hstuck .drain _ rfl)

/-- Where no task of a closed pool can go on, the pool is over. -/
theorem Pool.over_of_stuck {s : Pool} (hclosed : s.inner.semaphore.closed = true)
    (hstuck : ∀ a t, ¬ ((Pool.system options).guarded Pool.Quiet).step s a t) : s.Over := by
  apply Pool.over_of_idle hclosed
  · intro c hc
    by_contra hover
    obtain ⟨i, hi⟩ := List.getElem?_of_mem hc
    have hgoes := ClaimStep.goes_on options i c.kind hclosed (Bool.eq_false_iff.2 hover)
    rcases hgoes with ⟨session, hclaimed⟩ | ⟨e, p, phase, _, h⟩
    · obtain ⟨kind, phase⟩ := c
      cases hclaimed
      exact hstuck (.claim i .destroy) _ ⟨.claim hi .destroy, trivial⟩
    · exact hstuck (.claim i e) _ ⟨.claim hi h, trivial⟩
  · intro a t ha h
    refine hstuck a t ⟨h, ?_⟩
    cases a with
    | replenish => trivial
    | drain => trivial
    | startCleanup session => trivial
    | finishCleanup session => trivial
    | _ => cases ha

/-- A closed pool comes to its rest. Unless something comes from outside, its tasks have a
bounded number of sections left, whatever they wait for and in whatever order they run, and
where none of them can go on the replenisher has returned, every claim is over and no destroy
is under way. -/
theorem closed_pool_comes_to_rest (options : PoolOptions)
    (hclosed : s.inner.semaphore.closed = true) :
    (∀ as t, ((Pool.system options).guarded Pool.Quiet).Run s as t →
      as.length + t.work ≤ s.work ∧
        ((∀ a u, ¬ ((Pool.system options).guarded Pool.Quiet).step t a u) → t.Over)) ∧
      ∃ as t, ((Pool.system options).guarded Pool.Quiet).Run s as t ∧ t.Over := by
  have hworks : ∀ (s : Pool) a t, s.inner.semaphore.closed = true →
      ((Pool.system options).guarded Pool.Quiet).step s a t →
      t.inner.semaphore.closed = true ∧ t.work < s.work :=
    fun s a t hc hst => hst.1.works hst.2 hc
  constructor
  · intro as t hrun
    obtain ⟨hlength, hstays⟩ := hrun.length_le hclosed hworks
    exact ⟨hlength, Pool.over_of_stuck hstays⟩
  · obtain ⟨as, t, hrun, hstuck⟩ := System.exists_stuck
      (I := fun s => s.inner.semaphore.closed = true) (f := Pool.work) hclosed hworks
    exact ⟨as, t, hrun, Pool.over_of_stuck (hrun.length_le hclosed hworks).2 hstuck⟩

/-- A pool that is closed while one claim waits, one launches and a browser is parked. -/
def Pool.closedMidway : Pool where
  inner := { Inner.new ⟨1, 1, 1, 0, 1, 1⟩ with
    semaphore := ⟨0, [], [], true⟩, warm := [⟨0, 0⟩], waiting := 1 }
  claims := [⟨.claimWith, .launching⟩, ⟨.claim, .waiting 0⟩]
  replenisher := .top
  closing := 1
  resizing := none

theorem closed_pool_comes_to_rest_midway :
    Pool.closedMidway.work = 19 ∧
      ∃ as t, ((Pool.system ⟨1, 1, 1, 0, 1, 1⟩).guarded Pool.Quiet).Run .closedMidway as t ∧
        as.length ≤ 19 ∧ t.Over := by
  have hrest := closed_pool_comes_to_rest (s := .closedMidway) ⟨1, 1, 1, 0, 1, 1⟩ rfl
  obtain ⟨as, t, hrun, hover⟩ := hrest.2
  have hlength : as.length + t.work ≤ 19 := (hrest.1 as t hrun).1
  exact ⟨rfl, as, t, hrun, by omega, hover⟩

end BrowserServe
