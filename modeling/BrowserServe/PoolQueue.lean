import BrowserServe.PoolCeiling

namespace BrowserServe
open Library
set_option autoImplicit true

/-- A claim inside the section that `CounterGuard` counts. -/
@[simp] def ClaimPhase.inLine : ClaimPhase → Nat
  | .counted _ | .waiting _ | .leaving _ => 1
  | _ => 0

/-- A claim that there is room for in the line, from its count until it has left. -/
@[simp] def ClaimPhase.admittedToWait (maxQueue : Nat) : ClaimPhase → Nat
  | .counted queued => if queued ≤ maxQueue then 1 else 0
  | .leaving (.refused (.queueFull _)) => 0
  | .waiting _ | .leaving _ => 1
  | _ => 0

/-- A claim on its way out with the queue as the reason, or gone with it. -/
@[simp] def ClaimPhase.refusedForQueue : ClaimPhase → Bool
  | .leaving (.refused (.queueFull _)) | .failed (.queueFull _) => true
  | _ => false

/-- A claim that has taken a permit, and whatever becomes of it. -/
@[simp] def ClaimPhase.tookPermit : ClaimPhase → Bool
  | .start | .noPermits | .counted _ | .waiting _ => false
  | .leaving .admitted => true
  | .leaving _ => false
  | .failed (.launch _) => true
  | .failed _ => false
  | _ => true

theorem ClaimPhase.admittedToWait_le (maxQueue : Nat) (phase : ClaimPhase) :
    phase.admittedToWait maxQueue ≤ phase.inLine := by
  cases phase with
  | counted queued =>
    simp only [admittedToWait, inLine]
    split <;> omega
  | leaving exit =>
    cases exit with
    | refused e => cases e <;> simp
    | _ => simp
  | _ => simp

theorem ClaimPhase.tookPermit_not_refused {phase : ClaimPhase} (h : phase.tookPermit = true) :
    phase.refusedForQueue = false := by
  cases phase with
  | leaving exit => cases exit <;> simp at h ⊢
  | failed e => cases e <;> simp at h ⊢
  | _ => rfl

/-- A section moves the counter as it moves its claim into the line or out of it. -/
theorem ClaimStep.waiting (h : ClaimStep options i kind p phase e p' phase')
    (hcounted : phase.inLine ≤ p.waiting) :
    p'.waiting + phase.inLine = p.waiting + phase'.inLine := by
  cases h with
  | admitted => exact Nat.sub_add_cancel hcounted
  | refused => exact Nat.sub_add_cancel hcounted
  | uncounted => exact Nat.sub_add_cancel hcounted
  | _ => rfl

/-- Only a claim that found the counter below the bound comes to be admitted. -/
theorem ClaimStep.admittedToWait (h : ClaimStep options i kind p phase e p' phase') :
    phase'.admittedToWait options.maxQueue ≤ phase.admittedToWait options.maxQueue ∨
      p'.waiting ≤ options.maxQueue := by
  cases h with
  | fetchAdd =>
    by_cases hroom : p.waiting + 1 ≤ options.maxQueue
    · exact .inr hroom
    · left
      simp [hroom]
  | queueFull => exact .inl (Nat.zero_le _)
  | acquireOk hq => exact .inl (by simp [hq])
  | acquireClosed hq => exact .inl (by simp [hq])
  | acquirePending hq => exact .inl (by simp [hq])
  | refused => exact .inl (Nat.zero_le _)
  | _ => exact .inl (by simp)

theorem ClaimStep.tookPermit (h : ClaimStep options i kind p phase e p' phase')
    (htook : phase.tookPermit = true) : phase'.tookPermit = true := by
  cases h with
  | refused => cases htook
  | uncounted => cases htook
  | _ => first | rfl | cases htook

theorem ReplenisherStep.waiting (h : ReplenisherStep options p r p' r') :
    p'.waiting = p.waiting := by
  cases h <;> rfl

/-- The counter is the number of claims in the line, and the line has its bound. -/
structure Pool.WaitingLine (options : PoolOptions) (s : Pool) : Prop where
  counter : s.inner.waiting = total (fun c => c.phase.inLine) s.claims
  bounded : total (fun c => c.phase.admittedToWait options.maxQueue) s.claims ≤ options.maxQueue

theorem Pool.WaitingLine.of_eq {s t : Pool} (hs : s.WaitingLine options)
    (hwaiting : t.inner.waiting = s.inner.waiting) (hclaims : t.claims = s.claims) :
    t.WaitingLine options := by
  constructor
  · rw [hwaiting, hclaims]
    exact hs.counter
  · rw [hclaims]
    exact hs.bounded

theorem Pool.WaitingLine.counted {s : Pool} (hs : s.WaitingLine options) (hc : c ∈ s.claims) :
    c.phase.inLine ≤ s.inner.waiting := by
  rw [hs.counter]
  exact weight_le_total (fun c => c.phase.inLine) hc

theorem Pool.WaitingLine.claim {s : Pool} (hs : s.WaitingLine options)
    (hc : s.claims[i]? = some c) (h : ClaimStep options i c.kind s.inner c.phase e p phase) :
    Pool.WaitingLine options { s with inner := p, claims := s.claims.set i ⟨c.kind, phase⟩ } := by
  have hwaiting := h.waiting (hs.counted (List.mem_of_getElem? hc))
  have hline := total_set (fun c : Claim => c.phase.inLine) hc ⟨c.kind, phase⟩
  have hadmitted := total_set (fun c : Claim => c.phase.admittedToWait options.maxQueue) hc
    ⟨c.kind, phase⟩
  have hcounter := hs.counter
  have hbounded := hs.bounded
  have hnext : p.waiting = total (fun c => c.phase.inLine) (s.claims.set i ⟨c.kind, phase⟩) := by
    simp only at hline
    omega
  refine ⟨hnext, ?_⟩
  simp only at hadmitted ⊢
  cases h.admittedToWait with
  | inl hle => omega
  | inr hroom =>
    have hpart := total_le (s.claims.set i ⟨c.kind, phase⟩)
      fun c : Claim => c.phase.admittedToWait_le options.maxQueue
    omega

theorem Pool.Step.waitingLine (h : Pool.Step options s a t) (hs : s.WaitingLine options) :
    t.WaitingLine options := by
  cases h with
  | claim hc h => exact hs.claim hc h
  | replenish h => exact hs.of_eq h.waiting rfl
  | spawn =>
    constructor
    · rw [hs.counter, total_append]
      rfl
    · rw [total_append]
      exact hs.bounded
  | adjustPermits =>
    apply hs.of_eq
    · simp only [Inner.adjustPermits]
      split <;> rfl
    · rfl
  | _ => exact hs.of_eq rfl rfl

theorem Pool.waitingLine (h : (Pool.system options).Reachable s) : s.WaitingLine options := by
  apply h.invariant ?_ fun _ _ _ _ hs hst => hst.waitingLine hs
  intro _ hinit
  cases hinit
  exact ⟨rfl, Nat.zero_le _⟩

theorem Pool.Step.tookPermit {i : Nat} (h : Pool.Step options s a t)
    (hs : ∃ c : Claim, s.claims[i]? = some c ∧ c.phase.tookPermit = true) :
    ∃ c : Claim, t.claims[i]? = some c ∧ c.phase.tookPermit = true := by
  obtain ⟨c, hc, htook⟩ := hs
  cases h with
  | @claim j d e p phase _ hd h =>
    by_cases hij : j = i
    · subst j
      obtain rfl := Option.some.inj (hd.symm.trans hc)
      have hlt := (List.getElem?_eq_some_iff.1 hd).1
      exact ⟨_, List.getElem?_set_self hlt, h.tookPermit htook⟩
    · exact ⟨c, (List.getElem?_set_ne hij).trans hc, htook⟩
  | spawn =>
    have hlt := (List.getElem?_eq_some_iff.1 hc).1
    exact ⟨c, (List.getElem?_append_left hlt).trans hc, htook⟩
  | _ => exact ⟨c, hc, htook⟩

/-- A claim that is about to try the semaphore, which has a permit free. -/
def Pool.FindsPermit (options : PoolOptions) (s : Pool) (i : Nat) : Prop :=
  s.inner.semaphore.closed = false ∧ 0 < s.inner.semaphore.permits ∧
    ∃ c, s.claims[i]? = some c ∧
      (c.phase = .start ∨ ∃ queued ≤ options.maxQueue, c.phase = .counted queued)

theorem Pool.FindsPermit.took {s : Pool} (hf : s.FindsPermit options i)
    (h : Pool.Step options s (.claim i .run) t) :
    ∃ c, t.claims[i]? = some c ∧ c.phase.tookPermit = true := by
  obtain ⟨hopen, hfree, c, hc, hphase⟩ := hf
  have htry : s.inner.semaphore.tryAcquire =
      .ok { s.inner.semaphore with permits := s.inner.semaphore.permits - 1 } := by
    rw [Semaphore.tryAcquire, if_neg (by simp [hopen]), if_neg (Nat.ne_of_gt hfree)]
  cases h with
  | @claim _ d _ p phase _ hd h =>
    obtain rfl := Option.some.inj (hd.symm.trans hc)
    have hlt := (List.getElem?_eq_some_iff.1 hd).1
    refine ⟨⟨d.kind, phase⟩, List.getElem?_set_self hlt, ?_⟩
    obtain ⟨kind, dphase⟩ := d
    cases hphase with
    | inl hstart =>
      subst hstart
      cases h with
      | tryAcquireOk => rfl
      | tryAcquireClosed h => cases htry.symm.trans h
      | tryAcquireNoPermits h => cases htry.symm.trans h
    | inr hcounted =>
      obtain ⟨queued, hroom, hcounted⟩ := hcounted
      subst hcounted
      cases h with
      | queueFull hfull => exact absurd hroom (Nat.not_le_of_lt hfull)
      | acquireOk => rfl
      | acquireClosed _ h => cases htry.symm.trans h
      | acquirePending _ h => cases htry.symm.trans h

theorem Pool.FindsPermit.never_refused {s : Pool} (hf : s.FindsPermit options i)
    (h : Pool.Step options s (.claim i .run) t) (hrun : (Pool.system options).Run t as u)
    (hd : u.claims[i]? = some d) : d.phase.refusedForQueue = false := by
  obtain ⟨c, hc, htook⟩ := hrun.preserves
    (I := fun t => ∃ c, t.claims[i]? = some c ∧ c.phase.tookPermit = true) (hf.took h)
    fun _ _ _ hs hst => hst.tookPermit hs
  obtain rfl := Option.some.inj (hc.symm.trans hd)
  exact ClaimPhase.tookPermit_not_refused htook

/-- Over all runs of the pool: the counter is the number of claims in the line, so that it is
positive where one leaves and zero when none is left; no more claims are admitted to wait than
`max_queue`; and one that finds a free permit is never refused for the queue. -/
theorem waiting_line_bounded_and_exact (h : (Pool.system options).Reachable s) :
    s.inner.waiting = total (fun c => c.phase.inLine) s.claims ∧
      total (fun c => c.phase.admittedToWait options.maxQueue) s.claims ≤ options.maxQueue ∧
      (∀ c ∈ s.claims, c.phase.inLine ≤ s.inner.waiting) ∧
      ((∀ c ∈ s.claims, c.phase.inLine = 0) → s.inner.waiting = 0) ∧
      ∀ i t as u d, s.FindsPermit options i →
        (Pool.system options).step s (.claim i .run) t →
        (Pool.system options).Run t as u → u.claims[i]? = some d →
        d.phase.refusedForQueue = false := by
  have hline := Pool.waitingLine h
  refine ⟨hline.counter, hline.bounded, fun c hc => hline.counted hc, fun hnone => ?_, ?_⟩
  · rw [hline.counter]
    exact total_eq_zero hnone
  · intro i t as u d hf hst hrun hd
    exact hf.never_refused hst hrun hd

/-- With room for one in the line, a second claim waits there and a third is refused, counted
as well until it leaves. -/
theorem waiting_line_bounded_and_exact_full :
    ∃ s, (Pool.system ⟨0, 1, 1, 0, 0, 0⟩).Reachable s ∧
      s.inner.waiting = 2 ∧ total (fun c => c.phase.inLine) s.claims = 2 ∧
      total (fun c => c.phase.admittedToWait 1) s.claims ≤ 1 := by
  have hrun : (Pool.system ⟨0, 1, 1, 0, 0, 0⟩).Run (.new ⟨0, 1, 1, 0, 0, 0⟩)
      [.spawn .claim, .claim 0 .run, .spawn .claim, .spawn .claim, .claim 1 .run, .claim 1 .run,
        .claim 1 .run, .claim 2 .run, .claim 2 .run, .claim 2 .run] _ :=
    .cons .spawn <| .cons (.claim rfl (.tryAcquireOk rfl)) <| .cons .spawn <| .cons .spawn <|
      .cons (.claim rfl (.tryAcquireNoPermits rfl)) <| .cons (.claim rfl .fetchAdd) <|
      .cons (.claim rfl (.acquirePending (by decide) rfl)) <|
      .cons (.claim rfl (.tryAcquireNoPermits rfl)) <| .cons (.claim rfl .fetchAdd) <|
      .single (.claim rfl (.queueFull (by decide)))
  have hreach := hrun.reachable (.init rfl)
  have hline := waiting_line_bounded_and_exact hreach
  exact ⟨_, hreach, rfl, hline.1.symm, hline.2.1⟩

end BrowserServe
