import BrowserServe.PoolStep
import BrowserServe.Library.Tasks

namespace BrowserServe
open Library
set_option autoImplicit true

/-- The slot of a claim that has its permit and no session yet. -/
@[simp] def ClaimPhase.launchingSlot : ClaimPhase → Nat
  | .leaving .admitted | .holding | .popped _ | .launching => 1
  | _ => 0

/-- The slot of a live `Claimed`, or of its destroy until the permit is back. -/
@[simp] def ClaimPhase.claimedSlot : ClaimPhase → Nat
  | .claimed _ | .orphaned _ | .destroying _ _ | .releasing => 1
  | _ => 0

@[simp] def ClaimPhase.slot (phase : ClaimPhase) : Nat := phase.launchingSlot + phase.claimedSlot

/-- Free permits, as `available_permits` counts them. -/
def Pool.freePermits (s : Pool) : Nat := s.inner.semaphore.permits

/-- Slots of claims still launching. A claim owns its slot from the moment the semaphore
assigns it a permit, before the claim runs again. -/
def Pool.launchingSlots (s : Pool) : Nat :=
  s.inner.semaphore.granted.length + total (fun c => c.phase.launchingSlot) s.claims

def Pool.claimedSlots (s : Pool) : Nat :=
  total (fun c => c.phase.claimedSlot) s.claims

/-- Steps that drop a future holding a slot nobody else will give back. -/
@[simp] def Action.losesSlot : Action → Bool
  | .claim _ .dropLaunch | .claim _ .dropDestroy => true
  | _ => false

def Action.resizes : Action → Bool
  | .swapMax _ | .adjustPermits => true
  | _ => false

def Action.slotCost (a : Action) : Nat := a.losesSlot.toNat

/-- Every permit in circulation: unclaimed, or owned by a claim. -/
def Pool.slots (s : Pool) : Nat :=
  s.inner.semaphore.unclaimed + total (fun c => c.phase.slot) s.claims

theorem Pool.slots_eq (s : Pool) :
    s.slots = s.freePermits + s.launchingSlots + s.claimedSlots := by
  have hsplit := total_add (fun c : Claim => c.phase.launchingSlot)
    (fun c => c.phase.claimedSlot) s.claims
  simp only [Pool.slots, Pool.freePermits, Pool.launchingSlots, Pool.claimedSlots,
    Semaphore.unclaimed, ClaimPhase.slot]
  omega

/-- What one section of a claim does to the permits it can see and to its own slot. -/
theorem ClaimStep.slots (h : ClaimStep options i kind p phase e p' phase') :
    p'.semaphore.unclaimed + phase'.slot + (Action.claim i e).losesSlot.toNat =
      p.semaphore.unclaimed + phase.slot := by
  cases h with
  | tryAcquireOk h => simpa using Semaphore.tryAcquire_unclaimed h
  | acquireOk hq h => simpa using Semaphore.tryAcquire_unclaimed h
  | granted ho h => simpa using Semaphore.take_unclaimed h
  | _ => simp

theorem ReplenisherStep.semaphore (h : ReplenisherStep options p r p' r') :
    p'.semaphore = p.semaphore := by
  cases h <;> rfl

/-- Outside `set_max_sessions` a step keeps every slot, except one that loses it. -/
theorem Pool.Step.slots (h : Pool.Step options s a t) (ha : a.resizes = false) :
    t.slots + a.slotCost = s.slots := by
  cases h with
  | @claim i c e p phase _ hc h =>
    have hlocal := h.slots
    have hset := total_set (fun c : Claim => c.phase.slot) hc ⟨c.kind, phase⟩
    simp only [Pool.slots, Action.slotCost] at hset ⊢
    omega
  | replenish h =>
    simp only [Pool.slots, h.semaphore]
    rfl
  | spawn =>
    simp only [Pool.slots, total_append]
    rfl
  | swapMax => cases ha
  | adjustPermits => cases ha
  | _ => rfl

theorem sum_slotCost (as : List Action) :
    (as.map Action.slotCost).sum = 0 ↔ ∀ a ∈ as, a.losesSlot = false := by
  induction as with
  | nil => simp
  | cons a as ih =>
    simp only [List.map_cons, List.sum_cons, List.forall_mem_cons, ← ih, Action.slotCost]
    cases a.losesSlot <;> simp

/-- Neither a claim future nor a `Claimed` is left, and every destroy has come to its end. -/
def ClaimPhase.over : ClaimPhase → Bool
  | .finished | .failed _ | .cancelled | .abandoned _ => true
  | _ => false

def Pool.Idle (s : Pool) : Prop := ∀ c ∈ s.claims, c.phase.over = true

/-- Only claims suspended on the semaphore are in its books, each once. -/
structure Pool.Queued (s : Pool) : Prop where
  nodup : s.inner.semaphore.pending.Nodup
  waiting : ∀ i ∈ s.inner.semaphore.pending,
    ∃ c started, s.claims[i]? = some c ∧ c.phase = .waiting started

/-- How a section of claim `i` moves the semaphore's books: it leaves them alone, queues
itself, or, suspended before, takes itself off them. -/
theorem ClaimStep.pending (h : ClaimStep options i kind p phase e p' phase')
    (hn : p.semaphore.pending.Nodup) :
    p'.semaphore.pending.Perm p.semaphore.pending ∧ (∀ t, phase ≠ .waiting t) ∨
      p'.semaphore.pending.Perm (i :: p.semaphore.pending) ∧ (∀ t, phase ≠ .waiting t) ∧
        phase' = .waiting p.now ∨
      p'.semaphore.pending.Perm (p.semaphore.pending.erase i) ∧ ∃ t, phase = .waiting t := by
  cases h with
  | tryAcquireOk h =>
    obtain ⟨_, _, rfl⟩ := Semaphore.tryAcquire_ok h
    exact .inl ⟨.refl _, by simp⟩
  | acquireOk hq h =>
    obtain ⟨_, _, rfl⟩ := Semaphore.tryAcquire_ok h
    exact .inl ⟨.refl _, by simp⟩
  | acquirePending hq h => exact .inr (.inl ⟨Semaphore.enqueue_pending _ _, by simp, rfl⟩)
  | granted ho h => exact .inr (.inr ⟨.of_eq (Semaphore.take_pending hn h), _, rfl⟩)
  | closedWaiting h => exact .inr (.inr ⟨Semaphore.cancel_pending hn, _, rfl⟩)
  | timedOut h => exact .inr (.inr ⟨Semaphore.cancel_pending hn, _, rfl⟩)
  | dropWaiting => exact .inr (.inr ⟨Semaphore.cancel_pending hn, _, rfl⟩)
  | launchErr => exact .inl ⟨Semaphore.release_pending _, by simp⟩
  | addPermit => exact .inl ⟨Semaphore.release_pending _, by simp⟩
  | _ => exact .inl ⟨.refl _, by simp⟩

theorem Pool.Queued.claim {s : Pool} (hq : s.Queued) (hc : s.claims[i]? = some c)
    (h : ClaimStep options i c.kind s.inner c.phase e p phase) :
    Pool.Queued { s with inner := p, claims := s.claims.set i ⟨c.kind, phase⟩ } := by
  have hi : i < s.claims.length := (List.getElem?_eq_some_iff.1 hc).1
  have hself : (s.claims.set i ⟨c.kind, phase⟩)[i]? = some ⟨c.kind, phase⟩ :=
    List.getElem?_set_self hi
  have hother {j : Nat} (hj : j ∈ s.inner.semaphore.pending) (hne : j ≠ i) :
      ∃ d t, (s.claims.set i ⟨c.kind, phase⟩)[j]? = some d ∧ d.phase = .waiting t := by
    obtain ⟨d, t, hd, ht⟩ := hq.waiting j hj
    exact ⟨d, t, (List.getElem?_set_ne hne.symm).trans hd, ht⟩
  have hnotin (hw : ∀ t, c.phase ≠ .waiting t) : i ∉ s.inner.semaphore.pending := by
    intro hmem
    obtain ⟨d, t, hd, ht⟩ := hq.waiting i hmem
    cases hd.symm.trans hc
    exact hw t ht
  rcases h.pending hq.nodup with ⟨hp, hw⟩ | ⟨hp, hw, hphase⟩ | ⟨hp, hw⟩
  · refine ⟨hp.nodup_iff.2 hq.nodup, fun j hj => ?_⟩
    have hj' := hp.mem_iff.1 hj
    exact hother hj' fun he => hnotin hw (he ▸ hj')
  · refine ⟨hp.nodup_iff.2 (List.nodup_cons.2 ⟨hnotin hw, hq.nodup⟩), fun j hj => ?_⟩
    rcases List.mem_cons.1 (hp.mem_iff.1 hj) with he | hj'
    · subst j
      exact ⟨⟨c.kind, phase⟩, s.inner.now, hself, hphase⟩
    · exact hother hj' fun he => hnotin hw (he ▸ hj')
  · refine ⟨hp.nodup_iff.2 (hq.nodup.erase i), fun j hj => ?_⟩
    have hj' := hp.mem_iff.1 hj
    exact hother (List.mem_of_mem_erase hj') fun he =>
      hq.nodup.not_mem_erase (he ▸ hj')

theorem Pool.Queued.of_perm {s t : Pool} (hq : s.Queued) (hclaims : t.claims = s.claims)
    (hp : t.inner.semaphore.pending.Perm s.inner.semaphore.pending) : t.Queued := by
  refine ⟨hp.nodup_iff.2 hq.nodup, fun i hi => ?_⟩
  rw [hclaims]
  exact hq.waiting i (hp.mem_iff.1 hi)

theorem Pool.Step.queued (h : Pool.Step options s a t) (hq : s.Queued) : t.Queued := by
  cases h with
  | claim hc h => exact hq.claim hc h
  | spawn =>
    refine ⟨hq.nodup, fun i hi => ?_⟩
    obtain ⟨c, started, hc, hw⟩ := hq.waiting i hi
    have hlt := (List.getElem?_eq_some_iff.1 hc).1
    exact ⟨c, started, (List.getElem?_append_left hlt).trans hc, hw⟩
  | replenish h => exact hq.of_perm rfl (.of_eq (congrArg _ h.semaphore))
  | close =>
    have hsub : s.inner.semaphore.granted.Sublist s.inner.semaphore.pending :=
      List.sublist_append_right _ _
    exact ⟨hq.nodup.sublist hsub, fun i hi => hq.waiting i (hsub.mem hi)⟩
  | adjustPermits h =>
    apply hq.of_perm
    · rfl
    · simp only [Inner.adjustPermits]
      split
      · exact Semaphore.addPermits_pending _ _
      · exact .refl _
  | _ => exact hq.of_perm rfl (.refl _)

theorem Pool.queued (h : (Pool.system options).Reachable s) : s.Queued := by
  apply h.invariant ?_ fun _ _ _ _ hq hs => hs.queued hq
  intro _ hinit
  cases hinit
  exact ⟨List.nodup_nil, fun i hi => by cases hi⟩

/-- With every claim over, all the slots there are are free permits. -/
theorem Pool.Idle.free {s : Pool} (hi : s.Idle) (hq : s.Queued) : s.slots = s.freePermits := by
  have hgranted : s.inner.semaphore.granted = [] := by
    apply List.eq_nil_iff_forall_not_mem.2 fun i hmem => ?_
    obtain ⟨c, started, hc, hw⟩ := hq.waiting i (List.mem_append_right _ hmem)
    have hover := hi c (List.mem_of_getElem? hc)
    rw [hw] at hover
    cases hover
  have hzero : total (fun c : Claim => c.phase.slot) s.claims = 0 := by
    apply total_eq_zero fun c hc => ?_
    have hover := hi c hc
    cases hp : c.phase <;> simp [hp, ClaimPhase.over] at hover ⊢
  simp only [Pool.slots, Pool.freePermits, Semaphore.unclaimed, hgranted, hzero, List.length_nil,
    Nat.add_zero]

/-- No slot is lost: each one is free, with a claim still launching, or with a live `Claimed`
or a destroy in progress. -/
def Pool.Balanced (options : PoolOptions) (s : Pool) : Prop :=
  s.freePermits + s.launchingSlots + s.claimedSlots = options.maxSessions

/-- With the ceiling unchanged, a run keeps every slot exactly when none of its steps drops
a launch or an awaited destroy; then an idle pool has its whole capacity free. -/
theorem no_capacity_lost_iff (h : (Pool.system options).Run (.new options) as s)
    (hfix : ∀ a ∈ as, a.resizes = false) :
    (s.Balanced options ↔ ∀ a ∈ as, a.losesSlot = false) ∧
      ((∀ a ∈ as, a.losesSlot = false) → s.Idle → s.freePermits = options.maxSessions) := by
  have hsum : s.slots + (as.map Action.slotCost).sum = options.maxSessions :=
    h.conserves hfix fun _ _ _ ha hs => hs.slots ha
  have hzero := sum_slotCost as
  have hiff : s.Balanced options ↔ ∀ a ∈ as, a.losesSlot = false := by
    rw [← hzero, Pool.Balanced, ← s.slots_eq]
    omega
  refine ⟨hiff, fun hkeep hidle => ?_⟩
  rw [← hidle.free (Pool.queued (h.reachable (.init rfl))), s.slots_eq]
  exact hiff.2 hkeep

/-- A claim launched inline, then destroyed, gives its slot back. -/
theorem no_capacity_lost_iff_served :
    ∃ s, (Pool.system ⟨0, 1, 0, 0, 0, 0⟩).Run (.new ⟨0, 1, 0, 0, 0, 0⟩)
        [.spawn .claim, .claim 0 .run, .claim 0 .run, .claim 0 .launchOk, .claim 0 .destroy,
          .claim 0 .run, .claim 0 .run] s ∧
      s.Balanced ⟨0, 1, 0, 0, 0, 0⟩ ∧ s.freePermits = 1 := by
  have hrun : (Pool.system ⟨0, 1, 0, 0, 0, 0⟩).Run (.new ⟨0, 1, 0, 0, 0, 0⟩)
      [.spawn .claim, .claim 0 .run, .claim 0 .run, .claim 0 .launchOk, .claim 0 .destroy,
        .claim 0 .run, .claim 0 .run] _ :=
    .cons .spawn <| .cons (.claim rfl (.tryAcquireOk rfl)) <|
      .cons (.claim rfl (.noWarm rfl rfl)) <| .cons (.claim rfl .launchOk) <|
      .cons (.claim rfl .destroy) <| .cons (.claim rfl .destroyed) <|
      .single (.claim rfl .addPermit)
  have hkept := no_capacity_lost_iff hrun (by simp [Action.resizes])
  exact ⟨_, hrun, hkept.1.2 (by simp), rfl⟩

/-- A client that disconnects while its browser launches takes its slot with it: the pool
ends up idle and open, and its only slot is gone. -/
theorem dropped_launch_loses_slot :
    ∃ s, (Pool.system ⟨0, 1, 0, 0, 0, 0⟩).Run (.new ⟨0, 1, 0, 0, 0, 0⟩)
        [.spawn .claim, .claim 0 .run, .claim 0 .run, .claim 0 .dropLaunch] s ∧
      s.inner.semaphore.closed = false ∧ s.Idle ∧
      ¬ s.Balanced ⟨0, 1, 0, 0, 0, 0⟩ ∧ s.freePermits = 0 := by
  refine ⟨_, .cons .spawn <| .cons (.claim rfl (.tryAcquireOk rfl)) <|
    .cons (.claim rfl (.noWarm rfl rfl)) <| .single (.claim rfl .dropLaunching),
    rfl, ?_, ?_, rfl⟩
  · intro c hc
    simp [Pool.new] at hc
    rw [hc]
    rfl
  · intro hb
    cases hb

end BrowserServe
