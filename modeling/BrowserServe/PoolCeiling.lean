import BrowserServe.PoolOwnership

namespace BrowserServe
open Library
set_option autoImplicit true

/-- A session whose destroy was abandoned halfway still has its `factory.destroy` ahead. -/
@[simp] def ClaimPhase.abandonedSlot : ClaimPhase → Nat
  | .abandoned _ => 1
  | _ => 0

/-- Slots held: by claims launching, and by claimed sessions until they are destroyed. -/
def Pool.heldSlots (s : Pool) : Nat :=
  s.launchingSlots + s.claimedSlots + total (fun c => c.phase.abandonedSlot) s.claims

/-- The calibration gate: `set_max_sessions` runs only while no slot is held. -/
def Pool.Gate (s : Pool) : Prop := s.resizing ≠ none → s.heldSlots = 0

def Pool.gatedSystem (options : PoolOptions) : System Pool Action :=
  (Pool.system options).guarded fun _ _ t => t.Gate

def Pool.circulating (s : Pool) : Nat :=
  s.inner.semaphore.unclaimed +
    total (fun c => c.phase.slot + c.phase.abandonedSlot) s.claims

theorem Pool.circulating_eq (s : Pool) : s.circulating = s.freePermits + s.heldSlots := by
  have hslots := s.slots_eq
  have hsplit := total_add (fun c : Claim => c.phase.slot) (fun c => c.phase.abandonedSlot)
    s.claims
  simp only [Pool.circulating, Pool.heldSlots, Pool.slots] at *
  omega

theorem ClaimStep.circulating (h : ClaimStep options i kind p phase e p' phase') :
    p'.semaphore.unclaimed + (phase'.slot + phase'.abandonedSlot) ≤
      p.semaphore.unclaimed + (phase.slot + phase.abandonedSlot) := by
  have hslots := h.slots
  have habandoned : phase'.abandonedSlot ≤
      phase.abandonedSlot + (Action.claim i e).losesSlot.toNat := by
    cases h <;> simp
  omega

/-- The permits in circulation stay under the ceiling; while `set_max_sessions` is under way
they stay under the previous one. -/
structure Pool.Ceiling (s : Pool) : Prop where
  settled : s.resizing = none → s.circulating ≤ s.inner.maxSessions
  resizing : ∀ previous target, s.resizing = some (previous, target) →
    s.circulating ≤ previous ∧ s.inner.maxSessions = target

theorem Pool.Ceiling.of_le {s t : Pool} (hs : s.Ceiling) (hc : t.circulating ≤ s.circulating)
    (hmax : t.inner.maxSessions = s.inner.maxSessions) (hr : t.resizing = s.resizing) :
    t.Ceiling := by
  refine ⟨fun h => ?_, fun previous target h => ?_⟩
  · have := hs.settled (hr ▸ h)
    omega
  · have := hs.resizing previous target (hr ▸ h)
    omega

theorem ClaimStep.maxSessions (h : ClaimStep options i kind p phase e p' phase') :
    p'.maxSessions = p.maxSessions := by
  cases h <;> rfl

theorem ReplenisherStep.maxSessions (h : ReplenisherStep options p r p' r') :
    p'.maxSessions = p.maxSessions := by
  cases h <;> rfl

theorem Pool.Step.ceiling (h : Pool.Step options s a t) (hs : s.Ceiling) (hg : s.Gate) :
    t.Ceiling := by
  cases h with
  | @claim i c e p phase _ hc h =>
    refine hs.of_le ?_ h.maxSessions rfl
    have hlocal := h.circulating
    have hset := total_set (fun c : Claim => c.phase.slot + c.phase.abandonedSlot) hc
      ⟨c.kind, phase⟩
    simp only [Pool.circulating] at hset ⊢
    omega
  | replenish h =>
    refine hs.of_le ?_ h.maxSessions rfl
    simp only [Pool.circulating, h.semaphore]
    exact Nat.le_refl _
  | spawn =>
    refine hs.of_le ?_ rfl rfl
    simp [Pool.circulating]
  | swapMax h =>
    constructor
    · intro hn
      cases hn
    · intro previous target he
      cases he
      exact ⟨hs.settled h, rfl⟩
  | @adjustPermits previous target _ h =>
    have hheld := hg (by rw [h]; simp)
    obtain ⟨hle, hmax⟩ := hs.resizing previous target h
    have hcirc := s.circulating_eq
    have hclaims : total (fun c : Claim => c.phase.slot + c.phase.abandonedSlot) s.claims = 0 ∧
        s.inner.semaphore.granted.length = 0 := by
      simp only [Pool.circulating, Pool.freePermits, Semaphore.unclaimed] at hcirc
      omega
    obtain ⟨hzero, hgranted⟩ := hclaims
    constructor
    · intro _
      simp only [Pool.circulating, hzero] at hle ⊢
      simp only [Inner.adjustPermits]
      split
      · simp only [Semaphore.addPermits_unclaimed]
        omega
      · simp only [Semaphore.forgetPermits, Semaphore.unclaimed] at hle ⊢
        omega
    · intro _ _ he
      cases he
  | _ => exact hs.of_le (Nat.le_refl _) rfl rfl

theorem Pool.ceiling (h : (Pool.gatedSystem options).Reachable s) : s.Ceiling ∧ s.Gate := by
  apply h.invariant (I := fun s => s.Ceiling ∧ s.Gate) ?_
    fun _ _ _ _ hi hs => ⟨hs.1.ceiling hi.1 hi.2, hs.2⟩
  intro _ hinit
  cases hinit
  exact ⟨⟨fun _ => Nat.le_refl _, fun _ _ he => (nomatch he)⟩, fun hn => (hn rfl).elim⟩

theorem Pool.heldSlots_le (h : (Pool.gatedSystem options).Reachable s) :
    s.heldSlots ≤ s.inner.maxSessions := by
  obtain ⟨hc, hg⟩ := Pool.ceiling h
  have heq := s.circulating_eq
  cases hr : s.resizing with
  | none =>
    have := hc.settled hr
    omega
  | some r =>
    have := hg (by rw [hr]; simp)
    omega

theorem Pool.owned (h : (Pool.system options).Reachable s) : s.Owned := by
  apply h.invariant ?_ fun _ _ _ _ ho hs => hs.owned ho
  intro _ hinit
  cases hinit
  exact ⟨fun x => rfl, fun x => Nat.zero_le _⟩

theorem Inner.born_le (x : Session) (p : Inner) : p.born x ≤ 1 := by
  unfold born
  split <;> omega

theorem ClaimStep.handedOut (h : ClaimStep options i kind p phase e p' phase')
    (hx : x ∈ p.handedOut) : x ∈ p'.handedOut := by
  cases h <;> simp [hx]

theorem Pool.Step.handedOut (h : Pool.Step options s a t) (hx : x ∈ s.inner.handedOut) :
    x ∈ t.inner.handedOut := by
  cases h with
  | claim hc h => exact h.handedOut hx
  | replenish h => simpa only [h.handedOut] using hx
  | adjustPermits h =>
    simp only [Inner.adjustPermits]
    split <;> exact hx
  | _ => exact hx

theorem Pool.Owned.not_warm {s : Pool} (ho : s.Owned) (hx : x ∈ s.inner.handedOut) :
    x ∉ s.inner.warm.map Warm.session := by
  intro hw
  have hhanded := ho.handed x
  have hborn := s.inner.born_le x
  have hcount := List.count_pos_iff.2 hx
  have hwarm := List.count_pos_iff.2 hw
  simp only [Pool.stock, Inner.stock] at hhanded
  omega

/-- Over all runs of the pool whose ceiling changes only behind the calibration gate: the
slots held stay under the ceiling, no session is handed to two claims, none returns to the
warm stock after it was handed out, and none is destroyed twice. -/
theorem ceiling_and_single_hand_out (h : (Pool.gatedSystem options).Reachable s) :
    s.heldSlots ≤ s.inner.maxSessions ∧
      s.inner.handedOut.Nodup ∧
      (∀ as t, (Pool.gatedSystem options).Run s as t →
        ∀ x ∈ s.inner.handedOut, x ∉ t.inner.warm.map Warm.session) ∧
      s.inner.destroyCalls.Nodup := by
  have ho := Pool.owned (System.guarded_reachable h)
  refine ⟨Pool.heldSlots_le h, ?_, fun as t hrun x hx => ?_, ?_⟩
  · apply List.nodup_iff_count_le_one.2 fun x => ?_
    have := ho.handed x
    have := s.inner.born_le x
    omega
  · have hxt := hrun.preserves (I := fun t => x ∈ t.inner.handedOut) hx
      fun _ _ _ hi hs => hs.1.handedOut hi
    exact (Pool.owned (System.guarded_reachable (hrun.reachable h))).not_warm hxt
  · apply List.nodup_iff_count_le_one.2 fun x => ?_
    have := ho.once x
    have := s.inner.born_le x
    omega

/-- After `set_max_sessions` raised the ceiling to two, a claim launches and is destroyed. -/
theorem ceiling_and_single_hand_out_resized :
    ∃ s, (Pool.gatedSystem ⟨0, 1, 0, 0, 0, 0⟩).Reachable s ∧
      s.inner.maxSessions = 2 ∧ s.inner.handedOut = [0] ∧ s.inner.destroyCalls = [0] ∧
      s.heldSlots ≤ s.inner.maxSessions ∧ s.inner.handedOut.Nodup := by
  have hopen {s : Pool} (hr : s.resizing = none) : s.Gate := fun hn => (hn hr).elim
  have hrun : (Pool.gatedSystem ⟨0, 1, 0, 0, 0, 0⟩).Run (.new ⟨0, 1, 0, 0, 0, 0⟩)
      [.swapMax 2, .adjustPermits, .spawn .claim, .claim 0 .run, .claim 0 .run,
        .claim 0 .launchOk, .claim 0 .destroy] _ :=
    .cons ⟨.swapMax rfl, fun _ => rfl⟩ <| .cons ⟨.adjustPermits rfl, hopen rfl⟩ <|
      .cons ⟨.spawn, hopen rfl⟩ <|
      .cons ⟨.claim rfl (.tryAcquireOk rfl), hopen rfl⟩ <|
      .cons ⟨.claim rfl (.noWarm rfl rfl), hopen rfl⟩ <|
      .cons ⟨.claim rfl .launchOk, hopen rfl⟩ <| .single ⟨.claim rfl .destroy, hopen rfl⟩
  have hreach := hrun.reachable (.init rfl)
  have hsafe := ceiling_and_single_hand_out hreach
  exact ⟨_, hreach, rfl, rfl, rfl, hsafe.1, hsafe.2.1⟩

/-- While the server calibrates it refuses every connection, so no claim exists until
`set_max_sessions` is done; such runs are behind the gate. -/
theorem Pool.calibration_gate (h : ((Pool.system options).guarded
      fun _ _ t => t.resizing ≠ none → t.claims = []).Reachable s) :
    (Pool.gatedSystem options).Reachable s := by
  induction h with
  | init hs => exact .init hs
  | @step _ _ t hr hs ih =>
    apply ih.step ⟨hs.1, fun hn => ?_⟩
    have hclaims := hs.2 hn
    have hidle : t.Idle := fun c hc => by simp [hclaims] at hc
    have hq := Pool.queued ((System.guarded_reachable hr).step hs.1)
    have hfree := hidle.free hq
    rw [Pool.slots_eq] at hfree
    have habandoned : total (fun c : Claim => c.phase.abandonedSlot) t.claims = 0 := by
      rw [hclaims]
      rfl
    simp only [Pool.heldSlots, habandoned]
    omega

end BrowserServe
