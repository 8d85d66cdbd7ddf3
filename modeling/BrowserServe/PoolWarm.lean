import BrowserServe.PoolReserve

namespace BrowserServe
open Library
set_option autoImplicit true

/-- A parked session that a cull is to keep: alive, and not too old at the time it read. -/
def PoolOptions.keeps (options : PoolOptions) (now : Nat) (isAlive : Session → Bool)
    (entry : Warm) : Bool :=
  isAlive entry.session && decide (now - entry.readyAt < options.warmMaxAge)

/-- With room in the stock for all of them, idleness alone removes none. -/
theorem cullLoop_eq_filter (options : PoolOptions) (now : Nat) (isAlive : Session → Bool)
    (warm kept : List Warm) (removed : List Session)
    (hroom : kept.length + warm.length ≤ options.minReady) :
    cullLoop options now isAlive warm kept removed =
      (kept ++ warm.filter (options.keeps now isAlive),
        removed ++ (warm.filter fun w => !options.keeps now isAlive w).map Warm.session) := by
  induction warm generalizing kept removed with
  | nil => simp only [cullLoop, List.filter_nil, List.map_nil, List.append_nil]
  | cons entry warm ih =>
    rw [List.length_cons] at hroom
    have hnotExcess : ¬ options.minReady ≤ kept.length := by omega
    cases hkeeps : options.keeps now isAlive entry with
    | true =>
      obtain ⟨halive, hyoung⟩ := Bool.and_eq_true_iff.1 hkeeps
      have hage := Nat.not_le_of_lt (of_decide_eq_true hyoung)
      have hstays : cullLoop options now isAlive (entry :: warm) kept removed =
          cullLoop options now isAlive warm (kept ++ [entry]) removed := by
        simp [cullLoop, halive, hage, hnotExcess]
      rw [hstays, ih _ _ (by rw [List.length_append, List.length_singleton]; omega)]
      simp [hkeeps]
    | false =>
      have hgoes : cullLoop options now isAlive (entry :: warm) kept removed =
          cullLoop options now isAlive warm kept (removed ++ [entry.session]) := by
        cases halive : isAlive entry.session with
        | false => simp [cullLoop, halive]
        | true =>
          simp only [PoolOptions.keeps, halive, Bool.true_and, decide_eq_false_iff_not,
            Nat.not_lt] at hkeeps
          simp [cullLoop, halive, hkeeps]
      rw [hgoes, ih _ _ (by omega)]
      simp [hkeeps]

theorem cullWarm_eq_filter (hroom : warm.length ≤ options.minReady) :
    cullWarm options now isAlive warm =
      (warm.filter (options.keeps now isAlive),
        (warm.filter fun w => !options.keeps now isAlive w).map Warm.session) := by
  rw [cullWarm, cullLoop_eq_filter options now isAlive warm [] [] (by simpa using hroom)]
  simp

theorem cullLoop_sublist (options : PoolOptions) (now : Nat) (isAlive : Session → Bool)
    (warm kept : List Warm) (removed : List Session) :
    (cullLoop options now isAlive warm kept removed).1.Sublist (kept ++ warm) := by
  induction warm generalizing kept removed with
  | nil => simp [cullLoop]
  | cons entry warm ih =>
    simp only [cullLoop]
    split
    · exact (ih kept _).trans (List.Sublist.append_left (List.sublist_cons_self _ _) kept)
    · simpa using ih (kept ++ [entry]) removed

theorem cullWarm_sublist (h : cullWarm options now isAlive warm = (kept, removed)) :
    kept.Sublist warm := by
  have hloop := cullLoop_sublist options now isAlive warm [] []
  unfold cullWarm at h
  rw [h] at hloop
  simpa using hloop

/-- How many sessions may be parked, by what the replenisher has read or begun. -/
@[simp] def Replenisher.Allows (minReady warm : Nat) : Replenisher → Prop
  | .sawWarm seen | .sawLaunching seen _ | .sawMax seen _ _ => warm ≤ seen
  | .wanted | .creating | .created (.ok _) | .launched _ | .pushing _ => warm < minReady
  | _ => True

theorem Replenisher.Allows.anti {r : Replenisher} (h : r.Allows minReady warm)
    (hle : warm' ≤ warm) : r.Allows minReady warm' := by
  cases r with
  | created result => cases result <;> simp at h ⊢; omega
  | _ => simp at h ⊢ <;> omega

/-- The stock has its bound, and nothing is launched for it but to fill it. -/
structure Pool.Stocked (options : PoolOptions) (s : Pool) : Prop where
  bounded : s.inner.warm.length ≤ options.minReady
  allows : s.replenisher.Allows options.minReady s.inner.warm.length

theorem Pool.Stocked.of_le {s t : Pool} (hs : s.Stocked options)
    (hwarm : t.inner.warm.length ≤ s.inner.warm.length) (hr : t.replenisher = s.replenisher) :
    t.Stocked options := by
  refine ⟨Nat.le_trans hwarm hs.bounded, ?_⟩
  rw [hr]
  exact hs.allows.anti hwarm

theorem ClaimStep.warm_length (h : ClaimStep options i kind p phase e p' phase') :
    p'.warm.length ≤ p.warm.length := by
  cases h.reserve with
  | inl h => exact Nat.le_of_eq h.2
  | inr h => exact h.2

theorem Replenisher.wantedLaunches_pos
    (h : wantedLaunches options warm launching maxSessions available ≠ 0) :
    warm < options.minReady := by
  simp only [wantedLaunches] at h
  omega

theorem ReplenisherStep.stocked (h : ReplenisherStep options p r p' r')
    (hbounded : p.warm.length ≤ options.minReady)
    (hallows : r.Allows options.minReady p.warm.length) :
    p'.warm.length ≤ options.minReady ∧ r'.Allows options.minReady p'.warm.length := by
  cases h with
  | cull h => exact ⟨Nat.le_trans (cullWarm_length h) hbounded, trivial⟩
  | readWarm => exact ⟨hbounded, Nat.le_refl _⟩
  | readLaunching => exact ⟨hbounded, hallows⟩
  | readMax => exact ⟨hbounded, hallows⟩
  | someWanted h =>
    exact ⟨hbounded, Nat.lt_of_le_of_lt hallows (Replenisher.wantedLaunches_pos h)⟩
  | beginLaunch => exact ⟨hbounded, hallows⟩
  | createOk => exact ⟨hbounded, hallows⟩
  | launchedOk => exact ⟨hbounded, hallows⟩
  | stillOpen => exact ⟨hbounded, hallows⟩
  | push =>
    rw [List.length_append, List.length_singleton]
    exact ⟨hallows, trivial⟩
  | _ => exact ⟨hbounded, trivial⟩

theorem Pool.Step.stocked (h : Pool.Step options s a t) (hs : s.Stocked options) :
    t.Stocked options := by
  cases h with
  | claim hc h => exact hs.of_le h.warm_length rfl
  | replenish h =>
    obtain ⟨hbounded, hallows⟩ := h.stocked hs.bounded hs.allows
    exact ⟨hbounded, hallows⟩
  | drain => exact hs.of_le (Nat.zero_le _) rfl
  | adjustPermits =>
    refine hs.of_le (Nat.le_of_eq ?_) rfl
    simp only [Inner.adjustPermits]
    split <;> rfl
  | _ => exact hs.of_le (Nat.le_refl _) rfl

theorem Pool.stocked (h : (Pool.system options).Reachable s) : s.Stocked options := by
  apply h.invariant ?_ fun _ _ _ _ hs hst => hst.stocked hs
  intro _ hinit
  cases hinit
  exact ⟨Nat.zero_le _, trivial⟩

theorem Pool.Stocked.reserve {s : Pool} (hs : s.Stocked options) :
    s.reserve ≤ options.minReady := by
  have hbounded := hs.bounded
  have hallows := hs.allows
  simp only [Pool.reserve]
  cases hr : s.replenisher with
  | created result =>
    rw [hr] at hallows
    cases result with
    | ok session => exact hallows
    | error message => exact hbounded
  | creating =>
    rw [hr] at hallows
    exact hallows
  | launched session =>
    rw [hr] at hallows
    exact hallows
  | pushing session =>
    rw [hr] at hallows
    exact hallows
  | _ => exact hbounded

/-- The stock runs from the oldest to the newest, and what a claim took from it is no newer
than what it left. -/
structure Pool.Aged (s : Pool) : Prop where
  ordered : s.inner.warm.Pairwise fun a b => a.readyAt ≤ b.readyAt
  past : ∀ w ∈ s.inner.warm, w.readyAt ≤ s.inner.now
  popped : ∀ c ∈ s.claims, ∀ entry, c.phase = .popped entry →
    entry.readyAt ≤ s.inner.now ∧ ∀ w ∈ s.inner.warm, entry.readyAt ≤ w.readyAt

/-- Fewer of the same entries, later. -/
theorem Pool.Aged.of_sublist {s t : Pool} (hs : s.Aged)
    (hwarm : t.inner.warm.Sublist s.inner.warm) (hnow : s.inner.now ≤ t.inner.now)
    (hclaims : ∀ c ∈ t.claims, ∀ entry, c.phase = .popped entry → c ∈ s.claims) : t.Aged := by
  refine ⟨hs.ordered.sublist hwarm, fun w hw => ?_, fun c hc entry he => ?_⟩
  · exact Nat.le_trans (hs.past w (hwarm.mem hw)) hnow
  · obtain ⟨hpast, hold⟩ := hs.popped c (hclaims c hc entry he) entry he
    exact ⟨Nat.le_trans hpast hnow, fun w hw => hold w (hwarm.mem hw)⟩

theorem ClaimStep.now (h : ClaimStep options i kind p phase e p' phase') : p'.now = p.now := by
  cases h <;> rfl

/-- A section of a claim takes the oldest entry or leaves the stock alone. -/
theorem ClaimStep.warm (h : ClaimStep options i kind p phase e p' phase') :
    p'.warm = p.warm ∧ (∀ entry, phase' ≠ .popped entry) ∨
      ∃ entry, p.warm = entry :: p'.warm ∧ phase' = .popped entry := by
  cases h with
  | popWarm hk h => exact .inr ⟨_, h, rfl⟩
  | _ => exact .inl ⟨rfl, by simp⟩

theorem Pool.Aged.claim {s : Pool} {c : Claim} (hs : s.Aged)
    (h : ClaimStep options i c.kind s.inner c.phase e p phase) :
    Pool.Aged { s with inner := p, claims := s.claims.set i ⟨c.kind, phase⟩ } := by
  have hnow := h.now
  cases h.warm with
  | inl hkept =>
    obtain ⟨hwarm, hphase⟩ := hkept
    apply hs.of_sublist (hwarm ▸ List.Sublist.refl _) (Nat.le_of_eq hnow.symm)
    intro d hd entry he
    cases List.mem_or_eq_of_mem_set hd with
    | inl hd => exact hd
    | inr hd =>
      subst hd
      exact absurd he (hphase entry)
  | inr htaken =>
    obtain ⟨entry, hwarm, hphase⟩ := htaken
    have hsub : p.warm.Sublist s.inner.warm := hwarm ▸ List.sublist_cons_self _ _
    have hordered := hs.ordered
    rw [hwarm, List.pairwise_cons] at hordered
    refine ⟨hordered.2, fun w hw => ?_, fun d hd entry' he => ?_⟩
    · rw [hnow]
      exact hs.past w (hsub.mem hw)
    · rw [hnow]
      cases List.mem_or_eq_of_mem_set hd with
      | inl hd =>
        obtain ⟨hpast, hold⟩ := hs.popped d hd entry' he
        exact ⟨hpast, fun w hw => hold w (hsub.mem hw)⟩
      | inr hd =>
        subst hd
        cases hphase.symm.trans he
        exact ⟨hs.past entry (hwarm ▸ List.mem_cons_self), hordered.1⟩

theorem Pool.Aged.replenish {s : Pool} (hs : s.Aged)
    (h : ReplenisherStep options s.inner r p r') :
    Pool.Aged { s with inner := p, replenisher := r' } := by
  cases h with
  | cull h =>
    exact hs.of_sublist (cullWarm_sublist h) (Nat.le_refl _) fun c hc entry _ => hc
  | push =>
    refine ⟨?_, fun w hw => ?_, fun c hc entry he => ?_⟩
    · apply List.pairwise_append.2 ⟨hs.ordered, List.pairwise_singleton _ _, ?_⟩
      intro a ha b hb
      obtain rfl := List.mem_singleton.1 hb
      exact hs.past a ha
    · cases List.mem_append.1 hw with
      | inl hw => exact hs.past w hw
      | inr hw =>
        obtain rfl := List.mem_singleton.1 hw
        exact Nat.le_refl _
    · obtain ⟨hpast, hold⟩ := hs.popped c hc entry he
      refine ⟨hpast, fun w hw => ?_⟩
      cases List.mem_append.1 hw with
      | inl hw => exact hold w hw
      | inr hw =>
        obtain rfl := List.mem_singleton.1 hw
        exact hpast
  | _ => exact hs.of_sublist (.refl _) (Nat.le_refl _) fun c hc entry _ => hc

theorem Pool.Step.aged (h : Pool.Step options s a t) (hs : s.Aged) : t.Aged := by
  cases h with
  | claim hc h => exact hs.claim h
  | replenish h => exact hs.replenish h
  | spawn =>
    refine Pool.Aged.of_sublist hs (.refl _) (Nat.le_refl _) ?_
    intro c hc entry he
    cases List.mem_append.1 hc with
    | inl hc => exact hc
    | inr hc =>
      obtain rfl := List.mem_singleton.1 hc
      cases he
  | drain => exact hs.of_sublist (List.nil_sublist _) (Nat.le_refl _) fun c hc entry _ => hc
  | adjustPermits =>
    apply hs.of_sublist
    · simp only [Inner.adjustPermits]
      split <;> exact .refl _
    · simp only [Inner.adjustPermits]
      split <;> exact Nat.le_refl _
    · exact fun c hc entry _ => hc
  | tick => exact hs.of_sublist (.refl _) (Nat.le_succ _) fun c hc entry _ => hc
  | _ => exact hs.of_sublist (.refl _) (Nat.le_refl _) fun c hc entry _ => hc

theorem Pool.aged (h : (Pool.system options).Reachable s) : s.Aged := by
  apply h.invariant ?_ fun _ _ _ _ hs hst => hst.aged hs
  intro _ hinit
  cases hinit
  exact ⟨.nil, fun w hw => (by cases hw), fun c hc => (by cases hc)⟩

/-- The sessions that a cull has yet to destroy. -/
@[simp] def Replenisher.expiring : Replenisher → List Session
  | .expired sessions => sessions
  | .destroyingExpired rest => rest
  | _ => []

/-- A session whose destroy has begun, or that a task has in hand to destroy it. -/
def Pool.Doomed (s : Pool) (x : Session) : Prop :=
  x ∈ s.inner.destroyCalls ∨ x ∈ s.inner.spawned ∨ x ∈ s.replenisher.expiring

theorem ClaimStep.doomed (h : ClaimStep options i kind p phase e p' phase') :
    p.destroyCalls ⊆ p'.destroyCalls ∧ p.spawned ⊆ p'.spawned := by
  cases h with
  | warmDead => exact ⟨List.Subset.refl _, List.subset_cons_self _ _⟩
  | destroy => exact ⟨List.subset_cons_self _ _, List.Subset.refl _⟩
  | destroySpawned => exact ⟨List.subset_cons_self _ _, List.Subset.refl _⟩
  | _ => exact ⟨List.Subset.refl _, List.Subset.refl _⟩

theorem ReplenisherStep.doomed (h : ReplenisherStep options p r p' r') :
    p.destroyCalls ⊆ p'.destroyCalls ∧ p'.spawned = p.spawned ∧
      ∀ x ∈ r.expiring, x ∈ p'.destroyCalls ∨ x ∈ r'.expiring := by
  cases h with
  | destroyExpired =>
    refine ⟨List.subset_cons_self _ _, rfl, fun x hx => ?_⟩
    cases hx with
    | head => exact .inl List.mem_cons_self
    | tail _ hx => exact .inr hx
  | destroyedExpired => exact ⟨List.Subset.refl _, rfl, fun x hx => .inr hx⟩
  | closedMeanwhile => exact ⟨List.subset_cons_self _ _, rfl, fun x hx => by cases hx⟩
  | _ => exact ⟨List.Subset.refl _, rfl, fun x hx => by cases hx⟩

theorem Pool.Step.doomed (h : Pool.Step options s a t) (hs : s.Doomed x) : t.Doomed x := by
  cases h with
  | claim hc h =>
    obtain ⟨hcalls, hspawned⟩ := h.doomed
    exact hs.imp (fun hx => hcalls hx) fun hs => hs.imp (fun hx => hspawned hx) id
  | replenish h =>
    obtain ⟨hcalls, hspawned, hexpiring⟩ := h.doomed
    rcases hs with hx | hx | hx
    · exact .inl (hcalls hx)
    · exact .inr (.inl (hspawned ▸ hx))
    · exact (hexpiring x hx).imp id .inr
  | drain => exact hs.imp id fun hs => hs.imp (fun hx => List.mem_append_right _ hx) id
  | @startCleanup session _ h =>
    by_cases hx : x = session
    · subst hx
      exact .inl List.mem_cons_self
    · apply hs.imp (fun hs => List.mem_cons_of_mem _ hs)
      exact fun hs => hs.imp (fun hin => (List.mem_erase_of_ne hx).2 hin) id
  | adjustPermits =>
    simp only [Inner.adjustPermits]
    split <;> exact hs
  | _ => exact hs

/-- Left to run, the replenisher destroys all that a cull removed. -/
theorem Pool.expire_run (options : PoolOptions) {s : Pool}
    (hr : s.replenisher = .expired sessions) (hx : x ∈ sessions) :
    ∃ as t, (Pool.system options).Run s as t ∧ x ∈ t.inner.destroyCalls := by
  induction sessions generalizing s with
  | nil => cases hx
  | cons session rest ih =>
    have hdestroy : Pool.Step options s .replenish
        { s with
          inner := { s.inner with destroyCalls := session :: s.inner.destroyCalls }
          replenisher := .destroyingExpired rest } := by
      apply Pool.Step.replenish
      rw [hr]
      exact .destroyExpired
    cases hx with
    | head => exact ⟨_, _, .single hdestroy, List.mem_cons_self⟩
    | tail _ hx =>
      obtain ⟨as, t, hrun, hdone⟩ := ih (s := { s with
          inner := { s.inner with destroyCalls := session :: s.inner.destroyCalls }
          replenisher := .expired rest }) rfl hx
      exact ⟨_, _, .cons hdestroy (.cons (.replenish .destroyedExpired) hrun), hdone⟩

theorem Pool.Doomed.destroyed_run (options : PoolOptions) {s : Pool} (hs : s.Doomed x) :
    ∃ as t, (Pool.system options).Run s as t ∧ x ∈ t.inner.destroyCalls := by
  rcases hs with hx | hx | hx
  · exact ⟨[], s, .nil, hx⟩
  · exact ⟨_, _, .single (.startCleanup hx), List.mem_cons_self⟩
  · cases hr : s.replenisher with
    | expired sessions =>
      rw [hr] at hx
      exact Pool.expire_run options hr hx
    | destroyingExpired rest =>
      rw [hr] at hx
      have hback : Pool.Step options s .replenish { s with replenisher := .expired rest } := by
        apply Pool.Step.replenish
        rw [hr]
        exact .destroyedExpired
      obtain ⟨as, t, hrun, hdone⟩ := Pool.expire_run options
        (s := { s with replenisher := .expired rest }) rfl hx
      exact ⟨_, _, .cons hback hrun, hdone⟩
    | _ =>
      rw [hr] at hx
      cases hx

/-- A cull keeps the live entries that are younger than `warm_max_age`, in their order, and
has the others destroyed. -/
def Pool.CullsExactly (options : PoolOptions) (s : Pool) : Prop :=
  ∀ now t, s.replenisher = .locking now → (Pool.system options).step s .replenish t →
    t.inner.warm = s.inner.warm.filter (options.keeps now s.inner.isAlive) ∧
      t.replenisher = .expired
        ((s.inner.warm.filter fun w => !options.keeps now s.inner.isAlive w).map Warm.session)

theorem Pool.Stocked.cullsExactly {s : Pool} (hs : s.Stocked options) :
    s.CullsExactly options := by
  intro now t hr h
  cases h with
  | @replenish _ p r h =>
    rw [hr] at h
    cases h with
    | cull h =>
      rw [cullWarm_eq_filter hs.bounded] at h
      cases h
      exact ⟨rfl, rfl⟩

/-- What is to be destroyed is destroyed at most once, and its destroy is always at hand. -/
def Pool.DestroysOnce (options : PoolOptions) (s : Pool) : Prop :=
  ∀ x, s.Doomed x → ∀ as t, (Pool.system options).Run s as t →
    t.inner.destroyCalls.count x ≤ 1 ∧
      ∃ bs u, (Pool.system options).Run t bs u ∧ u.inner.destroyCalls.count x = 1

theorem Pool.Owned.destroyCalls_le {s : Pool} (ho : s.Owned) (x : Session) :
    s.inner.destroyCalls.count x ≤ 1 := by
  have honce := ho.once x
  have hborn := s.inner.born_le x
  omega

theorem Pool.destroysOnce (h : (Pool.system options).Reachable s) : s.DestroysOnce options := by
  intro x hx as t hrun
  have hreach := hrun.reachable h
  refine ⟨(Pool.owned hreach).destroyCalls_le x, ?_⟩
  have hdoomed : t.Doomed x := hrun.preserves hx fun _ _ _ hs hst => hst.doomed hs
  obtain ⟨bs, u, hrun', hdone⟩ := hdoomed.destroyed_run options
  have hle := (Pool.owned (hrun'.reachable hreach)).destroyCalls_le x
  have hpos := List.count_pos_iff.2 hdone
  exact ⟨bs, u, hrun', by omega⟩

/-- A claim that took an entry of the stock took the oldest there was; it hands the session
out if it is alive, and has it destroyed and goes on if not. -/
def Pool.ClaimsOldest (options : PoolOptions) (s : Pool) : Prop :=
  ∀ i c entry, s.claims[i]? = some c → c.phase = .popped entry →
    (∀ w ∈ s.inner.warm, entry.readyAt ≤ w.readyAt) ∧
      ∀ t, (Pool.system options).step s (.claim i .run) t →
        (s.inner.isAlive entry.session = true →
          t.claims[i]? = some ⟨c.kind, .claimed entry.session⟩ ∧
            entry.session ∈ t.inner.handedOut) ∧
        (s.inner.isAlive entry.session = false →
          t.claims[i]? = some ⟨c.kind, .holding⟩ ∧ t.Doomed entry.session)

/-- The other half of a step of a claim: what its table shows of it then. -/
theorem Pool.Step.claim_inv (h : Pool.Step options s (.claim i e) t)
    (hc : s.claims[i]? = some c) :
    ∃ phase, ClaimStep options i c.kind s.inner c.phase e t.inner phase ∧
      t.claims[i]? = some ⟨c.kind, phase⟩ ∧ t.replenisher = s.replenisher := by
  cases h with
  | @claim _ d _ p phase _ hd h =>
    obtain rfl := Option.some.inj (hd.symm.trans hc)
    have hlt := (List.getElem?_eq_some_iff.1 hd).1
    exact ⟨phase, h, List.getElem?_set_self hlt, rfl⟩

/-- A claim with a popped entry does one of two things. -/
theorem ClaimStep.popped_inv (h : ClaimStep options i kind p (.popped entry) .run p' phase) :
    p.isAlive entry.session = true ∧ phase = .claimed entry.session ∧
        p' = { p with handedOut := entry.session :: p.handedOut } ∨
      p.isAlive entry.session = false ∧ phase = .holding ∧
        p' = { p with spawned := entry.session :: p.spawned } := by
  cases h with
  | warmAlive h => exact .inl ⟨h, rfl, rfl⟩
  | warmDead h => exact .inr ⟨h, rfl, rfl⟩

/-- So does one that looks for a warm session. -/
theorem ClaimStep.holding_inv (h : ClaimStep options i .claim p .holding .run p' phase) :
    (∃ entry rest, p.warm = entry :: rest ∧ phase = .popped entry ∧
        p' = { p with warm := rest }) ∨
      p.warm = [] ∧ phase = .launching ∧ p' = p := by
  cases h with
  | popWarm _ h => exact .inl ⟨_, _, h, rfl, rfl⟩
  | noWarm _ h => exact .inr ⟨h, rfl, rfl⟩
  | launchDedicated hk => cases hk

theorem Pool.Aged.claimsOldest {s : Pool} (hs : s.Aged) : s.ClaimsOldest options := by
  intro i c entry hc hpopped
  refine ⟨(hs.popped c (List.mem_of_getElem? hc) entry hpopped).2, fun t h => ?_⟩
  obtain ⟨phase, hstep, ht, _⟩ := Pool.Step.claim_inv h hc
  rw [hpopped] at hstep
  cases hstep.popped_inv with
  | inl hlive =>
    obtain ⟨halive, rfl, hp⟩ := hlive
    refine ⟨fun _ => ⟨ht, ?_⟩, fun hdead => absurd (halive.symm.trans hdead) (by simp)⟩
    rw [hp]
    exact List.mem_cons_self
  | inr hdead =>
    obtain ⟨hdead, rfl, hp⟩ := hdead
    refine ⟨fun halive => absurd (halive.symm.trans hdead) (by simp), fun _ => ⟨ht, ?_⟩⟩
    right
    left
    rw [hp]
    exact List.mem_cons_self

/-- The pool while one claim runs and everything else waits. -/
def Pool.aloneSystem (options : PoolOptions) (i : Nat) : System Pool Action :=
  (Pool.system options).guarded fun _ a _ => a = .claim i .run

/-- How far a claim has come through a stock: the entries it found dead are to be destroyed,
and it holds the next one, is through, or has handed it out. -/
inductive Pool.Through (warm : List Warm) (isAlive : Session → Bool) (i : Nat) (s : Pool)
    (skipped : List Warm) : Prop
  | holding (h : s.claims[i]? = some ⟨.claim, .holding⟩) (hw : warm = skipped ++ s.inner.warm)
  | popped (h : s.claims[i]? = some ⟨.claim, .popped entry⟩)
      (hw : warm = skipped ++ entry :: s.inner.warm)
  | launching (h : s.claims[i]? = some ⟨.claim, .launching⟩) (hw : warm = skipped)
      (hempty : s.inner.warm = [])
  | claimed (h : s.claims[i]? = some ⟨.claim, .claimed entry.session⟩)
      (hw : warm = skipped ++ entry :: s.inner.warm) (halive : isAlive entry.session = true)

/-- The entries a claim skipped were dead, and are to be destroyed. -/
def Pool.SkipsDead (warm : List Warm) (isAlive : Session → Bool) (i : Nat) (s : Pool) : Prop :=
  s.inner.isAlive = isAlive ∧ ∃ skipped, s.Through warm isAlive i skipped ∧
    ∀ w ∈ skipped, isAlive w.session = false ∧ s.Doomed w.session

theorem Pool.SkipsDead.step {s : Pool} (hs : s.SkipsDead warm isAlive i)
    (h : Pool.Step options s (.claim i .run) t) : t.SkipsDead warm isAlive i := by
  obtain ⟨halive, skipped, hthrough, hdead⟩ := hs
  have hdoomed : ∀ w ∈ skipped, isAlive w.session = false ∧ t.Doomed w.session :=
    fun w hw => ⟨(hdead w hw).1, h.doomed (hdead w hw).2⟩
  cases hthrough with
  | holding hc hw =>
    obtain ⟨phase, hstep, ht, _⟩ := h.claim_inv hc
    rcases hstep.holding_inv with ⟨entry, rest, hpop, rfl, hp⟩ | ⟨hnone, rfl, hp⟩
    · refine ⟨by rw [hp]; exact halive, skipped, .popped ht ?_, hdoomed⟩
      rw [hw, hpop, hp]
    · refine ⟨by rw [hp]; exact halive, skipped, .launching ht ?_ (by rw [hp]; exact hnone),
        hdoomed⟩
      rw [hw, hnone, List.append_nil]
  | @popped entry hc hw =>
    obtain ⟨phase, hstep, ht, _⟩ := h.claim_inv hc
    rcases hstep.popped_inv with ⟨hlive, rfl, hp⟩ | ⟨hnot, rfl, hp⟩
    · refine ⟨by rw [hp]; exact halive, skipped, .claimed ht ?_ (halive ▸ hlive), hdoomed⟩
      rw [hw, hp]
    · refine ⟨by rw [hp]; exact halive, skipped ++ [entry], .holding ht ?_, ?_⟩
      · rw [hw, hp, List.append_assoc]
        rfl
      · apply forall_mem_append_single ?_ hdoomed
        refine ⟨halive ▸ hnot, .inr (.inl ?_)⟩
        rw [hp]
        exact List.mem_cons_self
  | launching hc =>
    obtain ⟨phase, hstep, _⟩ := h.claim_inv hc
    cases hstep
  | claimed hc =>
    obtain ⟨phase, hstep, _⟩ := h.claim_inv hc
    cases hstep

/-- Left alone, a claim hands out the first live session of the stock, all those before it
being dead and to be destroyed; it launches one of its own only when it found none. -/
def Pool.ClaimsFirstAlive (options : PoolOptions) (s : Pool) : Prop :=
  ∀ i as t, s.claims[i]? = some ⟨.claim, .holding⟩ → (Pool.aloneSystem options i).Run s as t →
    (∀ x, t.claims[i]? = some ⟨.claim, .claimed x⟩ → ∃ skipped entry,
      s.inner.warm = skipped ++ entry :: t.inner.warm ∧ entry.session = x ∧
        s.inner.isAlive x = true ∧
        ∀ w ∈ skipped, s.inner.isAlive w.session = false ∧ t.Doomed w.session) ∧
    (t.claims[i]? = some ⟨.claim, .launching⟩ → t.inner.warm = [] ∧
      ∀ w ∈ s.inner.warm, s.inner.isAlive w.session = false ∧ t.Doomed w.session)

theorem Pool.claimsFirstAlive (options : PoolOptions) (s : Pool) : s.ClaimsFirstAlive options := by
  intro i as t hc hrun
  have hstart : s.SkipsDead s.inner.warm s.inner.isAlive i :=
    ⟨rfl, [], .holding hc rfl, fun w hw => by cases hw⟩
  obtain ⟨_, skipped, hthrough, hdead⟩ := hrun.preserves hstart
    fun _ _ _ hs hst => by
      obtain ⟨hst, rfl⟩ := hst
      exact hs.step hst
  refine ⟨fun x hx => ?_, fun hx => ?_⟩
  · cases hthrough with
    | holding h => cases hx.symm.trans h
    | popped h => cases hx.symm.trans h
    | launching h => cases hx.symm.trans h
    | @claimed entry h hw halive =>
      cases hx.symm.trans h
      exact ⟨skipped, entry, hw, rfl, halive, hdead⟩
  · cases hthrough with
    | holding h => cases hx.symm.trans h
    | popped h => cases hx.symm.trans h
    | claimed h => cases hx.symm.trans h
    | launching _ hw hempty =>
      subst hw
      exact ⟨hempty, hdead⟩

/-- Over all runs of the pool: what is parked or launched to be parked stays within
`min_ready` and in order of age; a cull removes only the dead and the old, idle ones or not;
what it removes is destroyed once; and a claim takes the oldest session that is alive, with
every dead one before it on its way to a destroy. -/
theorem warm_stock_bounded_oldest_first (h : (Pool.system options).Reachable s) :
    s.reserve ≤ options.minReady ∧
      s.inner.warm.Pairwise (fun a b => a.readyAt ≤ b.readyAt) ∧
      s.CullsExactly options ∧ s.DestroysOnce options ∧ s.ClaimsOldest options ∧
      s.ClaimsFirstAlive options := by
  have hstocked := Pool.stocked h
  have haged := Pool.aged h
  exact ⟨hstocked.reserve, haged.ordered, hstocked.cullsExactly, Pool.destroysOnce h,
    haged.claimsOldest, Pool.claimsFirstAlive options s⟩

/-- A session that the replenisher parked, and the claim that comes for it. -/
theorem warm_stock_bounded_oldest_first_parked :
    ∃ s, (Pool.system ⟨1, 1, 0, 0, 1, 1⟩).Reachable s ∧
      s.inner.warm.map Warm.session = [0] ∧ s.reserve ≤ 1 ∧
      s.claims.map Claim.phase = [.holding] := by
  have hrun : (Pool.system ⟨1, 1, 0, 0, 1, 1⟩).Run (.new ⟨1, 1, 0, 0, 1, 1⟩)
      [.replenish, .replenish, .replenish, .replenish, .replenish, .replenish, .replenish,
        .replenish, .replenish, .replenish, .replenish, .replenish, .spawn .claim,
        .claim 0 .run] _ :=
    .cons (.replenish (.opened rfl)) <| .cons (.replenish .readClock) <|
      .cons (.replenish (.cull rfl)) <| .cons (.replenish .readWarm) <|
      .cons (.replenish .readLaunching) <| .cons (.replenish .readMax) <|
      .cons (.replenish (.someWanted (by decide))) <| .cons (.replenish .beginLaunch) <|
      .cons (.replenish .createOk) <| .cons (.replenish .launchedOk) <|
      .cons (.replenish (.stillOpen rfl)) <| .cons (.replenish .push) <| .cons .spawn <|
      .single (.claim rfl (.tryAcquireOk rfl))
  have hreach := hrun.reachable (.init rfl)
  exact ⟨_, hreach, rfl, (warm_stock_bounded_oldest_first hreach).1, rfl⟩

end BrowserServe
