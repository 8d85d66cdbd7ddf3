import BrowserServe.PoolCapacity

namespace BrowserServe
open Library
set_option autoImplicit true

/-- How often a claim holds a session that has not been handed out. -/
@[simp] def ClaimPhase.stock (x : Session) : ClaimPhase → Nat
  | .popped entry => [entry.session].count x
  | _ => 0

/-- How often a claim owes a session, handed out before, its destroy. -/
@[simp] def ClaimPhase.owed (x : Session) : ClaimPhase → Nat
  | .claimed session | .orphaned session => [session].count x
  | _ => 0

@[simp] def Replenisher.stock (x : Session) : Replenisher → Nat
  | .expired sessions => sessions.count x
  | .destroyingExpired rest => rest.count x
  | .created (.ok session) | .launched session | .pushing session => [session].count x
  | _ => 0

/-- Sessions parked for a claim, or on their way from there to a destroy. -/
def Inner.stock (x : Session) (p : Inner) : Nat :=
  (p.warm.map Warm.session).count x + p.spawned.count x

/-- Every place a session that was never handed out can be in. -/
def Pool.stock (x : Session) (s : Pool) : Nat :=
  s.inner.stock x + total (fun c => c.phase.stock x) s.claims + s.replenisher.stock x

def Pool.owed (x : Session) (s : Pool) : Nat :=
  total (fun c => c.phase.owed x) s.claims

def Inner.born (x : Session) (p : Inner) : Nat := if x < p.created then 1 else 0

theorem Inner.born_succ (x : Nat) (p : Inner) :
    (if x < p.created + 1 then 1 else 0) = p.born x + [p.created].count x := by
  by_cases hx : p.created = x
  · subst x
    simp [born]
  · have hiff : x < p.created + 1 ↔ x < p.created := by omega
    simp [born, hiff, hx]

theorem cullLoop_count (options : PoolOptions) (now : Nat) (isAlive : Session → Bool)
    (x : Session) (warm kept : List Warm) (removed : List Session) :
    ((cullLoop options now isAlive warm kept removed).1.map Warm.session).count x +
        (cullLoop options now isAlive warm kept removed).2.count x =
      (warm.map Warm.session).count x + (kept.map Warm.session).count x + removed.count x := by
  induction warm generalizing kept removed with
  | nil => simp only [cullLoop, List.map_nil, List.count_nil, Nat.zero_add]
  | cons entry warm ih =>
    simp only [cullLoop, List.map_cons, List.count_cons]
    split
    · rw [ih]
      simp only [List.count_append, List.count_cons, List.count_nil]
      omega
    · rw [ih]
      simp only [List.map_append, List.map_cons, List.map_nil, List.count_append,
        List.count_cons, List.count_nil]
      omega

/-- Culling moves sessions from the warm stock to those it removed and loses none. -/
theorem cullWarm_count (h : cullWarm options now isAlive warm = (kept, removed)) (x : Session) :
    (kept.map Warm.session).count x + removed.count x = (warm.map Warm.session).count x := by
  have hloop := cullLoop_count options now isAlive x warm [] []
  unfold cullWarm at h
  rw [h] at hloop
  simpa using hloop

/-- A claim's section keeps every session in exactly one place. -/
theorem ClaimStep.places (h : ClaimStep options i kind p phase e p' phase') (x : Session) :
    p'.stock x + phase'.stock x + phase'.owed x + p'.destroyCalls.count x + p.born x =
      p.stock x + phase.stock x + phase.owed x + p.destroyCalls.count x + p'.born x := by
  cases h with
  | popWarm hk h =>
    simp only [Inner.stock, Inner.born, ClaimPhase.stock, ClaimPhase.owed, h, List.map_cons,
      List.count_cons, List.count_nil]
    omega
  | warmAlive h =>
    simp only [Inner.stock, Inner.born, ClaimPhase.stock, ClaimPhase.owed]
    omega
  | warmDead h =>
    simp only [Inner.stock, Inner.born, ClaimPhase.stock, ClaimPhase.owed,
      List.count_cons, List.count_nil]
    omega
  | launchOk =>
    have hborn := p.born_succ x
    simp only [Inner.stock, Inner.born, ClaimPhase.stock, ClaimPhase.owed] at hborn ⊢
    omega
  | destroy =>
    simp only [Inner.stock, Inner.born, ClaimPhase.stock, ClaimPhase.owed,
      List.count_cons, List.count_nil]
    omega
  | destroySpawned =>
    simp only [Inner.stock, Inner.born, ClaimPhase.stock, ClaimPhase.owed,
      List.count_cons, List.count_nil]
    omega
  | _ => simp [Inner.stock, Inner.born]

/-- A claim hands out only what leaves the stock, or a session born for it. -/
theorem ClaimStep.handed (h : ClaimStep options i kind p phase e p' phase') (x : Session) :
    p'.handedOut.count x + p'.stock x + phase'.stock x + p.born x ≤
      p.handedOut.count x + p.stock x + phase.stock x + p'.born x := by
  cases h with
  | popWarm hk h =>
    simp only [Inner.stock, Inner.born, ClaimPhase.stock, h, List.map_cons,
      List.count_cons, List.count_nil]
    omega
  | warmAlive h =>
    simp only [Inner.stock, Inner.born, ClaimPhase.stock, List.count_cons, List.count_nil]
    omega
  | warmDead h =>
    simp only [Inner.stock, Inner.born, ClaimPhase.stock, List.count_cons, List.count_nil]
    omega
  | launchOk =>
    have hborn := p.born_succ x
    simp only [Inner.stock, Inner.born, ClaimPhase.stock,
      List.count_cons, List.count_nil] at hborn ⊢
    omega
  | _ => simp [Inner.stock, Inner.born]

theorem ReplenisherStep.places (h : ReplenisherStep options p r p' r') (x : Session) :
    p'.stock x + r'.stock x + p'.destroyCalls.count x + p.born x =
      p.stock x + r.stock x + p.destroyCalls.count x + p'.born x := by
  cases h with
  | cull h =>
    have hcull := cullWarm_count h x
    simp only [Inner.stock, Inner.born, Replenisher.stock]
    omega
  | destroyExpired =>
    simp only [Inner.stock, Inner.born, Replenisher.stock, List.count_cons]
    omega
  | createOk =>
    have hborn := p.born_succ x
    simp only [Inner.stock, Inner.born, Replenisher.stock] at hborn ⊢
    omega
  | closedMeanwhile h =>
    simp only [Inner.stock, Inner.born, Replenisher.stock,
      List.count_cons, List.count_nil]
    omega
  | push =>
    simp only [Inner.stock, Inner.born, Replenisher.stock, List.map_append, List.map_singleton,
      List.count_append]
    omega
  | _ => simp [Inner.stock, Inner.born]

theorem ReplenisherStep.destroyCalls (h : ReplenisherStep options p r p' r') (x : Session) :
    p.destroyCalls.count x ≤ p'.destroyCalls.count x := by
  cases h <;> simp [List.count_cons]

theorem ReplenisherStep.handed (h : ReplenisherStep options p r p' r') (x : Session) :
    p'.stock x + r'.stock x + p.born x ≤ p.stock x + r.stock x + p'.born x := by
  have hplaces := h.places x
  have hcalls := h.destroyCalls x
  omega

theorem ReplenisherStep.handedOut (h : ReplenisherStep options p r p' r') :
    p'.handedOut = p.handedOut := by
  cases h <;> rfl

/-- Every session is in exactly one place from its launch on, and what was handed out has
left the stock. -/
structure Pool.Owned (s : Pool) : Prop where
  once : ∀ x, s.stock x + s.owed x + s.inner.destroyCalls.count x = s.inner.born x
  handed : ∀ x, s.inner.handedOut.count x + s.stock x ≤ s.inner.born x

theorem Pool.Step.owned (h : Pool.Step options s a t) (ho : s.Owned) : t.Owned := by
  cases h with
  | @claim i c e p phase _ hc h =>
    have hstock (x : Session) := total_set (fun c : Claim => c.phase.stock x) hc ⟨c.kind, phase⟩
    have howed (x : Session) := total_set (fun c : Claim => c.phase.owed x) hc ⟨c.kind, phase⟩
    refine ⟨fun x => ?_, fun x => ?_⟩
    · have := h.places x
      have := hstock x
      have := howed x
      have := ho.once x
      simp only [Pool.stock, Pool.owed] at *
      omega
    · have := h.handed x
      have := hstock x
      have := ho.handed x
      simp only [Pool.stock] at *
      omega
  | replenish h =>
    refine ⟨fun x => ?_, fun x => ?_⟩
    · have := h.places x
      have := ho.once x
      simp only [Pool.stock, Pool.owed] at *
      omega
    · have := h.handed x
      have := ho.handed x
      simp only [Pool.stock, h.handedOut] at *
      omega
  | spawn =>
    refine ⟨fun x => ?_, fun x => ?_⟩
    · simpa [Pool.stock, Pool.owed] using ho.once x
    · simpa [Pool.stock] using ho.handed x
  | drain h =>
    have hmoved (x : Session) : Inner.stock x { s.inner with
        warm := []
        spawned := s.inner.warm.map Warm.session ++ s.inner.spawned } = s.inner.stock x := by
      simp only [Inner.stock, List.map_nil, List.count_nil, List.count_append]
      omega
    refine ⟨fun x => ?_, fun x => ?_⟩
    · apply Eq.trans ?_ (ho.once x)
      simp only [Pool.stock, Pool.owed, hmoved]
    · apply Nat.le_trans (Nat.le_of_eq ?_) (ho.handed x)
      simp only [Pool.stock, hmoved]
  | @startCleanup session _ h =>
    refine ⟨fun x => ?_, fun x => ?_⟩
    · have := count_erase_add h x
      have := ho.once x
      simp only [Pool.stock, Pool.owed, Inner.stock, Inner.born, List.count_cons, List.count_nil]
        at *
      omega
    · have := count_erase_add h x
      have := ho.handed x
      simp only [Pool.stock, Inner.stock, Inner.born] at *
      omega
  | adjustPermits h =>
    simp only [Inner.adjustPermits]
    split <;> exact ⟨ho.once, ho.handed⟩
  | _ => exact ⟨ho.once, ho.handed⟩

end BrowserServe
