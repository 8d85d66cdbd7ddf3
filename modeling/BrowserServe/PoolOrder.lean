import BrowserServe.PoolClosing
import BrowserServe.PoolQueue
import BrowserServe.Library.SemaphoreOrder

namespace BrowserServe
open Library
set_option autoImplicit true

/-- A claim that has not come to the semaphore's line yet. -/
@[simp] def ClaimPhase.toQueue : ClaimPhase → Bool
  | .start | .noPermits | .counted _ => true
  | _ => false

/-- A claim that holds a slot or held one, its launch not dropped. A launch is no reason to
leave the line, so that the fourth pattern matches no claim. -/
@[simp] def ClaimPhase.served : ClaimPhase → Bool
  | .leaving .admitted | .holding | .popped _ | .leaving (.refused (.launch _)) | .launching
  | .claimed _ | .orphaned _ | .destroying _ _ | .releasing | .finished | .failed (.launch _)
  | .abandoned _ => true
  | _ => false

/-- A claim whose wait was too long for it or for its owner. -/
@[simp] def ClaimPhase.gaveUp : ClaimPhase → Bool
  | .leaving (.refused (.queueTimeout _)) | .leaving .dropped | .failed (.queueTimeout _)
  | .cancelled => true
  | _ => false

/-- A slot that was taken and is given back. -/
@[simp] def ClaimPhase.gaveBack : ClaimPhase → Nat
  | .finished | .failed (.launch _) | .leaving (.refused (.launch _)) => 1
  | _ => 0

theorem ClaimStep.saturated (h : ClaimStep options i kind p phase e p' phase')
    (hs : p.semaphore.Saturated) : p'.semaphore.Saturated := by
  cases h with
  | tryAcquireOk h => exact hs.tryAcquire h
  | acquireOk hq h => exact hs.tryAcquire h
  | acquirePending hq h => exact .enqueue i h
  | granted => exact hs.take i
  | closedWaiting => exact hs.cancel i
  | timedOut => exact hs.cancel i
  | dropWaiting => exact hs.cancel i
  | launchErr => exact hs.release
  | addPermit => exact hs.release
  | _ => exact hs

/-- Only a claim that was not in the line yet comes to it. -/
theorem ClaimStep.waiters (h : ClaimStep options j kind p phase e p' phase')
    (hi : i ∈ p'.semaphore.waiters) :
    i ∈ p.semaphore.waiters ∨ i = j ∧ phase.toQueue = true := by
  cases h with
  | tryAcquireOk h =>
    obtain ⟨_, _, rfl⟩ := Semaphore.tryAcquire_ok h
    exact .inl hi
  | acquireOk hq h =>
    obtain ⟨_, _, rfl⟩ := Semaphore.tryAcquire_ok h
    exact .inl hi
  | acquirePending hq h =>
    cases List.mem_append.1 hi with
    | inl hbefore => exact .inl hbefore
    | inr hnew => exact .inr ⟨List.mem_singleton.1 hnew, rfl⟩
  | closedWaiting => exact .inl (Semaphore.cancel_waiters _ _ hi)
  | timedOut => exact .inl (Semaphore.cancel_waiters _ _ hi)
  | dropWaiting => exact .inl (Semaphore.cancel_waiters _ _ hi)
  | launchErr =>
    rw [Semaphore.release_waiters] at hi
    exact .inl (List.mem_of_mem_tail hi)
  | addPermit =>
    rw [Semaphore.release_waiters] at hi
    exact .inl (List.mem_of_mem_tail hi)
  | _ => exact .inl hi

theorem ClaimStep.toQueue (h : ClaimStep options i kind p phase e p' phase')
    (hphase : phase.toQueue = false) : phase'.toQueue = false := by
  cases h with
  | _ => first | rfl | cases hphase

/-- What a claim in the line sees of a section of another: a slot that is given back brings it
one place ahead. -/
theorem ClaimStep.movesUp (h : ClaimStep options j kind p phase e p' phase')
    (hs : p.semaphore.Saturated) (hn : p.semaphore.pending.Nodup)
    (hi : i ∈ p.semaphore.waiters) (hi' : i ∈ p'.semaphore.waiters) :
    ∃ k, phase'.gaveBack = phase.gaveBack + k ∧ p.semaphore.MovesUp i k p'.semaphore := by
  have hline : p.semaphore.waiters.Nodup := (List.nodup_append.1 hn).1
  cases h with
  | tryAcquireOk h => exact absurd h (hs.blocked hi)
  | acquireOk hq h => exact absurd h (hs.blocked hi)
  | acquirePending hq h => exact ⟨0, rfl, .enqueue hi j⟩
  | granted => exact ⟨0, rfl, .take j i _⟩
  | closedWaiting => exact ⟨0, rfl, .cancel hline hi'⟩
  | timedOut => exact ⟨0, rfl, .cancel hline hi'⟩
  | dropWaiting => exact ⟨0, rfl, .cancel hline hi'⟩
  | launchErr => exact ⟨1, rfl, .release hline hi'⟩
  | addPermit => exact ⟨1, rfl, .release hline hi'⟩
  | @refused _ e =>
    refine ⟨0, ?_, .refl i _⟩
    cases e <;> rfl
  | _ => exact ⟨0, rfl, .refl i _⟩

/-- While somebody waits, a slot comes to a claim only through the line. -/
theorem ClaimStep.served (h : ClaimStep options j kind p phase e p' phase')
    (hs : p.semaphore.Saturated) (hi : i ∈ p.semaphore.waiters) (hserved : phase'.served = true) :
    phase.served = true ∨ j ∈ p.semaphore.granted := by
  cases h with
  | tryAcquireOk h => exact absurd h (hs.blocked hi)
  | acquireOk hq h => exact absurd h (hs.blocked hi)
  | granted _ h => exact .inr h
  | @refused _ e => cases e <;> first | exact .inl rfl | cases hserved
  | _ => first | exact .inl rfl | cases hserved

theorem ClaimStep.settled (h : ClaimStep options i kind p phase e p' phase')
    (hphase : phase.served = true ∨ phase.gaveUp = true) :
    phase'.served = true ∨ phase'.gaveUp = true := by
  cases h with
  | @refused _ e => cases e <;> exact hphase
  | _ => first | exact .inl rfl | exact .inr rfl | simp at hphase

theorem Inner.adjustPermits_movesUp {p : Inner} (hn : p.semaphore.waiters.Nodup)
    (hi : i ∈ (p.adjustPermits previous target).semaphore.waiters) :
    p.semaphore.MovesUp i 0 (p.adjustPermits previous target).semaphore := by
  unfold Inner.adjustPermits at hi ⊢
  by_cases hgrow : previous < target
  · rw [if_pos hgrow] at hi ⊢
    exact (Semaphore.MovesUp.addPermits hn hi).mono (Nat.zero_le _)
  · rw [if_neg hgrow]
    exact .forgetPermits _ i _

theorem Pool.Step.saturated (h : Pool.Step options s a t)
    (hs : s.inner.semaphore.Saturated) : t.inner.semaphore.Saturated := by
  cases h with
  | claim hc h => exact h.saturated hs
  | replenish h =>
    rw [h.semaphore]
    exact hs
  | close => exact .close _
  | adjustPermits =>
    simp only [Inner.adjustPermits]
    split
    · exact hs.addPermits _
    · exact hs.forgetPermits _
  | _ => exact hs

theorem Pool.saturated (h : (Pool.system options).Reachable s) :
    s.inner.semaphore.Saturated := by
  apply h.invariant ?_ fun _ _ _ _ hs hst => hst.saturated hs
  intro _ hinit
  cases hinit
  exact .new _

/-- A claim that holds a slot or held one, or that the semaphore has assigned one to. -/
def Pool.Served (s : Pool) (j : Nat) : Prop :=
  j ∈ s.inner.semaphore.granted ∨ ∃ c, s.claims[j]? = some c ∧ c.phase.served = true

def Pool.GaveUp (s : Pool) (i : Nat) : Prop :=
  ∃ c, s.claims[i]? = some c ∧ c.phase.gaveUp = true

/-- How many slots claims have given back so far. -/
def Pool.givenBack (s : Pool) : Nat := total (fun c => c.phase.gaveBack) s.claims

/-- The claims before claim `i` in the line. -/
def Pool.ahead (s : Pool) (i : Nat) : List Nat := s.inner.semaphore.ahead i

/-- What claim `i` in the line sees from `s` to `t`: nobody came in before it, nobody who was
not before it was served, and each slot given back brought it one place ahead. -/
structure Pool.InOrder (s t : Pool) (i : Nat) : Prop where
  ahead : t.ahead i ⊆ s.ahead i
  served : ∀ j, t.Served j → s.Served j ∨ j ∈ s.ahead i
  place : (t.ahead i).length + t.givenBack ≤ (s.ahead i).length + s.givenBack

theorem Pool.InOrder.refl (s : Pool) (i : Nat) : s.InOrder s i :=
  ⟨fun _ h => h, fun _ h => .inl h, Nat.le_refl _⟩

theorem Pool.InOrder.trans {s t u : Pool} (h : s.InOrder t i) (h' : t.InOrder u i) :
    s.InOrder u i := by
  refine ⟨fun j hj => h.ahead (h'.ahead hj), fun j hj => ?_, h'.place.trans h.place⟩
  cases h'.served j hj with
  | inl hserved => exact h.served j hserved
  | inr hahead => exact .inr (h.ahead hahead)

/-- Where no claim moves, the line alone decides. -/
theorem Pool.InOrder.of_movesUp {s t : Pool} (hclaims : t.claims = s.claims)
    (h : s.inner.semaphore.MovesUp i 0 t.inner.semaphore) : s.InOrder t i := by
  refine ⟨h.ahead, fun j hj => ?_, ?_⟩
  · cases hj with
    | inl hgranted => exact (h.granted j hgranted).imp_left .inl
    | inr hphase =>
      rw [hclaims] at hphase
      exact .inl (.inr hphase)
  · simp only [Pool.givenBack, hclaims]
    exact Nat.add_le_add_right h.place _

theorem Pool.InOrder.claim {s : Pool} (hs : s.inner.semaphore.Saturated) (hq : s.Queued)
    (hi : i ∈ s.inner.semaphore.waiters) (hc : s.claims[j]? = some c)
    (h : ClaimStep options j c.kind s.inner c.phase e p phase)
    (hi' : i ∈ p.semaphore.waiters) :
    s.InOrder { s with inner := p, claims := s.claims.set j ⟨c.kind, phase⟩ } i := by
  obtain ⟨k, hback, hmoves⟩ := h.movesUp hs hq.nodup hi hi'
  refine ⟨hmoves.ahead, fun x hx => ?_, ?_⟩
  · cases hx with
    | inl hgranted => exact (hmoves.granted x hgranted).imp_left .inl
    | inr hphase =>
      left
      obtain ⟨d, hd, hserved⟩ := hphase
      by_cases hxj : j = x
      · subst x
        have hlt := (List.getElem?_eq_some_iff.1 hc).1
        obtain rfl := Option.some.inj ((List.getElem?_set_self hlt).symm.trans hd)
        cases h.served hs hi hserved with
        | inl hbefore => exact .inr ⟨c, hc, hbefore⟩
        | inr hgranted => exact .inl hgranted
      · exact .inr ⟨d, (List.getElem?_set_ne hxj).symm.trans hd, hserved⟩
  · have hset := total_set (fun c : Claim => c.phase.gaveBack) hc ⟨c.kind, phase⟩
    have hplace := hmoves.place
    simp only [Pool.givenBack, Pool.ahead] at hset ⊢
    omega

theorem Pool.Step.inOrder (h : Pool.Step options s a t) (hs : s.inner.semaphore.Saturated)
    (hq : s.Queued) (hi : i ∈ s.inner.semaphore.waiters) (hi' : i ∈ t.inner.semaphore.waiters) :
    s.InOrder t i := by
  cases h with
  | claim hc h => exact .claim hs hq hi hc h hi'
  | replenish h =>
    have hsame : s.inner.semaphore.MovesUp i 0 s.inner.semaphore := .refl i _
    rw [← h.semaphore] at hsame
    exact .of_movesUp rfl (h.semaphore ▸ hsame)
  | close => cases hi'
  | adjustPermits => exact .of_movesUp rfl (Inner.adjustPermits_movesUp
      (List.nodup_append.1 hq.nodup).1 hi')
  | spawn =>
    refine ⟨fun _ h => h, fun j hj => ?_, ?_⟩
    · left
      cases hj with
      | inl hgranted => exact .inl hgranted
      | inr hphase =>
        obtain ⟨c, hc, hserved⟩ := hphase
        by_cases hlt : j < s.claims.length
        · exact .inr ⟨c, (List.getElem?_append_left hlt).symm.trans hc, hserved⟩
        · rw [List.getElem?_append_right (Nat.le_of_not_lt hlt)] at hc
          cases List.mem_singleton.1 (List.mem_of_getElem? hc)
          cases hserved
    · simp only [Pool.givenBack, total_append]
      exact Nat.le_refl _
  | _ => exact .of_movesUp rfl (.refl i _)

/-- A claim past its way to the line. -/
def Pool.Queueing (s : Pool) (i : Nat) : Prop :=
  ∃ c, s.claims[i]? = some c ∧ c.phase.toQueue = false

theorem Pool.Queued.queueing {s : Pool} (hq : s.Queued) (hi : i ∈ s.inner.semaphore.waiters) :
    s.Queueing i := by
  obtain ⟨c, started, hc, hphase⟩ := hq.waiting i (List.mem_append_left _ hi)
  refine ⟨c, hc, ?_⟩
  rw [hphase]
  rfl

theorem Pool.Step.queueing (h : Pool.Step options s a t) (hs : s.Queueing i) : t.Queueing i := by
  obtain ⟨c, hc, hphase⟩ := hs
  cases h with
  | @claim j d e p phase _ hd h =>
    by_cases hij : j = i
    · subst j
      obtain rfl := Option.some.inj (hd.symm.trans hc)
      have hlt := (List.getElem?_eq_some_iff.1 hd).1
      exact ⟨_, List.getElem?_set_self hlt, h.toQueue hphase⟩
    · exact ⟨c, (List.getElem?_set_ne hij).trans hc, hphase⟩
  | spawn =>
    have hlt := (List.getElem?_eq_some_iff.1 hc).1
    exact ⟨c, (List.getElem?_append_left hlt).trans hc, hphase⟩
  | _ => exact ⟨c, hc, hphase⟩

/-- A claim that left the line, or its way to it, does not come back. -/
theorem Pool.Step.waiters (h : Pool.Step options s a t) (hs : s.Queueing i)
    (hi : i ∈ t.inner.semaphore.waiters) : i ∈ s.inner.semaphore.waiters := by
  cases h with
  | claim hc h =>
    cases h.waiters hi with
    | inl hbefore => exact hbefore
    | inr hnew =>
      obtain ⟨rfl, hphase⟩ := hnew
      obtain ⟨c, hc', hnot⟩ := hs
      obtain rfl := Option.some.inj (hc.symm.trans hc')
      rw [hphase] at hnot
      cases hnot
  | replenish h =>
    simp only [h.semaphore] at hi
    exact hi
  | close => cases hi
  | adjustPermits =>
    simp only [Inner.adjustPermits] at hi
    split at hi
    · rw [Semaphore.addPermits_waiters] at hi
      exact List.mem_of_mem_drop hi
    · exact hi
  | _ => exact hi

/-- What becomes of a claim that has been in the line. -/
inductive Pool.Attended (s : Pool) (i : Nat) : Prop
  | waits (h : i ∈ s.inner.semaphore.waiters)
  | served (h : s.Served i)
  | gaveUp (h : s.GaveUp i)
  | closed (h : s.inner.semaphore.closed = true)

theorem Pool.Attended.of_pending {s : Pool} (h : i ∈ s.inner.semaphore.pending) :
    s.Attended i := by
  cases List.mem_append.1 h with
  | inl hwaits => exact .waits hwaits
  | inr hgranted => exact .served (.inl hgranted)

theorem Pool.Attended.of_settled {s : Pool} (hc : s.claims[i]? = some c)
    (h : c.phase.served = true ∨ c.phase.gaveUp = true) : s.Attended i := by
  cases h with
  | inl hserved => exact .served (.inr ⟨c, hc, hserved⟩)
  | inr hgave => exact .gaveUp ⟨c, hc, hgave⟩

/-- A section of a claim that the semaphore has in its books and that is not closed. -/
theorem ClaimStep.attended (h : ClaimStep options i kind p (.waiting started) e p' phase')
    (hopen : p.semaphore.closed = false) : phase'.served = true ∨ phase'.gaveUp = true := by
  cases h with
  | granted => exact .inl rfl
  | closedWaiting hclosed =>
    rw [hopen] at hclosed
    cases hclosed
  | timedOut => exact .inr rfl
  | dropWaiting => exact .inr rfl

theorem Pool.Attended.claim {s : Pool} (hq : s.Queued) (ha : s.Attended i)
    (hc : s.claims[j]? = some c) (h : ClaimStep options j c.kind s.inner c.phase e p phase) :
    Pool.Attended { s with inner := p, claims := s.claims.set j ⟨c.kind, phase⟩ } i := by
  have hself : (s.claims.set j ⟨c.kind, phase⟩)[j]? = some ⟨c.kind, phase⟩ :=
    List.getElem?_set_self (List.getElem?_eq_some_iff.1 hc).1
  -- the claim that the semaphore has in its books stays there, if it is not the one that moves
  have hpending (hi : i ∈ s.inner.semaphore.pending) :
      Pool.Attended { s with inner := p, claims := s.claims.set j ⟨c.kind, phase⟩ } i := by
    by_cases hij : j = i
    · subst i
      obtain ⟨d, started, hd, hwaiting⟩ := hq.waiting j hi
      obtain rfl := Option.some.inj (hc.symm.trans hd)
      cases hopen : s.inner.semaphore.closed with
      | true => exact .closed (h.closed.trans hopen)
      | false =>
        rw [hwaiting] at h
        exact .of_settled hself (h.attended hopen)
    · apply Pool.Attended.of_pending
      rcases h.pending hq.nodup with ⟨hp, _⟩ | ⟨hp, _⟩ | ⟨hp, _⟩
      · exact hp.mem_iff.2 hi
      · exact hp.mem_iff.2 (List.mem_cons_of_mem _ hi)
      · exact hp.mem_iff.2 ((List.mem_erase_of_ne (Ne.symm hij)).2 hi)
  have hphase {d : Claim} (hd : s.claims[i]? = some d)
      (hsettled : d.phase.served = true ∨ d.phase.gaveUp = true) :
      Pool.Attended { s with inner := p, claims := s.claims.set j ⟨c.kind, phase⟩ } i := by
    by_cases hij : j = i
    · subst i
      obtain rfl := Option.some.inj (hc.symm.trans hd)
      exact .of_settled hself (h.settled hsettled)
    · exact .of_settled ((List.getElem?_set_ne hij).trans hd) hsettled
  cases ha with
  | waits hi => exact hpending (List.mem_append_left _ hi)
  | served hserved =>
    cases hserved with
    | inl hgranted => exact hpending (List.mem_append_right _ hgranted)
    | inr hserved =>
      obtain ⟨d, hd, hserved⟩ := hserved
      exact hphase hd (.inl hserved)
  | gaveUp hgave =>
    obtain ⟨d, hd, hgave⟩ := hgave
    exact hphase hd (.inr hgave)
  | closed hclosed => exact .closed (h.closed.trans hclosed)

/-- Where no claim moves, one that is attended to stays so, unless the semaphore drops it. -/
theorem Pool.Attended.of_claims {s t : Pool} (ha : s.Attended i)
    (hclaims : ∀ c, s.claims[i]? = some c → t.claims[i]? = some c)
    (hpending : t.inner.semaphore.pending.Perm s.inner.semaphore.pending)
    (hclosed : t.inner.semaphore.closed = s.inner.semaphore.closed) : t.Attended i := by
  cases ha with
  | waits h => exact .of_pending (hpending.mem_iff.2 (List.mem_append_left _ h))
  | served h =>
    cases h with
    | inl hgranted => exact .of_pending (hpending.mem_iff.2 (List.mem_append_right _ hgranted))
    | inr hphase =>
      obtain ⟨c, hc, hserved⟩ := hphase
      exact .served (.inr ⟨c, hclaims c hc, hserved⟩)
  | gaveUp h =>
    obtain ⟨c, hc, hgave⟩ := h
    exact .gaveUp ⟨c, hclaims c hc, hgave⟩
  | closed h => exact .closed (hclosed.trans h)

theorem Pool.Step.attended (h : Pool.Step options s a t) (hq : s.Queued) (ha : s.Attended i) :
    t.Attended i := by
  cases h with
  | claim hc h => exact ha.claim hq hc h
  | spawn =>
    refine ha.of_claims (fun c hc => ?_) (.refl _) rfl
    exact (List.getElem?_append_left (List.getElem?_eq_some_iff.1 hc).1).trans hc
  | replenish h =>
    exact ha.of_claims (fun _ hc => hc) (.of_eq (congrArg _ h.semaphore))
      (congrArg _ h.semaphore)
  | close => exact .closed rfl
  | adjustPermits =>
    refine ha.of_claims (fun _ hc => hc) ?_ ?_
    · simp only [Inner.adjustPermits]
      split
      · exact Semaphore.addPermits_pending _ _
      · exact .refl _
    · simp only [Inner.adjustPermits]
      split
      · exact Semaphore.addPermits_closed _ _
      · rfl
  | _ => exact ha.of_claims (fun _ hc => hc) (.refl _) rfl

/-- First come, first served. From the moment a claim is in the line no claim that was not
served yet or before it is served as long as it waits, and each slot that is given back brings
it one place ahead, so that it leaves the line with as many slots given back as claims stood
before it and one. It leaves the line with a slot, as one that waited too long or was dropped,
or with the pool closed. -/
theorem first_come_first_served (hs : (Pool.system options).Reachable s)
    (hi : i ∈ s.inner.semaphore.waiters) (hrun : (Pool.system options).Run s as t) :
    (i ∈ t.inner.semaphore.waiters → t.freePermits = 0 ∧ s.InOrder t i) ∧
      ((s.ahead i).length + s.givenBack < t.givenBack → i ∉ t.inner.semaphore.waiters) ∧
      (i ∉ t.inner.semaphore.waiters →
        t.Served i ∨ t.GaveUp i ∨ t.inner.semaphore.closed = true) := by
  have horder : i ∈ t.inner.semaphore.waiters → s.InOrder t i := by
    induction hrun with
    | nil => exact fun _ => .refl s i
    | @snoc as u a t hrun hst ih =>
      intro hwaits
      have hreach := hrun.reachable hs
      have hqueueing := hrun.preserves (I := fun u => u.Queueing i) ((Pool.queued hs).queueing hi)
        fun _ _ _ hu hst => hst.queueing hu
      have hbefore := hst.waiters hqueueing hwaits
      exact (ih hbefore).trans
        (hst.inOrder (Pool.saturated hreach) (Pool.queued hreach) hbefore hwaits)
  refine ⟨fun hwaits => ⟨?_, horder hwaits⟩, fun hgiven hwaits => ?_, fun hleft => ?_⟩
  · exact (Pool.saturated (hrun.reachable hs)).full (List.ne_nil_of_mem hwaits)
  · have hplace := (horder hwaits).place
    omega
  · have hattended : t.Queued ∧ t.Attended i :=
      hrun.preserves (I := fun u => u.Queued ∧ u.Attended i) ⟨Pool.queued hs, .waits hi⟩
        fun _ _ _ hu hst => ⟨hst.queued hu.1, hst.attended hu.1 hu.2⟩
    cases hattended.2 with
    | waits h => exact absurd h hleft
    | served h => exact .inl h
    | gaveUp h => exact .inr (.inl h)
    | closed h => exact .inr (.inr h)

/-- One slot, which a claim holds, and two claims in the line for it. -/
def Pool.twoInLine : Pool where
  inner := { Inner.new ⟨0, 1, 2, 0, 0, 0⟩ with semaphore := ⟨0, [1, 2], [], false⟩, waiting := 2 }
  claims := [⟨.claim, .holding⟩, ⟨.claim, .waiting 0⟩, ⟨.claim, .waiting 0⟩]
  replenisher := .top
  closing := 0
  resizing := none

/-- The slot goes to the first of two in the line, and the second moves up. -/
theorem first_come_first_served_second :
    ∃ t as, (Pool.system ⟨0, 1, 2, 0, 0, 0⟩).Reachable .twoInLine ∧
      (Pool.system ⟨0, 1, 2, 0, 0, 0⟩).Run .twoInLine as t ∧ Pool.twoInLine.ahead 2 = [1] ∧
      t.ahead 2 = [] ∧ t.givenBack = 1 ∧ t.freePermits = 0 ∧ Pool.twoInLine.InOrder t 2 := by
  have hline : (Pool.system ⟨0, 1, 2, 0, 0, 0⟩).Run (.new ⟨0, 1, 2, 0, 0, 0⟩)
      [.spawn .claim, .claim 0 .run, .spawn .claim, .spawn .claim, .claim 1 .run, .claim 1 .run,
        .claim 1 .run, .claim 2 .run, .claim 2 .run, .claim 2 .run] _ :=
    .cons .spawn <| .cons (.claim rfl (.tryAcquireOk rfl)) <| .cons .spawn <| .cons .spawn <|
      .cons (.claim rfl (.tryAcquireNoPermits rfl)) <| .cons (.claim rfl .fetchAdd) <|
      .cons (.claim rfl (.acquirePending (by decide) rfl)) <|
      .cons (.claim rfl (.tryAcquireNoPermits rfl)) <| .cons (.claim rfl .fetchAdd) <|
      .single (.claim rfl (.acquirePending (by decide) rfl))
  have hserve : (Pool.system ⟨0, 1, 2, 0, 0, 0⟩).Run .twoInLine
      [.claim 0 .run, .claim 0 .launchOk, .claim 0 .destroy, .claim 0 .run, .claim 0 .run] _ :=
    .cons (.claim rfl (.noWarm rfl rfl)) <| .cons (.claim rfl .launchOk) <|
      .cons (.claim rfl .destroy) <| .cons (.claim rfl .destroyed) <|
      .single (.claim rfl .addPermit)
  have hreach : (Pool.system ⟨0, 1, 2, 0, 0, 0⟩).Reachable .twoInLine :=
    hline.reachable (.init rfl)
  have hfirst := (first_come_first_served hreach (i := 2) (by decide) hserve).1 (by decide)
  exact ⟨_, _, hreach, hserve, rfl, rfl, rfl, hfirst.1, hfirst.2⟩

end BrowserServe
