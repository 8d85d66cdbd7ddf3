import BrowserServe.Library.Semaphore
import Mathlib.Data.List.TakeWhile

namespace BrowserServe.Library
set_option autoImplicit true

namespace Semaphore
variable {ι : Type}

/-- No permit is free while somebody waits for one, and nobody waits once it is closed. -/
structure Saturated (s : Semaphore ι) : Prop where
  full : s.waiters ≠ [] → s.permits = 0
  shut : s.closed = true → s.waiters = []

theorem Saturated.new (permits : Nat) : (new permits : Semaphore ι).Saturated :=
  ⟨fun h => absurd rfl h, fun _ => rfl⟩

theorem Saturated.blocked {s s' : Semaphore ι} (hs : s.Saturated) (hi : i ∈ s.waiters) :
    s.tryAcquire ≠ .ok s' := by
  intro h
  obtain ⟨_, hfree, _⟩ := tryAcquire_ok h
  have hfull := hs.full (List.ne_nil_of_mem hi)
  omega

theorem Saturated.tryAcquire {s s' : Semaphore ι} (hs : s.Saturated)
    (h : s.tryAcquire = .ok s') : s'.Saturated := by
  obtain ⟨_, _, rfl⟩ := tryAcquire_ok h
  refine ⟨?_, hs.shut⟩
  intro hw
  have hfull := hs.full hw
  simp only
  omega

theorem Saturated.release {s : Semaphore ι} (hs : s.Saturated) : s.release.Saturated := by
  unfold Semaphore.release
  split
  · rename_i hw
    exact ⟨fun h => absurd hw h, fun _ => hw⟩
  · rename_i i rest hw
    refine ⟨fun _ => hs.full (by simp [hw]), fun hc => ?_⟩
    have hnone := hs.shut hc
    rw [hw] at hnone
    cases hnone

theorem Saturated.addPermits {s : Semaphore ι} (hs : s.Saturated) (n : Nat) :
    (addPermits n s).Saturated := by
  induction n generalizing s with
  | zero => exact hs
  | succ n ih => exact ih hs.release

theorem Saturated.forgetPermits {s : Semaphore ι} (hs : s.Saturated) (n : Nat) :
    (s.forgetPermits n).Saturated := by
  refine ⟨?_, hs.shut⟩
  intro hw
  have hfull := hs.full hw
  simp only [Semaphore.forgetPermits]
  omega

theorem Saturated.enqueue {s : Semaphore ι} (i : ι) (h : s.tryAcquire = .error .noPermits) :
    (s.enqueue i).Saturated := by
  unfold Semaphore.tryAcquire at h
  split at h
  · cases h
  · rename_i hopen
    split at h
    · rename_i hfull
      exact ⟨fun _ => hfull, fun hc => absurd hc hopen⟩
    · cases h

theorem Saturated.close (s : Semaphore ι) : s.close.Saturated :=
  ⟨fun h => absurd rfl h, fun _ => rfl⟩

theorem release_waiters (s : Semaphore ι) : s.release.waiters = s.waiters.tail := by
  unfold release
  split
  · rename_i hw
    simp only [hw, List.tail_nil]
  · rename_i hw
    simp only [hw, List.tail_cons]

theorem addPermits_waiters (n : Nat) (s : Semaphore ι) :
    (addPermits n s).waiters = s.waiters.drop n := by
  induction n generalizing s with
  | zero => rfl
  | succ n ih => rw [addPermits, ih, release_waiters, List.drop_tail]

variable [DecidableEq ι]

theorem Saturated.take {s : Semaphore ι} (hs : s.Saturated) (i : ι) : (s.take i).Saturated :=
  ⟨hs.full, hs.shut⟩

theorem Saturated.cancel {s : Semaphore ι} (hs : s.Saturated) (i : ι) :
    (s.cancel i).Saturated := by
  unfold Semaphore.cancel
  split
  · exact (hs.take i).release
  · refine ⟨fun hw => hs.full ?_, fun hc => ?_⟩
    · intro hnone
      simp [hnone] at hw
    · simp only [hs.shut hc, List.erase_nil]

theorem cancel_waiters (i : ι) (s : Semaphore ι) (h : j ∈ (s.cancel i).waiters) :
    j ∈ s.waiters := by
  unfold cancel at h
  split at h
  · rw [release_waiters] at h
    exact List.mem_of_mem_tail h
  · exact List.mem_of_mem_erase h

/-- The acquires that were queued before `i` and still wait. -/
def ahead (i : ι) (s : Semaphore ι) : List ι := s.waiters.takeWhile (· ≠ i)

/-- What `i` in the line sees of a change: nobody comes in before it, only those before it are
given a permit, and it is `k` places further ahead. -/
structure MovesUp (i : ι) (k : Nat) (s s' : Semaphore ι) : Prop where
  ahead : s'.ahead i ⊆ s.ahead i
  granted : ∀ j ∈ s'.granted, j ∈ s.granted ∨ j ∈ s.ahead i
  place : (s'.ahead i).length + k ≤ (s.ahead i).length

theorem MovesUp.refl (i : ι) (s : Semaphore ι) : MovesUp i 0 s s :=
  ⟨fun _ h => h, fun _ h => .inl h, Nat.le_refl _⟩

theorem MovesUp.trans {s s' s'' : Semaphore ι} (h : MovesUp i k s s') (h' : MovesUp i l s' s'') :
    MovesUp i (k + l) s s'' := by
  refine ⟨fun j hj => h.ahead (h'.ahead hj), fun j hj => ?_, ?_⟩
  · cases h'.granted j hj with
    | inl hgranted => exact h.granted j hgranted
    | inr hahead => exact .inr (h.ahead hahead)
  · have hfirst := h.place
    have hsecond := h'.place
    omega

theorem MovesUp.mono {s s' : Semaphore ι} (h : MovesUp i k s s') (hl : l ≤ k) :
    MovesUp i l s s' := by
  refine ⟨h.ahead, h.granted, ?_⟩
  have hplace := h.place
  omega

/-- The permit goes to the one at the front, who is not `i`, as `i` still waits. -/
theorem MovesUp.release {s : Semaphore ι} (hn : s.waiters.Nodup) (hi : i ∈ s.release.waiters) :
    MovesUp i 1 s s.release := by
  unfold Semaphore.release at hi ⊢
  split at hi
  · rename_i hw
    simp [hw] at hi
  · rename_i first rest hw
    have hne : first ≠ i := by
      rintro rfl
      rw [hw] at hn
      exact (List.nodup_cons.1 hn).1 hi
    have hahead : s.ahead i = first :: rest.takeWhile (· ≠ i) := by
      simp only [Semaphore.ahead, hw]
      exact List.takeWhile_cons_of_pos (by simpa using hne)
    refine ⟨?_, ?_, ?_⟩
    · rw [hahead]
      exact fun j hj => List.mem_cons_of_mem _ hj
    · intro j hj
      cases List.mem_append.1 hj with
      | inl hbefore => exact .inl hbefore
      | inr hfirst =>
        right
        rw [hahead, List.mem_singleton.1 hfirst]
        exact List.mem_cons_self
    · rw [hahead]
      exact Nat.le_refl _

theorem MovesUp.addPermits {s : Semaphore ι} (hn : s.waiters.Nodup)
    (hi : i ∈ (Semaphore.addPermits n s).waiters) : MovesUp i n s (Semaphore.addPermits n s) := by
  induction n generalizing s with
  | zero => exact .refl i s
  | succ n ih =>
    have hrest : s.release.waiters.Nodup := by
      rw [release_waiters]
      exact hn.tail
    have hwaits : i ∈ s.release.waiters := by
      rw [Semaphore.addPermits, addPermits_waiters] at hi
      exact List.mem_of_mem_drop hi
    exact ((MovesUp.release hn hwaits).trans (ih hrest hi)).mono (by omega)

theorem MovesUp.forgetPermits (n : Nat) (i : ι) (s : Semaphore ι) :
    MovesUp i 0 s (s.forgetPermits n) :=
  ⟨fun _ h => h, fun _ h => .inl h, Nat.le_refl _⟩

/-- Who comes to the line stands behind those who wait in it. -/
theorem MovesUp.enqueue {s : Semaphore ι} (hi : i ∈ s.waiters) (j : ι) :
    MovesUp i 0 s (s.enqueue j) := by
  have hahead : (s.enqueue j).ahead i = s.ahead i := by
    simp only [Semaphore.ahead, Semaphore.enqueue]
    rw [List.takeWhile_append, if_neg]
    intro hall
    have hself := (List.takeWhile_prefix (· ≠ i)).eq_of_length hall
    simpa using List.takeWhile_eq_self_iff.1 hself i hi
  refine ⟨?_, fun _ h => .inl h, ?_⟩
  · rw [hahead]
    exact fun _ h => h
  · rw [hahead]
    exact Nat.le_refl _

theorem MovesUp.take (j i : ι) (s : Semaphore ι) : MovesUp i 0 s (s.take j) :=
  ⟨fun _ h => h, fun _ h => .inl (List.mem_of_mem_erase h), Nat.le_refl _⟩

theorem takeWhile_erase {i j : ι} (hne : j ≠ i) (l : List ι) :
    (l.erase j).takeWhile (· ≠ i) = (l.takeWhile (· ≠ i)).erase j := by
  induction l with
  | nil => rfl
  | cons x l ih =>
    by_cases hx : x = j
    · subst x
      rw [List.erase_cons_head, List.takeWhile_cons_of_pos (by simpa using hne),
        List.erase_cons_head]
    · rw [List.erase_cons_tail (by simpa using hx)]
      by_cases hxi : x = i
      · subst x
        simp
      · rw [List.takeWhile_cons_of_pos (by simpa using hxi),
          List.takeWhile_cons_of_pos (by simpa using hxi), List.erase_cons_tail (by simpa using hx),
          ih]

/-- One that is dropped leaves its place to those behind it, or its permit to the first. -/
theorem MovesUp.cancel {s : Semaphore ι} (hn : s.waiters.Nodup)
    (hi : i ∈ (s.cancel j).waiters) : MovesUp i 0 s (s.cancel j) := by
  unfold Semaphore.cancel at hi ⊢
  by_cases hgranted : j ∈ s.granted
  · rw [if_pos hgranted] at hi ⊢
    exact ((MovesUp.take j i s).trans (.release hn hi)).mono (Nat.zero_le _)
  · rw [if_neg hgranted] at hi ⊢
    have hne : j ≠ i := by
      rintro rfl
      exact hn.not_mem_erase hi
    have hahead : ({ s with waiters := s.waiters.erase j } : Semaphore ι).ahead i =
        (s.ahead i).erase j := takeWhile_erase hne s.waiters
    refine ⟨?_, fun _ h => .inl h, ?_⟩
    · rw [hahead]
      exact List.erase_subset
    · rw [hahead]
      exact List.length_erase_le

end Semaphore
end BrowserServe.Library
