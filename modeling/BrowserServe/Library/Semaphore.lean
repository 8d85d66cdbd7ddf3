import Mathlib.Data.List.Basic
import Mathlib.Data.List.Nodup

namespace BrowserServe.Library
set_option autoImplicit true

/-- A fair counting semaphore. A released permit goes to the oldest queued acquire, which
keeps it in `granted` until it runs again; only without a queue does it become free. -/
structure Semaphore (ι : Type) where
  permits : Nat
  waiters : List ι
  granted : List ι
  closed : Bool

inductive TryAcquireError where
  | closed
  | noPermits
  deriving DecidableEq

namespace Semaphore
variable {ι : Type}

def new (permits : Nat) : Semaphore ι := ⟨permits, [], [], false⟩

def tryAcquire (s : Semaphore ι) : Except TryAcquireError (Semaphore ι) :=
  if s.closed then .error .closed
  else if s.permits = 0 then .error .noPermits
  else .ok { s with permits := s.permits - 1 }

/-- Gives one permit back. -/
def release (s : Semaphore ι) : Semaphore ι :=
  match s.waiters with
  | [] => { s with permits := s.permits + 1 }
  | i :: rest => { s with waiters := rest, granted := s.granted ++ [i] }

def addPermits : Nat → Semaphore ι → Semaphore ι
  | 0, s => s
  | n + 1, s => addPermits n s.release

/-- Takes up to `n` free permits out of circulation. -/
def forgetPermits (n : Nat) (s : Semaphore ι) : Semaphore ι :=
  { s with permits := s.permits - n }

def enqueue (i : ι) (s : Semaphore ι) : Semaphore ι :=
  { s with waiters := s.waiters ++ [i] }

/-- A granted acquire runs again and walks off with its permit. -/
def take [DecidableEq ι] (i : ι) (s : Semaphore ι) : Semaphore ι :=
  { s with granted := s.granted.erase i }

/-- A pending acquire is dropped; a permit it was granted goes back. -/
def cancel [DecidableEq ι] (i : ι) (s : Semaphore ι) : Semaphore ι :=
  if i ∈ s.granted then (s.take i).release else { s with waiters := s.waiters.erase i }

def close (s : Semaphore ι) : Semaphore ι :=
  { s with closed := true, waiters := [] }

/-- Permits nobody has taken: free ones and those granted to an acquire yet to run. -/
def unclaimed (s : Semaphore ι) : Nat := s.permits + s.granted.length

/-- The acquires that have been queued and have not run since. -/
def pending (s : Semaphore ι) : List ι := s.waiters ++ s.granted

theorem tryAcquire_ok {s s' : Semaphore ι} (h : s.tryAcquire = .ok s') :
    s.closed = false ∧ 0 < s.permits ∧ s' = { s with permits := s.permits - 1 } := by
  unfold tryAcquire at h
  split at h
  · cases h
  · split at h
    · cases h
    · rename_i hc hp
      cases h
      exact ⟨Bool.eq_false_iff.2 hc, Nat.pos_of_ne_zero hp, rfl⟩

@[simp] theorem release_unclaimed (s : Semaphore ι) : s.release.unclaimed = s.unclaimed + 1 := by
  unfold release
  split
  · simp only [unclaimed]
    omega
  · simp only [unclaimed, List.length_append, List.length_singleton]
    omega

theorem release_permits (s : Semaphore ι) : s.permits ≤ s.release.permits := by
  unfold release
  split
  · exact Nat.le_succ _
  · exact Nat.le_refl _

@[simp] theorem release_closed (s : Semaphore ι) : s.release.closed = s.closed := by
  unfold release
  split <;> rfl

@[simp] theorem addPermits_closed (n : Nat) (s : Semaphore ι) :
    (addPermits n s).closed = s.closed := by
  induction n generalizing s with
  | zero => rfl
  | succ n ih => rw [addPermits, ih, release_closed]

theorem addPermits_unclaimed (n : Nat) (s : Semaphore ι) :
    (addPermits n s).unclaimed = s.unclaimed + n := by
  induction n generalizing s with
  | zero => rfl
  | succ n ih =>
    rw [addPermits, ih, release_unclaimed]
    omega

theorem release_pending (s : Semaphore ι) : s.release.pending.Perm s.pending := by
  unfold release
  split
  · exact .refl _
  · rename_i i rest hw
    simp only [pending, hw]
    rw [← List.append_assoc]
    exact (List.perm_append_comm).trans (.refl _)

theorem addPermits_pending (n : Nat) (s : Semaphore ι) :
    (addPermits n s).pending.Perm s.pending := by
  induction n generalizing s with
  | zero => exact .refl _
  | succ n ih => exact (ih _).trans s.release_pending

theorem tryAcquire_unclaimed {s s' : Semaphore ι} (h : s.tryAcquire = .ok s') :
    s'.unclaimed + 1 = s.unclaimed := by
  obtain ⟨_, hp, rfl⟩ := tryAcquire_ok h
  simp only [unclaimed]
  omega

theorem enqueue_pending (i : ι) (s : Semaphore ι) :
    (s.enqueue i).pending.Perm (i :: s.pending) := by
  simp only [pending, enqueue, List.append_assoc, List.singleton_append]
  exact List.perm_middle

@[simp] theorem enqueue_unclaimed (i : ι) (s : Semaphore ι) :
    (s.enqueue i).unclaimed = s.unclaimed := rfl

@[simp] theorem close_unclaimed (s : Semaphore ι) : s.close.unclaimed = s.unclaimed := rfl

variable [DecidableEq ι]

theorem take_unclaimed {s : Semaphore ι} (h : i ∈ s.granted) :
    (s.take i).unclaimed + 1 = s.unclaimed := by
  have := List.length_pos_of_mem h
  simp only [unclaimed, take, List.length_erase_of_mem h]
  omega

@[simp] theorem cancel_unclaimed (i : ι) (s : Semaphore ι) :
    (s.cancel i).unclaimed = s.unclaimed := by
  unfold cancel
  split
  · rename_i h
    rw [release_unclaimed]
    exact take_unclaimed h
  · rfl

theorem cancel_permits (i : ι) (s : Semaphore ι) : s.permits ≤ (s.cancel i).permits := by
  unfold cancel
  split
  · exact (s.take i).release_permits
  · exact Nat.le_refl _

@[simp] theorem cancel_closed (i : ι) (s : Semaphore ι) : (s.cancel i).closed = s.closed := by
  unfold cancel
  split
  · exact (s.take i).release_closed
  · rfl

theorem take_pending {s : Semaphore ι} (hn : s.pending.Nodup) (h : i ∈ s.granted) :
    (s.take i).pending = s.pending.erase i := by
  have hw : i ∉ s.waiters := fun hw => (List.nodup_append.1 hn).2.2 i hw i h rfl
  simp only [pending, take, List.erase_append_right _ hw]

/-- Dropping a pending acquire takes it off the books and leaves the others on. -/
theorem cancel_pending {s : Semaphore ι} (hn : s.pending.Nodup) :
    (s.cancel i).pending.Perm (s.pending.erase i) := by
  unfold cancel
  split
  · rename_i h
    exact (release_pending _).trans (.of_eq (take_pending hn h))
  · rename_i h
    by_cases hw : i ∈ s.waiters
    · exact .of_eq (List.erase_append_left _ hw).symm
    · have hp : i ∉ s.pending := fun hp => (List.mem_append.1 hp).elim hw h
      rw [List.erase_of_not_mem hp]
      simp only [pending, List.erase_of_not_mem hw]
      exact .refl _

end Semaphore
end BrowserServe.Library
