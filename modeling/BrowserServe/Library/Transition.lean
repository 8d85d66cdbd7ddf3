import Mathlib.Algebra.GroupWithZero.Nat
import Mathlib.Data.List.Basic

namespace BrowserServe.Library
set_option autoImplicit true

/-- A labelled transition system: its starting states and its steps. -/
structure System (σ : Type) (α : Type) where
  init : σ → Prop
  step : σ → α → σ → Prop

/-- A finite run with its labels, oldest first. -/
inductive System.Run (S : System σ α) (s : σ) : List α → σ → Prop
  | nil : Run S s [] s
  | snoc : Run S s as t → S.step t a u → Run S s (as ++ [a]) u

inductive System.Reachable (S : System σ α) : σ → Prop
  | init : S.init s → Reachable S s
  | step : Reachable S s → S.step s a t → Reachable S t

/-- The same system with every step held to a condition on its two ends and its label. -/
def System.guarded (S : System σ α) (ok : σ → α → σ → Prop) : System σ α where
  init := S.init
  step s a t := S.step s a t ∧ ok s a t

variable {S : System σ α}

theorem System.Run.single (h : S.step s a t) : S.Run s [a] t :=
  .snoc .nil h

theorem System.Run.trans (h : S.Run s as t) (h' : S.Run t bs u) : S.Run s (as ++ bs) u := by
  induction h' with
  | nil => simpa only [List.append_nil] using h
  | snoc _ hs ih => simpa only [List.append_assoc] using ih.snoc hs

theorem System.Run.cons (h : S.step s a t) (h' : S.Run t as u) : S.Run s (a :: as) u :=
  (System.Run.single h).trans h'

theorem System.Run.reachable (h : S.Run s as t) (hs : S.Reachable s) : S.Reachable t := by
  induction h with
  | nil => exact hs
  | snoc _ hstep ih => exact ih.step hstep

/-- A property of the starting states that every step out of a reachable state preserves
holds in every reachable state. -/
theorem System.Reachable.invariant {I : σ → Prop} (h : S.Reachable s)
    (hinit : ∀ s, S.init s → I s)
    (hstep : ∀ s a t, S.Reachable s → I s → S.step s a t → I t) : I s := by
  induction h with
  | init hs => exact hinit _ hs
  | step hr hs ih => exact hstep _ _ _ hr ih hs

/-- A property that every step preserves survives a whole run. -/
theorem System.Run.preserves {I : σ → Prop} (h : S.Run s as t) (hs : I s)
    (hstep : ∀ s a t, I s → S.step s a t → I t) : I t := by
  induction h with
  | nil => exact hs
  | snoc _ hst ih => exact hstep _ _ _ ih hst

/-- A quantity that each step lowers by exactly what its label costs falls over a run by
what the labels cost together. -/
theorem System.Run.conserves {f : σ → Nat} {cost : α → Nat} {ok : α → Prop} (h : S.Run s as t)
    (hok : ∀ a ∈ as, ok a) (hstep : ∀ s a t, ok a → S.step s a t → f t + cost a = f s) :
    f t + (as.map cost).sum = f s := by
  induction h with
  | nil => rfl
  | @snoc as _ a _ _ hst ih =>
    have hlast := hstep _ _ _ (hok a (by simp)) hst
    have hrest := ih fun b hb => hok b (by simp [hb])
    simp only [List.map_append, List.map_cons, List.map_nil, List.sum_append, List.sum_cons,
      List.sum_nil]
    omega

theorem System.guarded_reachable (h : (S.guarded ok).Reachable s) : S.Reachable s := by
  induction h with
  | init hs => exact .init hs
  | step _ hs ih => exact ih.step hs.1

theorem System.Run.unguarded (h : (S.guarded ok).Run s as t) : S.Run s as t := by
  induction h with
  | nil => exact .nil
  | snoc _ hst ih => exact ih.snoc hst.1

/-- Where a property is kept by exactly the steps that meet a condition, a run keeps it if
and only if all of its steps meet that condition. -/
theorem System.Run.guarded_iff {I : σ → Prop} {ok : σ → α → σ → Prop} (h : S.Run s as t)
    (hr : S.Reachable s) (hs : I s)
    (hstep : ∀ s a t, S.Reachable s → S.step s a t → (I t ↔ I s ∧ ok s a t)) :
    I t ↔ (S.guarded ok).Run s as t := by
  constructor
  · intro ht
    induction h with
    | nil => exact .nil
    | snoc hrun hst ih =>
      obtain ⟨hgood, hok⟩ := (hstep _ _ _ (hrun.reachable hr) hst).1 ht
      exact (ih hgood).snoc ⟨hst, hok⟩
  · intro hrun
    have hboth := hrun.preserves (I := fun s => S.Reachable s ∧ I s) ⟨hr, hs⟩
      fun s a t hi hst => ⟨hi.1.step hst.1, (hstep s a t hi.1 hst.1).2 ⟨hi.2, hst.2⟩⟩
    exact hboth.2

/-- Where from good states exactly the steps that meet a condition lead to good ones, the
runs through good states are the runs of such steps. -/
theorem System.guarded_run_iff {I : σ → Prop} {ok : σ → α → σ → Prop} (hr : S.Reachable s)
    (hs : I s)
    (hstep : ∀ s a t, S.Reachable s → I s → S.step s a t → (I t ↔ ok s a t)) :
    (S.guarded fun _ _ t => I t).Run s as t ↔ (S.guarded ok).Run s as t := by
  constructor
  · intro hrun
    have hboth : S.Reachable t ∧ I t ∧ (S.guarded ok).Run s as t := by
      induction hrun with
      | nil => exact ⟨hr, hs, .nil⟩
      | snoc _ hst ih =>
        obtain ⟨hreach, hgood, hok⟩ := ih
        exact ⟨hreach.step hst.1, hst.2,
          hok.snoc ⟨hst.1, (hstep _ _ _ hreach hgood hst.1).1 hst.2⟩⟩
    exact hboth.2.2
  · intro hrun
    have hboth : S.Reachable t ∧ I t ∧ (S.guarded fun _ _ t => I t).Run s as t := by
      induction hrun with
      | nil => exact ⟨hr, hs, .nil⟩
      | snoc _ hst ih =>
        obtain ⟨hreach, hgood, hok⟩ := ih
        have hnext := (hstep _ _ _ hreach hgood hst.1).2 hst.2
        exact ⟨hreach.step hst.1, hnext, hok.snoc ⟨hst.1, hnext⟩⟩
    exact hboth.2.2

end BrowserServe.Library
