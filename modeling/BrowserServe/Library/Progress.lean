import BrowserServe.Library.Transition

namespace BrowserServe.Library
set_option autoImplicit true

variable {S : System σ α}

/-- Where every step lowers a measure, a run is no longer than the measure at its start. -/
theorem System.Run.length_le {I : σ → Prop} {f : σ → Nat} (h : S.Run s as t) (hs : I s)
    (hstep : ∀ s a t, I s → S.step s a t → I t ∧ f t < f s) : as.length + f t ≤ f s ∧ I t := by
  induction h with
  | nil => exact ⟨by simp, hs⟩
  | snoc _ hst ih =>
    obtain ⟨hle, hinv⟩ := ih
    obtain ⟨hnext, hlt⟩ := hstep _ _ _ hinv hst
    refine ⟨?_, hnext⟩
    rw [List.length_append, List.length_singleton]
    omega

/-- There every state comes to one that no step leaves. -/
theorem System.exists_stuck {I : σ → Prop} {f : σ → Nat} (hs : I s)
    (hstep : ∀ s a t, I s → S.step s a t → I t ∧ f t < f s) :
    ∃ as t, S.Run s as t ∧ ∀ a u, ¬ S.step t a u := by
  induction hn : f s using Nat.strongRecOn generalizing s with
  | ind n ih =>
    by_cases hstuck : ∀ a u, ¬ S.step s a u
    · exact ⟨[], s, .nil, hstuck⟩
    · simp only [not_forall, not_not] at hstuck
      obtain ⟨a, u, hu⟩ := hstuck
      obtain ⟨hinv, hlt⟩ := hstep _ _ _ hs hu
      obtain ⟨as, t, hrun, ht⟩ := ih (f u) (hn ▸ hlt) hinv rfl
      exact ⟨a :: as, t, .cons hu hrun, ht⟩

end BrowserServe.Library
