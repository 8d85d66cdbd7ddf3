import Mathlib.Data.List.Basic

namespace BrowserServe.Library
set_option autoImplicit true

/-- A setting that a variable overrides: where it stands, and how its value is read. -/
structure Override (κ ν ε σ : Type) where
  key : κ
  Value : Type
  get : σ → Value
  set : Value → σ → σ
  read : ν → Except ε Value
  get_set : ∀ a s, get (set a s) = a

namespace Override
variable {κ ν ε σ : Type}

def run (o : Override κ ν ε σ) (env : κ → Option ν) (s : σ) : Except ε σ :=
  match env o.key with
  | none => .ok s
  | some v => (o.read v).map fun a => o.set a s

/-- The settings overridden one after another, up to a value that cannot be read. -/
def applyAll (env : κ → Option ν) : List (Override κ ν ε σ) → σ → Except ε σ
  | [], s => .ok s
  | o :: os, s =>
    match o.run env s with
    | .error e => .error e
    | .ok s => applyAll env os s

/-- Two settings neither of which is a part of the other. -/
structure Apart (o p : Override κ ν ε σ) : Prop where
  left : ∀ a s, o.get (p.set a s) = o.get s
  right : ∀ a s, p.get (o.set a s) = p.get s

/-- The variable is not set, or its value can be read. -/
def Reads (o : Override κ ν ε σ) (env : κ → Option ν) : Prop :=
  ∀ v, env o.key = some v → ∃ a, o.read v = .ok a

/-- The setting is what its variable says, or what it was. -/
def Holds (o : Override κ ν ε σ) (env : κ → Option ν) (s t : σ) : Prop :=
  match env o.key with
  | none => o.get t = o.get s
  | some v => o.read v = .ok (o.get t)

variable {env env' : κ → Option ν} {o : Override κ ν ε σ} {os : List (Override κ ν ε σ)} {s t : σ}

theorem run_error {e : ε} (h : o.run env s = .error e) :
    ∃ v, env o.key = some v ∧ o.read v = .error e := by
  unfold run at h
  cases hv : env o.key with
  | none =>
    rw [hv] at h
    cases h
  | some v =>
    rw [hv] at h
    refine ⟨v, rfl, ?_⟩
    cases hread : o.read v with
    | error e' =>
      simp only [hread] at h
      cases h
      rfl
    | ok a =>
      simp only [hread] at h
      cases h

theorem run_holds (h : o.run env s = .ok t) : o.Holds env s t := by
  unfold run at h
  unfold Holds
  cases hv : env o.key with
  | none =>
    rw [hv] at h
    cases h
    rfl
  | some v =>
    rw [hv] at h
    cases hread : o.read v with
    | error e =>
      simp only [hread] at h
      cases h
    | ok a =>
      simp only [hread] at h
      cases h
      exact hread.trans (congrArg Except.ok (o.get_set a s).symm)

theorem run_keeps {f : σ → γ} (hf : ∀ a s, f (o.set a s) = f s) (h : o.run env s = .ok t) :
    f t = f s := by
  unfold run at h
  cases hv : env o.key with
  | none =>
    rw [hv] at h
    cases h
    rfl
  | some v =>
    rw [hv] at h
    cases hread : o.read v with
    | error e =>
      simp only [hread] at h
      cases h
    | ok a =>
      simp only [hread] at h
      cases h
      exact hf a s

theorem applyAll_cons (h : applyAll env (o :: os) s = .ok t) :
    ∃ u, o.run env s = .ok u ∧ applyAll env os u = .ok t := by
  unfold applyAll at h
  cases hrun : o.run env s with
  | error e =>
    rw [hrun] at h
    cases h
  | ok u =>
    rw [hrun] at h
    exact ⟨u, rfl, h⟩

theorem applyAll_append {ps : List (Override κ ν ε σ)} :
    applyAll env (os ++ ps) s = applyAll env os s >>= applyAll env ps := by
  induction os generalizing s with
  | nil => rfl
  | cons o os ih =>
    cases hrun : o.run env s with
    | error e =>
      simp only [List.cons_append, applyAll, hrun]
      rfl
    | ok u =>
      simp only [List.cons_append, applyAll, hrun]
      exact ih

theorem applyAll_keeps {f : σ → γ} (hf : ∀ o ∈ os, ∀ a s, f (o.set a s) = f s)
    (h : applyAll env os s = .ok t) : f t = f s := by
  induction os generalizing s with
  | nil =>
    cases h
    rfl
  | cons o os ih =>
    obtain ⟨u, hrun, hrest⟩ := applyAll_cons h
    have hkept := ih (fun p hp => hf p (List.mem_cons_of_mem o hp)) hrest
    exact hkept.trans (run_keeps (hf o List.mem_cons_self) hrun)

/-- Settings apart from each other are each what their own variable says. -/
theorem applyAll_holds (hapart : os.Pairwise Apart) (h : applyAll env os s = .ok t) :
    ∀ o ∈ os, o.Holds env s t := by
  induction os generalizing s with
  | nil => exact fun _ ho => absurd ho List.not_mem_nil
  | cons first os ih =>
    obtain ⟨u, hrun, hrest⟩ := applyAll_cons h
    obtain ⟨hfirst, hothers⟩ := List.pairwise_cons.1 hapart
    intro o ho
    rcases List.mem_cons.1 ho with rfl | ho
    · have hheld := run_holds hrun
      have hkept : o.get t = o.get u := applyAll_keeps (fun p hp => (hfirst p hp).left) hrest
      unfold Holds at hheld ⊢
      rw [hkept]
      exact hheld
    · have hheld := ih hothers hrest o ho
      have hkept : o.get u = o.get s := run_keeps (hfirst o ho).right hrun
      unfold Holds at hheld ⊢
      rw [← hkept]
      exact hheld

/-- What a setting is to be is one value. -/
theorem Holds.unique {t' : σ} (h : o.Holds env s t) (h' : o.Holds env s t') :
    o.get t = o.get t' := by
  unfold Holds at h h'
  cases hv : env o.key with
  | none =>
    rw [hv] at h h'
    exact h.trans h'.symm
  | some v =>
    rw [hv] at h h'
    exact Except.ok.inj (h.symm.trans h')

theorem Holds.reads (h : o.Holds env s t) : o.Reads env := by
  intro v hv
  unfold Holds at h
  rw [hv] at h
  exact ⟨_, h⟩

/-- The values are read exactly when each that is set can be. -/
theorem applyAll_ok_iff : (∃ t, applyAll env os s = .ok t) ↔ ∀ o ∈ os, o.Reads env := by
  induction os generalizing s with
  | nil => exact iff_of_true ⟨s, rfl⟩ fun _ ho => absurd ho List.not_mem_nil
  | cons o os ih =>
    rw [List.forall_mem_cons]
    constructor
    · rintro ⟨t, h⟩
      obtain ⟨u, hrun, hrest⟩ := applyAll_cons h
      exact ⟨(run_holds hrun).reads, ih.1 ⟨t, hrest⟩⟩
    · rintro ⟨hreads, hothers⟩
      cases hrun : o.run env s with
      | error e =>
        obtain ⟨v, hv, hread⟩ := run_error hrun
        obtain ⟨a, ha⟩ := hreads v hv
        rw [ha] at hread
        cases hread
      | ok u =>
        unfold applyAll
        rw [hrun]
        exact ih.2 hothers

end Override

end BrowserServe.Library
