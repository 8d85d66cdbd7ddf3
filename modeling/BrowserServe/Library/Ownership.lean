import BrowserServe.Library.Program
import Mathlib.Data.Finset.Basic

namespace BrowserServe.Library
set_option autoImplicit true

variable {Op : Type} {Answer : Op → Type}

namespace Program

/-- Code that asks only for what it may with the things it has. `Q` holds of its value and of what
it has in the end, and `D` of what it has wherever it is dropped. -/
def Owns (L : Host Op Answer ρ) (may : ρ → Op → Prop) (D : ρ → Prop) :
    Program Op Answer α → (α → ρ → Prop) → ρ → Prop
  | done a, Q, r => Q a r
  | perform op resume, Q, r => may r op ∧ (∀ r', L.drops r op r' → D r') ∧
    ∀ answer r', L.does r op answer r' → (resume answer).Owns L may D Q r'

variable {L : Host Op Answer ρ} {may : ρ → Op → Prop} {D : ρ → Prop} {r : ρ}

/-- The rule for a sequence: the second part starts with what the first part has in the end. -/
theorem Owns.bind {p : Program Op Answer α} {f : α → Program Op Answer β} {Q : α → ρ → Prop}
    {R : β → ρ → Prop} (h : p.Owns L may D Q r)
    (hrest : ∀ a r', Q a r' → (f a).Owns L may D R r') : (p >>= f).Owns L may D R r := by
  induction p generalizing r with
  | done a => exact hrest a r h
  | perform op resume ih =>
    obtain ⟨hmay, hdrop, hdo⟩ := h
    exact ⟨hmay, hdrop, fun answer r' hdoes => ih answer (hdo answer r' hdoes)⟩

theorem owns_ask {op : Op} {Q : Answer op → ρ → Prop} (hmay : may r op)
    (hdrop : ∀ r', L.drops r op r' → D r')
    (hdo : ∀ answer r', L.does r op answer r' → Q answer r') :
    (ask op).Owns L may D Q r :=
  ⟨hmay, hdrop, hdo⟩

end Program

/-- Each of the things hangs on one of them. -/
def Anchored (anchor : θ → θ → Prop) (r : Finset θ) : Prop := ∀ x ∈ r, ∃ k ∈ r, anchor x k

/-- What hangs on a thing of one side is none of the other side's. -/
theorem Anchored.notMem {anchor : θ → θ → Prop} {r rest : Finset θ} (h : Anchored anchor rest)
    (hunique : ∀ x k k', anchor x k → anchor x k' → k = k') (hapart : Disjoint r rest)
    (hx : ∃ k ∈ r, anchor x k) : x ∉ rest := by
  intro hmem
  obtain ⟨k, hk, hanchor⟩ := hx
  obtain ⟨k', hk', hanchor'⟩ := h x hmem
  cases hunique x k k' hanchor hanchor'
  exact Finset.disjoint_left.1 hapart hk hk'

variable [DecidableEq θ]

/-- A host on which what an operation does to all things is what it does to those of its caller,
who may ask for it with them. -/
structure Host.Divides (H : Host Op Answer σ) (held : σ → Finset θ) (I : σ → Prop)
    (anchor : θ → θ → Prop) (L : Host Op Answer (Finset θ)) (may : Finset θ → Op → Prop) :
    Prop where
  does : ∀ s op answer t r rest, I s → held s = r ∪ rest → Disjoint r rest → Anchored anchor r →
    Anchored anchor rest → may r op → H.does s op answer t →
      I t ∧ ∃ r', L.does r op answer r' ∧ held t = r' ∪ rest ∧ Disjoint r' rest ∧ Anchored anchor r'
  drops : ∀ s op t r rest, I s → held s = r ∪ rest → Disjoint r rest → Anchored anchor r →
    Anchored anchor rest → may r op → H.drops s op t →
      I t ∧ ∃ r', L.drops r op r' ∧ held t = r' ∪ rest ∧ Disjoint r' rest ∧ Anchored anchor r'

theorem System.Run.eq_of_nil {S : System σ α} (h : S.Run s [] t) : s = t := by
  generalize hlabels : ([] : List α) = labels at h
  cases h with
  | nil => rfl
  | snoc _ _ => exact absurd hlabels.symm (by simp)

namespace Calls

/-- The things of a host, divided between the calls that run on it. -/
structure Shared (held : σ → Finset θ) (anchor : θ → θ → Prop) (L : Host Op Answer (Finset θ))
    (may : Finset θ → Op → Prop) (D : Finset θ → Prop) (Q : α → Finset θ → Prop)
    (s : Calls Op Answer α σ) (owned : Nat → Finset θ) : Prop where
  held : ∀ x, x ∈ held s.host ↔ ∃ i, x ∈ owned i
  apart : ∀ i j, i ≠ j → Disjoint (owned i) (owned j)
  anchored : ∀ i, Anchored anchor (owned i)
  uncalled : ∀ i, s.tasks.length ≤ i → owned i = ∅
  running : ∀ (i : Nat) (p : Program Op Answer α), s.tasks[i]? = some (some p) →
    p.Owns L may D Q (owned i)
  dropped : ∀ i, s.tasks[i]? = some none → D (owned i)

variable {H : Host Op Answer σ} {made : Program Op Answer α → Prop} {init I : σ → Prop}
  {s t : Calls Op Answer α σ} {held : σ → Finset θ} {anchor : θ → θ → Prop}
  {L : Host Op Answer (Finset θ)} {may : Finset θ → Op → Prop} {D : Finset θ → Prop}
  {Q : α → Finset θ → Prop} {owned : Nat → Finset θ}

theorem Shared.split (h : Shared held anchor L may D Q s owned) (i : Nat) :
    held s.host = owned i ∪ (held s.host \ owned i) ∧ Disjoint (owned i) (held s.host \ owned i) ∧
      Anchored anchor (held s.host \ owned i) ∧
      ∀ j, i ≠ j → owned j ⊆ held s.host \ owned i := by
  have hothers : ∀ j, i ≠ j → owned j ⊆ held s.host \ owned i := by
    intro j hij x hx
    have hnot : x ∉ owned i := fun hi => Finset.disjoint_left.1 (h.apart i j hij) hi hx
    exact Finset.mem_sdiff.2 ⟨(h.held x).2 ⟨j, hx⟩, hnot⟩
  refine ⟨?_, Finset.disjoint_sdiff, ?_, hothers⟩
  · have hsub : owned i ⊆ held s.host := fun x hx => (h.held x).2 ⟨i, hx⟩
    exact (Finset.union_sdiff_of_subset hsub).symm
  · intro x hx
    obtain ⟨hheld, hnot⟩ := Finset.mem_sdiff.1 hx
    obtain ⟨j, hj⟩ := (h.held x).1 hheld
    have hij : i ≠ j := fun heq => hnot (heq ▸ hj)
    obtain ⟨k, hk, hanchor⟩ := h.anchored j x hj
    exact ⟨k, hothers j hij hk, hanchor⟩

/-- One of the calls goes on with other things, and the rest of them are as they were. -/
theorem Shared.set (h : Shared held anchor L may D Q s owned) {r : Finset θ} {host : σ}
    {task : Option (Program Op Answer α)} (hlt : i < s.tasks.length)
    (hheld : held host = r ∪ (held s.host \ owned i)) (hapart : Disjoint r (held s.host \ owned i))
    (hanchored : Anchored anchor r) (hrunning : ∀ p, task = some p → p.Owns L may D Q r)
    (hdropped : task = none → D r) :
    Shared held anchor L may D Q ⟨host, s.tasks.set i task⟩ (Function.update owned i r) := by
  obtain ⟨hsplit, hdisj, _, hothers⟩ := h.split i
  have hself : (s.tasks.set i task)[i]? = some task := List.getElem?_set_self hlt
  have hother : ∀ j, i ≠ j → (s.tasks.set i task)[j]? = s.tasks[j]? := fun j hij =>
    List.getElem?_set_ne hij
  constructor
  case held =>
    intro x
    rw [hheld, Finset.mem_union]
    constructor
    · rintro (hx | hx)
      · exact ⟨i, by rwa [Function.update_self]⟩
      · obtain ⟨hin, hnot⟩ := Finset.mem_sdiff.1 hx
        obtain ⟨j, hj⟩ := (h.held x).1 hin
        have hij : j ≠ i := fun heq => hnot (heq ▸ hj)
        exact ⟨j, by rwa [Function.update_of_ne hij]⟩
    · rintro ⟨j, hj⟩
      by_cases hij : j = i
      · subst hij
        rw [Function.update_self] at hj
        exact .inl hj
      · rw [Function.update_of_ne hij] at hj
        exact .inr (hothers j (Ne.symm hij) hj)
  case apart =>
    intro j k hjk
    by_cases hj : j = i
    · subst hj
      rw [Function.update_self, Function.update_of_ne (Ne.symm hjk)]
      exact hapart.mono_right (hothers k hjk)
    · by_cases hk : k = i
      · subst hk
        rw [Function.update_self, Function.update_of_ne hj]
        exact (hapart.mono_right (hothers j (Ne.symm hj))).symm
      · rw [Function.update_of_ne hj, Function.update_of_ne hk]
        exact h.apart j k hjk
  case anchored =>
    intro j
    by_cases hj : j = i
    · subst hj
      rw [Function.update_self]
      exact hanchored
    · rw [Function.update_of_ne hj]
      exact h.anchored j
  case uncalled =>
    intro j hj
    rw [List.length_set] at hj
    have hij : j ≠ i := fun heq => absurd (heq ▸ hj) (Nat.not_le.2 hlt)
    rw [Function.update_of_ne hij]
    exact h.uncalled j hj
  case running =>
    intro j p hp
    by_cases hj : j = i
    · subst hj
      rw [Function.update_self]
      rw [hself] at hp
      exact hrunning p (Option.some.inj hp)
    · rw [Function.update_of_ne hj]
      rw [hother j (Ne.symm hj)] at hp
      exact h.running j p hp
  case dropped =>
    intro j hp
    by_cases hj : j = i
    · subst hj
      rw [Function.update_self]
      rw [hself] at hp
      exact hdropped (Option.some.inj hp)
    · rw [Function.update_of_ne hj]
      rw [hother j (Ne.symm hj)] at hp
      exact h.dropped j hp

omit [DecidableEq θ] in
theorem Shared.call (h : Shared held anchor L may D Q s owned) {p : Program Op Answer α}
    (hp : p.Owns L may D Q ∅) :
    Shared held anchor L may D Q { s with tasks := s.tasks ++ [some p] } owned := by
  have hnew : ∀ i task, (s.tasks ++ [some p])[i]? = some task →
      s.tasks[i]? = some task ∨ (task = some p ∧ owned i = ∅) := by
    intro i task htask
    rw [List.getElem?_append] at htask
    split at htask
    · exact .inl htask
    · rename_i hge
      rw [List.getElem?_singleton] at htask
      split at htask
      · exact .inr ⟨(Option.some.inj htask).symm, h.uncalled i (Nat.not_lt.1 hge)⟩
      · cases htask
  constructor
  case held => exact h.held
  case apart => exact h.apart
  case anchored => exact h.anchored
  case uncalled =>
    intro i hi
    apply h.uncalled i
    rw [List.length_append] at hi
    exact Nat.le_of_add_right_le hi
  case running =>
    intro i q hq
    rcases hnew i (some q) hq with hold | ⟨heq, hempty⟩
    · exact h.running i q hold
    · cases heq
      rw [hempty]
      exact hp
  case dropped =>
    intro i hi
    rcases hnew i none hi with hold | ⟨heq, _⟩
    · exact h.dropped i hold
    · cases heq

/-- One step of calls that share a host: the things stay divided, and each call has what it had of
those that no operation takes away. -/
theorem Shared.step (h : Shared held anchor L may D Q s owned) (hI : I s.host)
    (hdivides : H.Divides held I anchor L may) (hmade : ∀ p, made p → p.Owns L may D Q ∅)
    (hstep : Step H made s i t) (kept : θ → Prop)
    (hdoes : ∀ r op answer r' x, L.does r op answer r' → kept x → x ∈ r → x ∈ r')
    (hdrops : ∀ r op r' x, L.drops r op r' → kept x → x ∈ r → x ∈ r') :
    I t.host ∧ ∃ owned', Shared held anchor L may D Q t owned' ∧
      ∀ j x, kept x → x ∈ owned j → x ∈ owned' j := by
  cases hstep with
  | call hcall => exact ⟨hI, owned, h.call (hmade _ hcall), fun _ _ _ hx => hx⟩
  | goesOn htask hd =>
    obtain ⟨hmay, _, hrest⟩ := h.running i _ htask
    obtain ⟨hsplit, hdisj, hanchored, _⟩ := h.split i
    obtain ⟨hI', r, hlocal, hheld, hapart, hr⟩ :=
      hdivides.does _ _ _ _ _ _ hI hsplit hdisj (h.anchored i) hanchored hmay hd
    have hlt := (List.getElem?_eq_some_iff.1 htask).1
    refine ⟨hI', _, h.set hlt hheld hapart hr ?_ ?_, ?_⟩
    · intro p hp
      cases hp
      exact hrest _ _ hlocal
    · intro hnone
      cases hnone
    · intro j x hkept hx
      by_cases hj : j = i
      · subst hj
        rw [Function.update_self]
        exact hdoes _ _ _ _ x hlocal hkept hx
      · rwa [Function.update_of_ne hj]
  | dropped htask hd =>
    obtain ⟨hmay, hdropped, _⟩ := h.running i _ htask
    obtain ⟨hsplit, hdisj, hanchored, _⟩ := h.split i
    obtain ⟨hI', r, hlocal, hheld, hapart, hr⟩ :=
      hdivides.drops _ _ _ _ _ hI hsplit hdisj (h.anchored i) hanchored hmay hd
    have hlt := (List.getElem?_eq_some_iff.1 htask).1
    refine ⟨hI', _, h.set hlt hheld hapart hr ?_ ?_, ?_⟩
    · intro p hp
      cases hp
    · intro _
      exact hdropped _ hlocal
    · intro j x hkept hx
      by_cases hj : j = i
      · subst hj
        rw [Function.update_self]
        exact hdrops _ _ _ x hlocal hkept hx
      · rwa [Function.update_of_ne hj]

omit [DecidableEq θ] in
theorem Shared.nil {s : Calls Op Answer α σ} (hheld : held s.host = ∅) (htasks : s.tasks = []) :
    Shared held anchor L may D Q s fun _ => ∅ := by
  constructor
  case held =>
    intro x
    rw [hheld]
    exact iff_of_false (Finset.notMem_empty x) fun ⟨_, hx⟩ => Finset.notMem_empty x hx
  case apart => exact fun _ _ _ => Finset.disjoint_empty_left ∅
  case anchored => exact fun _ x hx => absurd hx (Finset.notMem_empty x)
  case uncalled => exact fun _ _ => rfl
  case running =>
    intro i p hp
    rw [htasks] at hp
    cases hp
  case dropped =>
    intro i hp
    rw [htasks] at hp
    cases hp

/-- The rule for a whole run: from any moment to any later one, the things stay divided. -/
theorem Shared.run (h : Shared held anchor L may D Q s owned) (hI : I s.host)
    (hdivides : H.Divides held I anchor L may) (hmade : ∀ p, made p → p.Owns L may D Q ∅)
    (hrun : (system H made init).Run s is t) (kept : θ → Prop)
    (hdoes : ∀ r op answer r' x, L.does r op answer r' → kept x → x ∈ r → x ∈ r')
    (hdrops : ∀ r op r' x, L.drops r op r' → kept x → x ∈ r → x ∈ r') :
    I t.host ∧ ∃ owned', Shared held anchor L may D Q t owned' ∧
      ∀ j x, kept x → x ∈ owned j → x ∈ owned' j := by
  induction hrun with
  | nil => exact ⟨hI, owned, h, fun _ _ _ hx => hx⟩
  | snoc _ hstep ih =>
    obtain ⟨hI', owned', hshared, hkept⟩ := ih
    obtain ⟨hI'', owned'', hshared', hkept'⟩ :=
      hshared.step hI' hdivides hmade hstep kept hdoes hdrops
    exact ⟨hI'', owned'', hshared', fun j x hx hj => hkept' j x hx (hkept j x hx hj)⟩

theorem shared_of_reachable (h : (system H made init).Reachable s)
    (hinit : ∀ host, init host → held host = ∅ ∧ I host) (hdivides : H.Divides held I anchor L may)
    (hmade : ∀ p, made p → p.Owns L may D Q ∅) :
    I s.host ∧ ∃ owned, Shared held anchor L may D Q s owned := by
  apply System.Reachable.invariant h
  · rintro s ⟨hhost, htasks⟩
    obtain ⟨hempty, hI⟩ := hinit _ hhost
    exact ⟨hI, _, Shared.nil hempty htasks⟩
  · rintro s i t _ ⟨hI, owned, hshared⟩ hstep
    obtain ⟨hI', owned', hshared', _⟩ := hshared.step hI hdivides hmade hstep (fun _ => False)
      (fun _ _ _ _ _ _ hkept => hkept.elim) (fun _ _ _ _ _ hkept => hkept.elim)
    exact ⟨hI', owned', hshared'⟩

end Calls

end BrowserServe.Library
