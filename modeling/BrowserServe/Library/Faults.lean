import BrowserServe.Library.FileTree
import Mathlib.Data.List.Nodup

namespace BrowserServe.Library
set_option autoImplicit true

/-- One operation of a job, with what it puts in place where it succeeds. -/
structure Step (Op π : Type) where
  op : Op
  puts : List π

/-- Which operations fail, and what one that fails has put in place. -/
structure Faults (Op π ε : Type) where
  fails : Op → Option ε
  leaves : Op → List π

section Outcome
variable {Op π ε : Type} {faults : Faults Op π ε}

def putsOf (steps : List (Step Op π)) : List π := steps.flatMap Step.puts

/-- What a job has put in place when it is through, or has failed. -/
def Faults.outcome (faults : Faults Op π ε) : List (Step Op π) → List π × Except ε Unit
  | [] => ([], .ok ())
  | step :: steps =>
    match faults.fails step.op with
    | some e => (faults.leaves step.op, .error e)
    | none => (step.puts ++ (faults.outcome steps).1, (faults.outcome steps).2)

@[simp] theorem putsOf_nil : putsOf ([] : List (Step Op π)) = [] := rfl

@[simp] theorem putsOf_cons (step : Step Op π) (steps : List (Step Op π)) :
    putsOf (step :: steps) = step.puts ++ putsOf steps := rfl

@[simp] theorem putsOf_append (steps more : List (Step Op π)) :
    putsOf (steps ++ more) = putsOf steps ++ putsOf more := List.flatMap_append

theorem Faults.outcome_cons (h : faults.fails step.op = none) (steps : List (Step Op π)) :
    faults.outcome (step :: steps) =
      (step.puts ++ (faults.outcome steps).1, (faults.outcome steps).2) := by
  rw [outcome, h]

theorem Faults.outcome_failed (h : faults.fails step.op = some e) (steps : List (Step Op π)) :
    faults.outcome (step :: steps) = (faults.leaves step.op, .error e) := by
  rw [outcome, h]

/-- A job goes on with a second part where the first is through. -/
theorem Faults.outcome_append (faults : Faults Op π ε) (steps more : List (Step Op π)) :
    faults.outcome (steps ++ more) =
      match faults.outcome steps with
      | (made, .ok ()) => (made ++ (faults.outcome more).1, (faults.outcome more).2)
      | (made, .error e) => (made, .error e) := by
  induction steps with
  | nil => rfl
  | cons step steps ih =>
    rw [List.cons_append, outcome, outcome]
    cases hfails : faults.fails step.op with
    | some e => rfl
    | none =>
      dsimp only
      rw [ih]
      cases hsteps : faults.outcome steps with
      | mk made result =>
        cases result with
        | ok _ => simp only [List.append_assoc]
        | error e => rfl

theorem Faults.outcome_of_none {steps : List (Step Op π)}
    (h : ∀ step ∈ steps, faults.fails step.op = none) :
    faults.outcome steps = (putsOf steps, .ok ()) := by
  induction steps with
  | nil => rfl
  | cons step steps ih =>
    rw [outcome_cons (h step List.mem_cons_self),
      ih fun other hother => h other (List.mem_cons_of_mem _ hother)]
    rfl

theorem Faults.outcome_of_stop {done rest : List (Step Op π)} {step : Step Op π}
    (hdone : ∀ other ∈ done, faults.fails other.op = none) (hstep : faults.fails step.op = some e) :
    faults.outcome (done ++ step :: rest) =
      (putsOf done ++ faults.leaves step.op, .error e) := by
  rw [outcome_append, outcome_of_none hdone]
  dsimp only
  rw [outcome_failed hstep]

/-- No operation of a job fails, or there is a first one that does. -/
theorem Faults.first_failure (faults : Faults Op π ε) (steps : List (Step Op π)) :
    (∀ step ∈ steps, faults.fails step.op = none) ∨
      ∃ done step rest e, steps = done ++ step :: rest ∧
        (∀ other ∈ done, faults.fails other.op = none) ∧ faults.fails step.op = some e := by
  induction steps with
  | nil => exact .inl fun step hstep => absurd hstep List.not_mem_nil
  | cons step steps ih =>
    cases hfails : faults.fails step.op with
    | some e =>
      exact .inr ⟨[], step, steps, e, rfl, fun other hother => absurd hother List.not_mem_nil,
        hfails⟩
    | none =>
      cases ih with
      | inl hall =>
        left
        intro other hother
        cases hother with
        | head => exact hfails
        | tail _ hother => exact hall other hother
      | inr hfirst =>
        obtain ⟨done, stop, rest, e, rfl, hdone, hstop⟩ := hfirst
        right
        refine ⟨step :: done, stop, rest, e, rfl, fun other hother => ?_, hstop⟩
        cases hother with
        | head => exact hfails
        | tail _ hother => exact hdone other hother

end Outcome

namespace FileTree
variable {ν β : Type} [DecidableEq ν]

/-- The tree with some things put in it, one after another. -/
def place (puts : List (List ν × FileKind β)) (tree : FileTree ν β) : FileTree ν β :=
  puts.foldl (fun tree put => tree.set put.1 put.2) tree

@[simp] theorem place_nil (tree : FileTree ν β) : place [] tree = tree := rfl

@[simp] theorem place_cons (put : List ν × FileKind β) (puts : List (List ν × FileKind β))
    (tree : FileTree ν β) : place (put :: puts) tree = place puts (tree.set put.1 put.2) := rfl

theorem place_append (puts more : List (List ν × FileKind β)) (tree : FileTree ν β) :
    place (puts ++ more) tree = place more (place puts tree) := List.foldl_append

theorem place_of_not_mem {puts : List (List ν × FileKind β)} {q : List ν}
    (h : ∀ put ∈ puts, put.1 ≠ q) (tree : FileTree ν β) : place puts tree q = tree q := by
  induction puts generalizing tree with
  | nil => rfl
  | cons put puts ih =>
    rw [place_cons, ih fun other hother => h other (List.mem_cons_of_mem _ hother)]
    exact set_ne (Ne.symm (h put List.mem_cons_self)) _ _

/-- Where each place is used once, a tree has at each what was put there. -/
theorem place_of_mem {puts : List (List ν × FileKind β)} (hnodup : (puts.map Prod.fst).Nodup)
    {q : List ν} (h : (q, kind) ∈ puts) (tree : FileTree ν β) : place puts tree q = some kind := by
  induction puts generalizing tree with
  | nil => cases h
  | cons put puts ih =>
    rw [List.map_cons, List.nodup_cons] at hnodup
    rw [place_cons]
    cases h with
    | head =>
      rw [place_of_not_mem]
      · exact set_self _ _ _
      · intro other hother heq
        exact hnodup.1 (List.mem_map.mpr ⟨other, hother, heq⟩)
    | tail _ h => exact ih hnodup.2 h _

theorem place_ne_none {puts : List (List ν × FileKind β)} {q : List ν}
    (h : ∃ put ∈ puts, put.1 = q) (tree : FileTree ν β) : place puts tree q ≠ none := by
  induction puts generalizing tree with
  | nil =>
    obtain ⟨put, hput, _⟩ := h
    cases hput
  | cons first puts ih =>
    rw [place_cons]
    by_cases hlater : ∃ put ∈ puts, put.1 = q
    · exact ih hlater _
    · have hfirst : first.1 = q := by
        obtain ⟨put, hput, heq⟩ := h
        cases hput with
        | head => exact heq
        | tail _ hput => exact absurd ⟨put, hput, heq⟩ hlater
      rw [place_of_not_mem fun put hput heq => hlater ⟨put, hput, heq⟩, ← hfirst, set_self]
      exact Option.some_ne_none _

/-- Of puts in places of their own, those that were begun with, and one more that may have come
out otherwise, make the same tree only if they are all the same. -/
theorem place_stopped {done rest last : List (List ν × FileKind β)}
    (hnodup : ((done ++ rest).map Prod.fst).Nodup)
    (hlast : last = [] ∨ ∃ q kind kind' more, rest = (q, kind) :: more ∧ last = [(q, kind')])
    (heq : place (done ++ last) (fun _ => none) = place (done ++ rest) (fun _ => none)) :
    last = rest := by
  have hpaths : ∀ put ∈ rest, ∀ other ∈ done, other.1 ≠ put.1 := by
    intro put hput other hother hsame
    rw [List.map_append, List.nodup_append] at hnodup
    exact hnodup.2.2 _ (List.mem_map_of_mem hother) _ (List.mem_map_of_mem hput) hsame
  have hput : ∀ put ∈ rest, place (done ++ last) (fun _ => none) put.1 = some put.2 := by
    intro put hput
    rw [heq]
    exact place_of_mem hnodup (List.mem_append_right done hput) _
  rcases hlast with rfl | ⟨q, kind, kind', more, rfl, rfl⟩
  · cases rest with
    | nil => rfl
    | cons put rest =>
      have hmissing := hput put List.mem_cons_self
      rw [List.append_nil, place_of_not_mem (hpaths put List.mem_cons_self)] at hmissing
      cases hmissing
  · have hkind := hput (q, kind) List.mem_cons_self
    rw [place_append, place_cons, place_nil, set_self] at hkind
    obtain rfl := Option.some.inj hkind
    cases more with
    | nil => rfl
    | cons put more =>
      have hin : put ∈ (q, kind') :: put :: more := List.mem_cons_of_mem _ List.mem_cons_self
      have hmissing := hput put hin
      rw [place_of_not_mem] at hmissing
      · cases hmissing
      · intro other hother hsame
        cases List.mem_append.mp hother with
        | inl hother => exact hpaths put hin other hother hsame
        | inr hother =>
          rw [List.mem_singleton.mp hother] at hsame
          rw [List.map_append, List.nodup_append] at hnodup
          have hhead := List.nodup_cons.mp hnodup.2.1
          exact hhead.1 (List.mem_map.mpr ⟨put, List.mem_cons_self, hsame.symm⟩)

end FileTree

end BrowserServe.Library
