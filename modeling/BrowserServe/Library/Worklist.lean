import Mathlib.Algebra.Order.BigOperators.Group.List
import Mathlib.Data.Finset.Dedup
import Mathlib.Logic.Relation

namespace BrowserServe.Library
set_option autoImplicit true

/-- What a node leads to, with a list of all nodes that lead anywhere. -/
structure Links (ν : Type) where
  out : ν → List ν
  sources : List ν
  covers : ∀ p, out p ≠ [] → p ∈ sources

namespace Links
variable {ν β : Type} [DecidableEq ν]

def empty : Links ν where
  out _ := []
  sources := []
  covers _ h := absurd rfl h

def add (links : Links ν) (p child : ν) : Links ν where
  out q := if q = p then links.out q ++ [child] else links.out q
  sources := p :: links.sources
  covers q h := by
    by_cases hq : q = p
    · exact hq ▸ List.mem_cons_self
    · rw [if_neg hq] at h
      exact List.mem_cons_of_mem p (links.covers q h)

/-- The sources that are not seen yet. -/
def unseen (links : Links ν) (seen : List ν) : List ν := links.sources.filter (· ∉ seen)

omit [DecidableEq ν] in
theorem filter_length_lt {sources : List ν} {keep keep' : ν → Bool} {p : ν} (hp : p ∈ sources)
    (hkept : keep p = true) (hdropped : keep' p = false)
    (hless : ∀ q, keep' q = true → keep q = true) :
    (sources.filter keep').length < (sources.filter keep).length := by
  induction sources with
  | nil => cases hp
  | cons q rest ih =>
    have hle : (rest.filter keep').length ≤ (rest.filter keep).length :=
      (List.monotone_filter_right rest hless).length_le
    rcases List.mem_cons.mp hp with rfl | hp
    · rw [List.filter_cons_of_pos hkept, List.filter_cons_of_neg (by simp [hdropped]),
        List.length_cons]
      exact Nat.lt_succ_of_le hle
    · have hlt := ih hp
      cases hq : keep' q with
      | true =>
        rw [List.filter_cons_of_pos hq, List.filter_cons_of_pos (hless q hq), List.length_cons,
          List.length_cons]
        exact Nat.succ_lt_succ hlt
      | false =>
        rw [List.filter_cons_of_neg (by simp [hq]), List.filter_cons]
        split
        · exact Nat.lt_succ_of_lt hlt
        · exact hlt

theorem unseen_cons_le (links : Links ν) (p : ν) (seen : List ν) :
    (links.unseen (p :: seen)).length ≤ (links.unseen seen).length := by
  apply List.Sublist.length_le
  apply List.monotone_filter_right
  intro q hq
  rw [decide_eq_true_iff] at hq ⊢
  exact fun hmem => hq (List.mem_cons_of_mem p hmem)

theorem unseen_cons_lt (links : Links ν) {p : ν} {seen : List ν} (hp : p ∉ seen)
    (hout : links.out p ≠ []) :
    (links.unseen (p :: seen)).length < (links.unseen seen).length := by
  apply filter_length_lt (links.covers p hout)
  · exact decide_eq_true hp
  · exact decide_eq_false fun hnot => hnot List.mem_cons_self
  · intro q hq
    rw [decide_eq_true_iff] at hq ⊢
    exact fun hmem => hq (List.mem_cons_of_mem p hmem)

/-- The stack with what a node leads to on top, the last first. -/
def extend (links : Links ν) (p : ν) (stack : List ν) : List ν := (links.out p).reverse ++ stack

/-- Visits what a stack leads to, the last that was pushed first, and nothing twice. -/
def traverse (links : Links ν) (visit : β → ν → β) (acc : β) (seen : List ν) : List ν → β
  | [] => acc
  | p :: stack =>
    if p ∈ seen then traverse links visit acc seen stack
    else traverse links visit (visit acc p) (p :: seen) (links.extend p stack)
termination_by stack => ((links.unseen seen).length, stack.length)
decreasing_by
  · exact Prod.Lex.right _ (Nat.lt_succ_self _)
  · rename_i hp
    by_cases hout : links.out p = []
    · rw [extend, hout]
      rcases Nat.lt_or_eq_of_le (links.unseen_cons_le p seen) with hlt | heq
      · exact Prod.Lex.left _ _ hlt
      · rw [heq]
        exact Prod.Lex.right _ (Nat.lt_succ_self _)
    · exact Prod.Lex.left _ _ (links.unseen_cons_lt hp hout)

def Reaches (links : Links ν) : ν → ν → Prop := Relation.ReflTransGen fun p q => q ∈ links.out p

/-- What a traversal visits: each node once that the stack leads to and that is not seen. -/
structure Visits (links : Links ν) (seen stack visited : List ν) : Prop where
  nodup : visited.Nodup
  fresh : ∀ p ∈ visited, p ∉ seen
  reached : ∀ p ∈ visited, ∃ s ∈ stack, links.Reaches s p
  started : ∀ s ∈ stack, s ∈ seen ∨ s ∈ visited
  closed : ∀ p ∈ visited, ∀ q ∈ links.out p, q ∈ seen ∨ q ∈ visited

theorem traverse_visits (links : Links ν) (visit : β → ν → β) (acc : β) (seen stack : List ν) :
    ∃ visited, links.traverse visit acc seen stack = visited.foldl visit acc ∧
      links.Visits seen stack visited := by
  fun_induction traverse links visit acc seen stack with
  | case1 acc seen =>
    refine ⟨[], rfl, .nil, ?_, ?_, ?_, ?_⟩
    · exact fun p hp => absurd hp List.not_mem_nil
    · exact fun p hp => absurd hp List.not_mem_nil
    · exact fun s hs => absurd hs List.not_mem_nil
    · exact fun p hp => absurd hp List.not_mem_nil
  | case2 acc seen p stack hseen ih =>
    obtain ⟨visited, hfold, h⟩ := ih
    refine ⟨visited, hfold, h.nodup, h.fresh, ?_, ?_, h.closed⟩
    · intro q hq
      obtain ⟨s, hs, hreach⟩ := h.reached q hq
      exact ⟨s, List.mem_cons_of_mem p hs, hreach⟩
    · intro s hs
      rcases List.mem_cons.mp hs with rfl | hs
      · exact .inl hseen
      · exact h.started s hs
  | case3 acc seen p stack hseen ih =>
    obtain ⟨visited, hfold, h⟩ := ih
    have hmove {q : ν} (hq : q ∈ p :: seen ∨ q ∈ visited) : q ∈ seen ∨ q ∈ p :: visited := by
      rcases hq with hq | hq
      · rcases List.mem_cons.mp hq with rfl | hq
        · exact .inr List.mem_cons_self
        · exact .inl hq
      · exact .inr (List.mem_cons_of_mem p hq)
    refine ⟨p :: visited, hfold, ?_, ?_, ?_, ?_, ?_⟩
    · exact List.nodup_cons.mpr ⟨fun hp => h.fresh p hp List.mem_cons_self, h.nodup⟩
    · intro q hq
      rcases List.mem_cons.mp hq with rfl | hq
      · exact hseen
      · exact fun hmem => h.fresh q hq (List.mem_cons_of_mem p hmem)
    · intro q hq
      rcases List.mem_cons.mp hq with rfl | hq
      · exact ⟨q, List.mem_cons_self, .refl⟩
      · obtain ⟨s, hs, hreach⟩ := h.reached q hq
        rcases List.mem_append.mp hs with hs | hs
        · exact ⟨p, List.mem_cons_self, .head (List.mem_reverse.mp hs) hreach⟩
        · exact ⟨s, List.mem_cons_of_mem p hs, hreach⟩
    · intro s hs
      rcases List.mem_cons.mp hs with rfl | hs
      · exact .inr List.mem_cons_self
      · exact hmove (h.started s (List.mem_append_right _ hs))
    · intro q hq child hchild
      rcases List.mem_cons.mp hq with rfl | hq
      · exact hmove (h.started child (List.mem_append_left _ (List.mem_reverse.mpr hchild)))
      · exact hmove (h.closed q hq child hchild)

omit [DecidableEq ν] in
/-- From one node on a traversal visits what that reaches. -/
theorem Visits.mem_iff {links : Links ν} {root : ν} (h : links.Visits [] [root] visited) (p : ν) :
    p ∈ visited ↔ links.Reaches root p := by
  constructor
  · intro hp
    obtain ⟨s, hs, hreach⟩ := h.reached p hp
    cases List.mem_singleton.mp hs
    exact hreach
  · intro hreach
    induction hreach with
    | refl => exact (h.started root (List.mem_singleton_self root)).resolve_left List.not_mem_nil
    | tail _ hchild ih => exact (h.closed _ ih _ hchild).resolve_left List.not_mem_nil

end Links

end BrowserServe.Library
