import Mathlib.Data.List.Basic

namespace BrowserServe.Library
set_option autoImplicit true

section Search
variable [DecidableEq α]

/-- Where a pattern occurs first. -/
def memmem (pat bytes : List α) : Option Nat :=
  (List.range (bytes.length + 1)).find? fun i => decide (pat <+: bytes.drop i)

/-- Where the first occurrence of a pattern is over. -/
def endOf (pat bytes : List α) : Option Nat := (memmem pat bytes).map (· + pat.length)

theorem memmem_eq_some_iff {pat bytes : List α} {i : Nat} :
    memmem pat bytes = some i ↔
      i ≤ bytes.length ∧ pat <+: bytes.drop i ∧ ∀ j < i, ¬ pat <+: bytes.drop j := by
  simp only [memmem, List.find?_range_eq_some, decide_eq_true_eq, List.mem_range, Bool.not_eq_true',
    decide_eq_false_iff_not]
  constructor
  · intro ⟨hpat, hlt, hfirst⟩
    exact ⟨Nat.le_of_lt_succ hlt, hpat, hfirst⟩
  · intro ⟨hle, hpat, hfirst⟩
    exact ⟨hpat, Nat.lt_succ_of_le hle, hfirst⟩

theorem memmem_bound {pat bytes : List α} {i : Nat} (h : memmem pat bytes = some i) :
    i + pat.length ≤ bytes.length := by
  obtain ⟨hle, hpat, _⟩ := memmem_eq_some_iff.1 h
  have hlen := hpat.length_le
  rw [List.length_drop] at hlen
  omega

/-- The first occurrence depends on no more than the bytes up to its end. -/
theorem memmem_of_isPrefix {pat bytes other : List α} {i : Nat} (h : memmem pat bytes = some i)
    (hpre : bytes.take (i + pat.length) <+: other) : memmem pat other = some i := by
  have hbound := memmem_bound h
  obtain ⟨hle, hpat, hfirst⟩ := memmem_eq_some_iff.1 h
  obtain ⟨more, rfl⟩ := hpre
  have hlen : (bytes.take (i + pat.length)).length = i + pat.length := List.length_take_of_le hbound
  have hdrop (j : Nat) (hj : j ≤ i) :
      (bytes.take (i + pat.length) ++ more).drop j =
        (bytes.drop j).take (i + pat.length - j) ++ more := by
    rw [List.drop_append_of_le_length (by omega), List.drop_take]
  apply memmem_eq_some_iff.2
  refine ⟨by simp only [List.length_append, hlen]; omega, ?_, ?_⟩
  · rw [hdrop i (Nat.le_refl i), Nat.add_sub_cancel_left]
    obtain ⟨tail, htail⟩ := hpat
    rw [← htail, List.take_left]
    exact List.prefix_append _ _
  · intro j hj hocc
    apply hfirst j hj
    rw [hdrop j (Nat.le_of_lt hj)] at hocc
    have hlong : pat.length ≤ ((bytes.drop j).take (i + pat.length - j)).length := by
      rw [List.length_take_of_le (by rw [List.length_drop]; omega)]
      omega
    exact (List.prefix_of_prefix_length_le hocc (List.prefix_append _ _) hlong).trans
      (List.take_prefix _ _)

theorem memmem_of_isInfix {pat bytes : List α} (h : pat <:+: bytes) : memmem pat bytes ≠ none := by
  obtain ⟨before, after, rfl⟩ := h
  intro hnone
  simp only [memmem, List.find?_range_eq_none, decide_eq_false_iff_not, Bool.not_eq_true'] at hnone
  apply hnone before.length
  · simp only [List.length_append]
    omega
  · rw [List.append_assoc, List.drop_left]
    exact List.prefix_append _ _

theorem endOf_of_isInfix {pat bytes : List α} (h : pat <:+: bytes) : endOf pat bytes ≠ none := by
  intro hnone
  exact memmem_of_isInfix h (Option.map_eq_none_iff.1 hnone)

theorem endOf_bound {pat bytes : List α} {e : Nat} (h : endOf pat bytes = some e) :
    e ≤ bytes.length := by
  obtain ⟨i, hi, rfl⟩ := Option.map_eq_some_iff.1 h
  exact memmem_bound hi

theorem endOf_of_isPrefix {pat bytes other : List α} {e : Nat} (h : endOf pat bytes = some e)
    (hpre : bytes.take e <+: other) : endOf pat other = some e := by
  obtain ⟨i, hi, rfl⟩ := Option.map_eq_some_iff.1 h
  rw [endOf, memmem_of_isPrefix hi hpre]
  rfl

theorem endOf_append {pat bytes : List α} {e : Nat} (h : endOf pat bytes = some e)
    (more : List α) : endOf pat (bytes ++ more) = some e :=
  endOf_of_isPrefix h ((List.take_prefix _ _).trans (List.prefix_append _ _))

theorem endOf_take {pat bytes : List α} {e : Nat} (h : endOf pat bytes = some e) :
    endOf pat (bytes.take e) = some (bytes.take e).length := by
  rw [List.length_take_of_le (endOf_bound h)]
  exact endOf_of_isPrefix h List.prefix_rfl

theorem endOf_none_of_isPrefix {pat bytes other : List α} (h : endOf pat bytes = none)
    (hpre : other <+: bytes) : endOf pat other = none := by
  obtain ⟨more, rfl⟩ := hpre
  cases hother : endOf pat other with
  | none => rfl
  | some e =>
    rw [endOf_append hother more] at h
    cases h

/-- Two first parts of a stream that end with the first occurrence are one. -/
theorem endOf_unique {pat head head' rest rest' : List α} (h : endOf pat head = some head.length)
    (h' : endOf pat head' = some head'.length) (heq : head ++ rest = head' ++ rest') :
    head = head' ∧ rest = rest' := by
  have hlen : some head.length = some head'.length := by
    rw [← endOf_append h rest, ← endOf_append h' rest', heq]
  exact List.append_inj heq (Option.some.inj hlen)

end Search

/-- What has come by a time, of all that comes at one time or another. -/
def arrivals (stream : Nat → Option α) (n : Nat) : List α := (List.range n).filterMap stream

/-- `t` is the first time at which something with the property comes. -/
def ComesFirst (p : α → Bool) (stream : Nat → Option α) (t : Nat) (a : α) : Prop :=
  stream t = some a ∧ p a = true ∧ ∀ u < t, ∀ b, stream u = some b → p b = false

theorem ComesFirst.unique {stream : Nat → Option α} {p : α → Bool} {t u : Nat} {a b : α}
    (h : ComesFirst p stream t a) (h' : ComesFirst p stream u b) : t = u ∧ a = b := by
  have hle : ∀ {t u : Nat} {a b : α}, ComesFirst p stream t a → ComesFirst p stream u b →
      t ≤ u := by
    intro t u a b h h'
    apply Nat.le_of_not_lt
    intro hlt
    have hnot := h.2.2 u hlt b h'.1
    rw [h'.2.1] at hnot
    cases hnot
  have heq := Nat.le_antisymm (hle h h') (hle h' h)
  subst heq
  exact ⟨rfl, Option.some.inj (h.1.symm.trans h'.1)⟩

end BrowserServe.Library
