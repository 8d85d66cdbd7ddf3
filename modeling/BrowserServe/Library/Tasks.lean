import Mathlib.Algebra.GroupWithZero.Nat
import Mathlib.Data.List.Nodup

namespace BrowserServe.Library
set_option autoImplicit true

/-- The sum of a weight over a table of tasks. -/
def total (w : α → Nat) (tasks : List α) : Nat :=
  (tasks.map w).sum

@[simp] theorem total_nil (w : α → Nat) : total w [] = 0 := rfl

@[simp] theorem total_append (w : α → Nat) (l l' : List α) :
    total w (l ++ l') = total w l + total w l' := by
  simp only [total, List.map_append, List.sum_append]

@[simp] theorem total_cons (w : α → Nat) (a : α) (l : List α) :
    total w (a :: l) = w a + total w l := by
  simp only [total, List.map_cons, List.sum_cons]

theorem total_add (v w : α → Nat) (l : List α) :
    total (fun a => v a + w a) l = total v l + total w l := by
  induction l with
  | nil => rfl
  | cons a l ih =>
    simp only [total_cons, ih]
    omega

/-- When one task moves on, the total changes by the difference of its two weights. -/
theorem total_set (w : α → Nat) {l : List α} {i : Nat} (h : l[i]? = some a) (b : α) :
    total w (l.set i b) + w a = total w l + w b := by
  induction l generalizing i with
  | nil => simp at h
  | cons c l ih =>
    cases i with
    | zero =>
      simp only [List.getElem?_cons_zero, Option.some.injEq] at h
      subst c
      simp only [List.set_cons_zero, total_cons]
      omega
    | succ i =>
      have := ih h
      simp only [List.set_cons_succ, total_cons]
      omega

theorem total_eq_zero {w : α → Nat} {l : List α} (h : ∀ a ∈ l, w a = 0) : total w l = 0 := by
  induction l with
  | nil => rfl
  | cons a l ih =>
    rw [total_cons, h a List.mem_cons_self, ih fun b hb => h b (List.mem_cons_of_mem a hb)]

theorem weight_le_total (w : α → Nat) {l : List α} (h : a ∈ l) : w a ≤ total w l := by
  induction h with
  | head l =>
    rw [total_cons]
    omega
  | tail b _ ih =>
    rw [total_cons]
    omega

theorem total_le {v w : α → Nat} (l : List α) (h : ∀ a, v a ≤ w a) : total v l ≤ total w l := by
  induction l with
  | nil => exact Nat.le_refl _
  | cons a l ih =>
    simp only [total_cons]
    exact Nat.add_le_add (h a) ih

theorem total_lt {v w : α → Nat} {l : List α} (h : ∀ a, v a ≤ w a) (ha : a ∈ l)
    (hlt : v a < w a) : total v l < total w l := by
  induction ha with
  | head l =>
    simp only [total_cons]
    exact Nat.add_lt_add_of_lt_of_le hlt (total_le l h)
  | tail b _ ih =>
    simp only [total_cons]
    exact Nat.add_lt_add_of_le_of_lt (h b) ih

theorem exists_of_total_pos {w : α → Nat} {l : List α} (h : 0 < total w l) :
    ∃ a ∈ l, 0 < w a := by
  by_contra hnone
  have hzero := total_eq_zero (w := w) (l := l) fun a ha =>
    Nat.eq_zero_of_not_pos fun hpos => hnone ⟨a, ha, hpos⟩
  omega

/-- An entry of a table after one task moved on is the new one or an old one elsewhere. -/
theorem getElem?_set_cases {l : List α} {i j : Nat} (h : (l.set i b)[j]? = some c) :
    j = i ∧ c = b ∨ j ≠ i ∧ l[j]? = some c := by
  rw [List.getElem?_set] at h
  by_cases hij : i = j
  · subst j
    rw [if_pos rfl] at h
    by_cases hi : i < l.length
    · rw [if_pos hi] at h
      exact .inl ⟨rfl, (Option.some.inj h).symm⟩
    · rw [if_neg hi] at h
      cases h
  · rw [if_neg hij] at h
    exact .inr ⟨Ne.symm hij, h⟩

theorem getElem?_append_cases {l : List α} {j : Nat} (h : (l ++ [b])[j]? = some c) :
    j = l.length ∧ c = b ∨ l[j]? = some c := by
  by_cases hj : j < l.length
  · rw [List.getElem?_append_left hj] at h
    exact .inr h
  · rw [List.getElem?_append_right (Nat.le_of_not_lt hj)] at h
    cases hk : j - l.length with
    | zero =>
      rw [hk] at h
      exact .inl ⟨by omega, (Option.some.inj h).symm⟩
    | succ k =>
      rw [hk] at h
      cases h

/-- When one task moves on, a table still has what it had, unless it was that task. -/
theorem exists_mem_set {P : α → Prop} {l : List α} {i : Nat} (h : l[i]? = some a) (hab : P a → P b)
    (he : ∃ c ∈ l, P c) : ∃ c ∈ l.set i b, P c := by
  obtain ⟨c, hc, hp⟩ := he
  obtain ⟨j, hj⟩ := List.getElem?_of_mem hc
  by_cases hij : i = j
  · subst j
    rw [h] at hj
    cases hj
    exact ⟨b, List.mem_set (List.getElem?_eq_some_iff.1 h).1 b, hab hp⟩
  · refine ⟨c, ?_, hp⟩
    apply List.mem_of_getElem? (i := j)
    rw [List.getElem?_set_ne hij]
    exact hj

theorem mem_set_of_ne {l : List α} {i : Nat} (h : l[i]? = some a) (hc : c ∈ l) (hne : a ≠ c) :
    c ∈ l.set i b := by
  obtain ⟨_, hmem, rfl⟩ := exists_mem_set (P := (· = c)) (b := b) h (fun he => (hne he).elim)
    ⟨c, hc, rfl⟩
  exact hmem

theorem forall_mem_set {P : α → Prop} {l : List α} {i : Nat} (hb : P b) (hl : ∀ c ∈ l, P c) :
    ∀ c ∈ l.set i b, P c := by
  intro c hc
  cases List.mem_or_eq_of_mem_set hc with
  | inl hc => exact hl c hc
  | inr hc => exact hc ▸ hb

theorem forall_mem_append_single {P : α → Prop} {l : List α} (hb : P b) (hl : ∀ c ∈ l, P c) :
    ∀ c ∈ l ++ [b], P c := by
  intro c hc
  cases List.mem_append.1 hc with
  | inl hc => exact hl c hc
  | inr hc => exact List.mem_singleton.1 hc ▸ hb

theorem map_set_eq {l : List α} {i : Nat} (f : α → β) (h : l[i]? = some a) (hf : f b = f a) :
    (l.set i b).map f = l.map f := by
  rw [List.map_set, hf]
  apply List.ext_getElem?
  intro j
  by_cases hij : i = j
  · subst j
    rw [List.getElem?_set_self (by simpa using (List.getElem?_eq_some_iff.1 h).1)]
    simp [h]
  · rw [List.getElem?_set_ne hij]

theorem nodup_map_append {l : List α} (f : α → β) (h : (l.map f).Nodup) (hb : f b ∉ l.map f) :
    ((l ++ [b]).map f).Nodup := by
  rw [List.map_append, List.map_singleton, ← List.concat_eq_append]
  exact h.concat hb

section Count
variable {α : Type} [DecidableEq α]

/-- Some task of a table holds a thing if and only if the table's count of it is positive. -/
theorem total_count_pos {f : β → Option α} {l : List β} {x : α} :
    0 < total (fun b => (f b).toList.count x) l ↔ ∃ b ∈ l, f b = some x := by
  constructor
  · intro h
    obtain ⟨b, hb, hpos⟩ := exists_of_total_pos h
    exact ⟨b, hb, Option.mem_toList.1 (List.count_pos_iff.1 hpos)⟩
  · intro h
    obtain ⟨b, hb, hx⟩ := h
    have hle := weight_le_total (fun b => (f b).toList.count x) hb
    simp only [hx, Option.toList_some, List.count_singleton_self] at hle
    exact hle

/-- Erasing an element of a list takes exactly one of its occurrences away. -/
theorem count_erase_add {l : List α} (h : y ∈ l) (x : α) :
    (l.erase y).count x + [y].count x = l.count x := by
  have hperm := (List.perm_cons_erase h).count_eq x
  simp only [List.count_cons, List.count_nil] at hperm ⊢
  omega

end Count

end BrowserServe.Library
