import Mathlib.Algebra.Order.Group.Nat
import Mathlib.Data.Nat.Init

namespace BrowserServe.Library
set_option autoImplicit true

section Checked

/-- A product, unless it leaves the word. -/
def checkedMul (a b : UInt64) : Option UInt64 :=
  if a.toNat * b.toNat < UInt64.size then some (a * b) else none

def checkedDiv (a b : UInt64) : Option UInt64 := if b = 0 then none else some (a / b)

theorem checkedMul_eq {a b : UInt64} (h : a.toNat * b.toNat < UInt64.size) :
    ∃ c, checkedMul a b = some c ∧ c.toNat = a.toNat * b.toNat := by
  refine ⟨a * b, if_pos h, ?_⟩
  rw [UInt64.toNat_mul]
  exact Nat.mod_eq_of_lt h

theorem checkedDiv_eq {a b : UInt64} (h : b ≠ 0) :
    ∃ c, checkedDiv a b = some c ∧ c.toNat = a.toNat / b.toNat :=
  ⟨a / b, if_neg h, UInt64.toNat_div a b⟩

end Checked

section Shares

/-- How many of one size fit in a fraction of a limit, rounded down at each step. -/
def share (num den each limit : Nat) : Nat := limit / den * num / each

/-- Rounding down never lets more fit. -/
theorem share_mul_le (num den each limit : Nat) :
    den * (share num den each limit * each) ≤ num * limit := by
  have heach : share num den each limit * each ≤ limit / den * num := Nat.div_mul_le_self _ _
  have hden : limit / den * den ≤ limit := Nat.div_mul_le_self _ _
  calc den * (share num den each limit * each)
      ≤ den * (limit / den * num) := Nat.mul_le_mul_left den heach
    _ = limit / den * den * num := by rw [Nat.mul_comm, Nat.mul_right_comm]
    _ ≤ limit * num := Nat.mul_le_mul_right num hden
    _ = num * limit := Nat.mul_comm _ _

theorem share_mono (num den : Nat) (heach : each' ≤ each) (hpos : 0 < each')
    (hlimit : limit ≤ limit') : share num den each limit ≤ share num den each' limit' := by
  have hfit := Nat.mul_le_mul_right num (Nat.div_le_div_right (c := den) hlimit)
  exact Nat.div_le_div hfit heach (Nat.ne_of_gt hpos)

end Shares

section Least

/-- The least value so far and its label; a value takes the place of a greater one only. -/
def consider [LT α] [DecidableLT α] (best : α × β) (value : Option α) (label : β) : α × β :=
  match value with
  | none => best
  | some v => if v < best.1 then (v, label) else best

/-- The least of the values of the labels seen, with one label that has it. -/
structure Least [LE α] (value : β → Option α) (seen : List β) (best : α × β) : Prop where
  attained : value best.2 = some best.1
  least : ∀ label ∈ seen, ∀ v, value label = some v → best.1 ≤ v

variable [LE α] [Std.IsLinearOrder α] {value value' : β → Option α}

theorem Least.single (h : value label = some v) : Least value [label] (v, label) := by
  refine ⟨h, fun other hother w hw => ?_⟩
  obtain rfl := List.mem_singleton.1 hother
  obtain rfl := Option.some.inj (h.symm.trans hw)
  exact Std.le_refl v

theorem Least.consider [LT α] [DecidableLT α] [Std.LawfulOrderLT α]
    (h : Least value seen best) (label : β) :
    Least value (label :: seen) (consider best (value label) label) := by
  cases hv : value label with
  | none =>
    refine ⟨h.attained, fun other hother w hw => ?_⟩
    cases hother with
    | head => exact absurd (hv.symm.trans hw) (by simp)
    | tail _ hother => exact h.least other hother w hw
  | some v =>
    simp only [Library.consider]
    split
    next hlt =>
      refine ⟨hv, fun other hother w hw => ?_⟩
      cases hother with
      | head =>
        obtain rfl := Option.some.inj (hv.symm.trans hw)
        exact Std.le_refl v
      | tail _ hother => exact Std.le_trans (Std.le_of_lt hlt) (h.least other hother w hw)
    next hnot =>
      refine ⟨h.attained, fun other hother w hw => ?_⟩
      cases hother with
      | head =>
        obtain rfl := Option.some.inj (hv.symm.trans hw)
        exact Std.not_lt.1 hnot
      | tail _ hother => exact h.least other hother w hw

omit [Std.IsLinearOrder α] in
theorem Least.map [LE γ] (h : Least value seen best) {f : α → γ}
    (hf : ∀ a b, a ≤ b → f a ≤ f b) :
    Least (fun label => (value label).map f) seen (f best.1, best.2) := by
  constructor
  · simp only [h.attained, Option.map_some]
  · intro label hlabel w hw
    obtain ⟨v, hv, rfl⟩ := Option.map_eq_some_iff.1 hw
    exact hf _ _ (h.least label hlabel v hv)

/-- Values that grow or go away leave a least value that is no smaller. -/
theorem Least.mono (h : Least value seen best) (h' : Least value' seen best')
    (hmem : best'.2 ∈ seen)
    (hgrow : ∀ label v', value' label = some v' → ∃ v, value label = some v ∧ v ≤ v') :
    best.1 ≤ best'.1 := by
  obtain ⟨v, hv, hle⟩ := hgrow _ _ h'.attained
  exact Std.le_trans (h.least _ hmem v hv) hle

end Least

end BrowserServe.Library
