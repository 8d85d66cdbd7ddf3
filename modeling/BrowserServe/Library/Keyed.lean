import Mathlib.Data.List.AList

namespace BrowserServe.Library
set_option autoImplicit true

section Keyed
variable {κ : Type} {β : κ → Type} [DecidableEq κ]

/-- The entries of a keyed list that a test keeps. -/
def retain (m : AList β) (keep : ∀ k, β k → Bool) : AList β :=
  ⟨m.entries.filter fun e => keep e.1 e.2,
    m.nodupKeys.sublist List.filter_sublist⟩

theorem mem_lookup_retain {m : AList β} {keep : ∀ k, β k → Bool} {k : κ} {b : β k} :
    b ∈ (retain m keep).lookup k ↔ b ∈ m.lookup k ∧ keep k b = true := by
  rw [AList.mem_lookup_iff, AList.mem_lookup_iff]
  exact List.mem_filter

omit [DecidableEq κ] in
theorem length_keys (m : AList β) : m.keys.length = m.entries.length :=
  List.length_map _

/-- Writing under a key that is there keeps the number of entries. -/
theorem length_insert_of_lookup {m : AList β} {k : κ} {b c : β k} (h : m.lookup k = some b) :
    (m.insert k c).entries.length = m.entries.length := by
  have hmem : k ∈ m.keys := by
    apply AList.mem_keys.1
    rw [← AList.lookup_isSome, h]
    rfl
  have hpos := List.length_pos_of_mem hmem
  have hkeys := congrArg List.length (AList.keys_insert (a := k) (b := c) m)
  rw [List.length_cons, List.length_erase_of_mem hmem, length_keys] at hkeys
  rw [length_keys] at hkeys hpos
  omega

theorem length_insert_le {m : AList β} {k : κ} (b : β k) :
    (m.insert k b).entries.length ≤ m.entries.length + 1 := by
  have hkeys := congrArg List.length (AList.keys_insert (a := k) (b := b) m)
  have hle := List.length_erase_le (a := k) (l := m.keys)
  rw [List.length_cons, length_keys] at hkeys
  rw [length_keys] at hle
  omega

theorem length_erase_le {m : AList β} (k : κ) :
    (m.erase k).entries.length ≤ m.entries.length := by
  have hkeys := congrArg List.length (AList.keys_erase k m)
  have hle := List.length_erase_le (a := k) (l := m.keys)
  rw [length_keys] at hkeys hle
  omega

end Keyed

section Pairs
variable {κ α : Type} [DecidableEq κ] {l : List (κ × α)} {k j : κ} {a : α}

theorem lookup_cons_ne (h : k ≠ j) : ((j, a) :: l).lookup k = l.lookup k := by
  rw [List.lookup_cons, beq_eq_false_iff_ne.2 h]

theorem lookup_of_not_mem (h : k ∉ l.map Prod.fst) : l.lookup k = none := by
  apply List.lookup_eq_none_iff.2
  intro pair hpair
  apply bne_iff_ne.2
  rintro rfl
  exact h (List.mem_map_of_mem hpair)

theorem exists_lookup (h : k ∈ l.map Prod.fst) : ∃ a, l.lookup k = some a := by
  obtain ⟨pair, hpair, rfl⟩ := List.mem_map.1 h
  exact Option.isSome_iff_exists.1 (List.lookup_isSome_iff.2 ⟨pair, hpair, beq_self_eq_true _⟩)

theorem lookup_of_mem (hkeys : (l.map Prod.fst).Nodup) (h : (k, a) ∈ l) : l.lookup k = some a := by
  induction l with
  | nil => cases h
  | cons pair l ih =>
    obtain ⟨j, b⟩ := pair
    obtain ⟨hfresh, hrest⟩ := List.nodup_cons.1 hkeys
    rcases List.mem_cons.1 h with heq | hmem
    · cases heq
      exact List.lookup_cons_self
    · rw [lookup_cons_ne]
      · exact ih hrest hmem
      · intro heq
        have hkey : k ∈ l.map Prod.fst := List.mem_map_of_mem hmem
        exact hfresh (heq ▸ hkey)

end Pairs

end BrowserServe.Library
