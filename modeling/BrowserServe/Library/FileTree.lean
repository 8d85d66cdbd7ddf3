import Mathlib.Data.List.Basic
import Mathlib.Data.List.Infix

namespace BrowserServe.Library
set_option autoImplicit true

inductive FileKind (β : Type) where
  | dir
  | file (contents : β)
  | other
  deriving DecidableEq

/-- What is at each path below a directory that exists. -/
abbrev FileTree (ν β : Type) := List ν → Option (FileKind β)

inductive FsError where
  | notFound
  | notADirectory
  | alreadyExists
  | tooManyLinks
  | refused
  deriving DecidableEq

namespace FileTree
variable {ν β : Type}

/-- A directory may be at the path, or may be made there. -/
def Passable (tree : FileTree ν β) (path : List ν) : Prop :=
  ∀ kind, tree path = some kind → kind = .dir

/-- A file may be made at the path, with its directories. -/
structure Admits (tree : FileTree ν β) (path : List ν) : Prop where
  free : tree path = none
  parents : ∀ q, q ≠ [] → q <+: path → q ≠ path → tree.Passable q

/-- What making the directories of a path below a base does. -/
structure MadeDirs (base path : List ν) (tree tree' : FileTree ν β) : Prop where
  passable : ∀ r, r ≠ [] → r <+: path → tree.Passable (base ++ r)
  dirs : ∀ r, r ≠ [] → r <+: path → tree' (base ++ r) = some .dir
  others : ∀ q, (∀ r, r ≠ [] → r <+: path → q ≠ base ++ r) → tree' q = tree q

theorem MadeDirs.cons {base path : List ν} {name : ν} {tree tree₁ tree' : FileTree ν β}
    (h : MadeDirs (base ++ [name]) path tree₁ tree') (hpass : tree.Passable (base ++ [name]))
    (hdir : tree₁ (base ++ [name]) = some .dir)
    (hsame : ∀ q, q ≠ base ++ [name] → tree₁ q = tree q) :
    MadeDirs base (name :: path) tree tree' := by
  have hsplit : ∀ r, r ≠ [] → r <+: name :: path →
      ∃ r', r' <+: path ∧ base ++ r = base ++ [name] ++ r' := by
    intro r hr hunder
    cases r with
    | nil => exact absurd rfl hr
    | cons n r' =>
      obtain ⟨rfl, hrest⟩ := List.cons_prefix_cons.1 hunder
      exact ⟨r', hrest, by simp⟩
  have hkeep : tree' (base ++ [name]) = some .dir := by
    rw [h.others, hdir]
    intro r hr _ heq
    exact hr (List.append_right_eq_self.1 heq.symm)
  refine ⟨?_, ?_, ?_⟩
  · intro r hr hunder
    obtain ⟨r', hr', heq⟩ := hsplit r hr hunder
    rw [heq]
    by_cases hnil : r' = []
    · rw [hnil, List.append_nil]
      exact hpass
    · intro kind hkind
      apply h.passable r' hnil hr' kind
      rw [hsame, hkind]
      intro hself
      exact hnil (List.append_right_eq_self.1 hself)
  · intro r hr hunder
    obtain ⟨r', hr', heq⟩ := hsplit r hr hunder
    rw [heq]
    by_cases hnil : r' = []
    · rw [hnil, List.append_nil]
      exact hkeep
    · exact h.dirs r' hnil hr'
  · intro q hq
    have hne : q ≠ base ++ [name] := by
      apply hq [name]
      · nofun
      · exact List.cons_prefix_cons.2 ⟨rfl, List.nil_prefix⟩
    rw [h.others, hsame q hne]
    intro r hr hunder
    have hcons := hq (name :: r) (by nofun) (List.cons_prefix_cons.2 ⟨rfl, hunder⟩)
    simpa using hcons

variable [DecidableEq ν]

def set (path : List ν) (kind : FileKind β) (tree : FileTree ν β) : FileTree ν β :=
  fun q => if q = path then some kind else tree q

@[simp] theorem set_self (path : List ν) (kind : FileKind β) (tree : FileTree ν β) :
    tree.set path kind path = some kind := if_pos rfl

theorem set_ne {path q : List ν} (h : q ≠ path) (kind : FileKind β) (tree : FileTree ν β) :
    tree.set path kind q = tree q := if_neg h

/-- Makes the directories of a path below a base, from the top. -/
def makeDirs (base : List ν) : List ν → FileTree ν β → Except FsError (FileTree ν β)
  | [], tree => .ok tree
  | name :: path, tree =>
    match tree (base ++ [name]) with
    | none => makeDirs (base ++ [name]) path (tree.set (base ++ [name]) .dir)
    | some .dir => makeDirs (base ++ [name]) path tree
    | some _ => .error .notADirectory

def createDirAll (path : List ν) (tree : FileTree ν β) : Except FsError (FileTree ν β) :=
  makeDirs [] path tree

/-- A new file, which nothing at its path may be in the way of. -/
def createNew (path : List ν) (contents : β) (tree : FileTree ν β) :
    Except FsError (FileTree ν β) :=
  match tree path with
  | some _ => .error .alreadyExists
  | none => .ok (tree.set path (.file contents))

/-- A new file with the directories above it. -/
def writeNew (path : List ν) (contents : β) (tree : FileTree ν β) :
    Except FsError (FileTree ν β) := do
  let tree ← createDirAll path.dropLast tree
  createNew path contents tree

theorem makeDirs_ok {base path : List ν} {tree tree' : FileTree ν β}
    (h : makeDirs base path tree = .ok tree') : MadeDirs base path tree tree' := by
  induction path generalizing base tree with
  | nil =>
    cases h
    refine ⟨?_, ?_, fun _ _ => rfl⟩
    · intro r hr hunder
      exact absurd (List.prefix_nil.1 hunder) hr
    · intro r hr hunder
      exact absurd (List.prefix_nil.1 hunder) hr
  | cons name path ih =>
    unfold makeDirs at h
    split at h
    · rename_i hnone
      apply (ih h).cons
      · intro kind hkind
        rw [hnone] at hkind
        cases hkind
      · exact set_self _ _ _
      · intro q hq
        exact set_ne hq _ _
    · rename_i hdir
      apply (ih h).cons
      · intro kind hkind
        rw [hdir] at hkind
        exact (Option.some.inj hkind).symm
      · exact hdir
      · exact fun _ _ => rfl
    · cases h

theorem makeDirs_of_passable {base path : List ν} {tree : FileTree ν β}
    (h : ∀ r, r ≠ [] → r <+: path → tree.Passable (base ++ r)) :
    ∃ tree', makeDirs base path tree = .ok tree' := by
  induction path generalizing base tree with
  | nil => exact ⟨tree, rfl⟩
  | cons name path ih =>
    have hrest : ∀ r, r ≠ [] → r <+: path → tree.Passable (base ++ [name] ++ r) := by
      intro r _ hunder
      have hcons := h (name :: r) (by nofun) (List.cons_prefix_cons.2 ⟨rfl, hunder⟩)
      simpa using hcons
    have hhead := h [name] (by nofun) (List.cons_prefix_cons.2 ⟨rfl, List.nil_prefix⟩)
    unfold makeDirs
    split
    · apply ih
      intro r hr hunder kind hkind
      apply hrest r hr hunder kind
      rw [← hkind, set_ne]
      intro hself
      exact hr (List.append_right_eq_self.1 hself)
    · exact ih hrest
    · rename_i hnotDir hsome
      exact absurd (hhead _ hsome) hnotDir

/-- What writing a new file does. -/
structure Wrote (path : List ν) (contents : β) (tree tree' : FileTree ν β) : Prop where
  admits : tree.Admits path
  file : tree' path = some (.file contents)
  dirs : ∀ q, q ≠ [] → q <+: path → q ≠ path → tree' q = some .dir
  others : ∀ q, ¬ (q ≠ [] ∧ q <+: path) → tree' q = tree q

omit [DecidableEq ν] in
theorem prefix_dropLast_iff {path q : List ν} (hq : q ≠ []) :
    q <+: path.dropLast ↔ q <+: path ∧ q ≠ path := by
  cases List.eq_nil_or_concat path with
  | inl hnil =>
    subst hnil
    constructor
    · intro h
      exact absurd (List.prefix_nil.1 h) hq
    · intro h
      exact absurd (List.prefix_nil.1 h.1) hq
  | inr hconcat =>
    obtain ⟨front, last, rfl⟩ := hconcat
    rw [List.concat_eq_append, List.dropLast_concat, List.prefix_concat_iff]
    constructor
    · intro h
      refine ⟨.inr h, ?_⟩
      rintro rfl
      have hle := h.length_le
      rw [List.length_append, List.length_singleton] at hle
      omega
    · intro h
      exact h.1.resolve_left h.2

theorem writeNew_ok {path : List ν} {contents : β} {tree tree' : FileTree ν β}
    (hpath : path ≠ []) (h : writeNew path contents tree = .ok tree') :
    Wrote path contents tree tree' := by
  unfold writeNew at h
  cases hdirs : createDirAll path.dropLast tree with
  | error e =>
    rw [hdirs] at h
    cases h
  | ok made =>
    rw [hdirs] at h
    have hmade := makeDirs_ok hdirs
    have hsame : ∀ q, (q = path ∨ ¬ (q ≠ [] ∧ q <+: path)) → made q = tree q := by
      intro q hq
      apply hmade.others
      intro r hr hunder heq
      subst heq
      obtain ⟨hr', hne⟩ := (prefix_dropLast_iff hr).1 hunder
      cases hq with
      | inl hself => exact hne hself
      | inr hnot => exact hnot ⟨hr, hr'⟩
    replace h : createNew path contents made = .ok tree' := h
    unfold createNew at h
    split at h
    · cases h
    · rename_i hfree
      cases h
      refine ⟨⟨?_, ?_⟩, set_self _ _ _, ?_, ?_⟩
      · rw [← hsame path (.inl rfl)]
        exact hfree
      · intro q hq hunder hne
        exact hmade.passable q hq ((prefix_dropLast_iff hq).2 ⟨hunder, hne⟩)
      · intro q hq hunder hne
        rw [set_ne hne]
        exact hmade.dirs q hq ((prefix_dropLast_iff hq).2 ⟨hunder, hne⟩)
      · intro q hq
        rw [set_ne, hsame q (.inr hq)]
        rintro rfl
        exact hq ⟨hpath, List.prefix_rfl⟩

theorem writeNew_of_admits {path : List ν} {tree : FileTree ν β} (h : tree.Admits path)
    (contents : β) : ∃ tree', writeNew path contents tree = .ok tree' := by
  have hpass : ∀ r, r ≠ [] → r <+: path.dropLast → tree.Passable ([] ++ r) := by
    intro r hr hunder
    obtain ⟨hunder, hne⟩ := (prefix_dropLast_iff hr).1 hunder
    exact h.parents r hr hunder hne
  obtain ⟨made, hmade⟩ := makeDirs_of_passable hpass
  have hfree : made path = none := by
    rw [(makeDirs_ok hmade).others, h.free]
    intro r hr hunder heq
    exact ((prefix_dropLast_iff hr).1 hunder).2 heq.symm
  refine ⟨made.set path (.file contents), ?_⟩
  have hdirs : createDirAll path.dropLast tree = .ok made := hmade
  simp only [writeNew, hdirs, bind, Except.bind, createNew, hfree]

omit [DecidableEq ν] in
/-- Two paths of which neither leads to the other do not stand in each other's way. -/
theorem Wrote.admits_iff {path q : List ν} {tree tree' : FileTree ν β}
    (h : Wrote path contents tree tree') (hbelow : ¬ path <+: q) (habove : ¬ q <+: path) :
    tree'.Admits q ↔ tree.Admits q := by
  have hq : tree' q = tree q := h.others q fun hunder => habove hunder.2
  have hparent : ∀ r, r ≠ [] → r <+: q → (tree'.Passable r ↔ tree.Passable r) := by
    intro r hr hunder
    by_cases hpath : r <+: path
    · have hne : r ≠ path := by
        rintro rfl
        exact hbelow hunder
      refine iff_of_true ?_ (h.admits.parents r hr hpath hne)
      intro kind hkind
      rw [h.dirs r hr hpath hne] at hkind
      exact (Option.some.inj hkind).symm
    · unfold Passable
      rw [h.others r fun hunder => hpath hunder.2]
  constructor
  · intro ha
    refine ⟨hq ▸ ha.free, ?_⟩
    intro r hr hunder hne
    exact (hparent r hr hunder).1 (ha.parents r hr hunder hne)
  · intro ha
    refine ⟨hq.trans ha.free, ?_⟩
    intro r hr hunder hne
    exact (hparent r hr hunder).2 (ha.parents r hr hunder hne)

omit [DecidableEq ν] in
/-- The files are those there were and the new one. -/
theorem Wrote.file_iff {path p : List ν} {contents bytes : β} {tree tree' : FileTree ν β}
    (h : Wrote path contents tree tree') :
    tree' p = some (.file bytes) ↔
      (p = path ∧ bytes = contents) ∨ tree p = some (.file bytes) := by
  by_cases hself : p = path
  · subst hself
    rw [h.file, h.admits.free]
    constructor
    · intro heq
      cases heq
      exact .inl ⟨rfl, rfl⟩
    · intro heq
      obtain ⟨_, rfl⟩ := heq.resolve_right nofun
      rfl
  · rw [or_iff_right fun heq => hself heq.1]
    by_cases habove : p ≠ [] ∧ p <+: path
    · rw [h.dirs p habove.1 habove.2 hself]
      refine iff_of_false nofun ?_
      intro hfile
      cases h.admits.parents p habove.1 habove.2 hself _ hfile
    · rw [h.others p habove]

end FileTree

end BrowserServe.Library
