import BrowserServe.Manifest
import BrowserServe.Library.FilePath
import BrowserServe.Library.FileTree

namespace BrowserServe
open Library
set_option autoImplicit true

/-- What is below a directory that exists. -/
abbrev DirTree := FileTree String (List UInt8)

mutual

/-- `copy_tree` of an entry of a directory; nothing is copied of what is neither a directory nor
a regular file. -/
def copyNode (dest : List String) (tree : DirTree) : Node → DirTree × Except String Unit
  | .dir entries =>
    match tree.createDirAll dest with
    | .error _ => (tree, .error "not a directory")
    | .ok tree => copyEntries dest tree entries
  | .file (.ok bytes) => (tree.set dest (.file bytes), .ok ())
  | .file (.error e) => (tree, .error e)
  | .other => (tree, .ok ())
  | .unreadable e => (tree, .error e)

def copyEntries (dest : List String) (tree : DirTree) : Dir → DirTree × Except String Unit
  | .nil => (tree, .ok ())
  | .failed e => (tree, .error e)
  | .cons name node rest =>
    match copyNode (dest ++ [name]) tree node with
    | (tree, .ok ()) => copyEntries dest tree rest
    | (tree, .error e) => (tree, .error e)

end

/-- `clone_template` into a directory that is new. -/
def cloneTemplate (template : Dir) : DirTree × Except String Unit :=
  copyEntries [] (fun _ => none) template

mutual

/-- What is at a path that starts at a node, of what is copied. -/
def Node.kindAt : Node → List String → Option (FileKind (List UInt8))
  | .dir _, [] => some .dir
  | .dir entries, name :: path => entries.kindAt name path
  | .file (.ok bytes), [] => some (.file bytes)
  | _, _ => none

def Dir.kindAt : Dir → String → List String → Option (FileKind (List UInt8))
  | .cons first node rest, name, path =>
    if first = name then node.kindAt path else rest.kindAt name path
  | _, _, _ => none

end

def Dir.names : Dir → List String
  | .cons name _ rest => name :: rest.names
  | _ => []

mutual

/-- A tree that can be read, with names that can stand next to each other. -/
def Node.Sound : Node → Prop
  | .dir entries => entries.Sound
  | .file bytes => ∃ contents, bytes = .ok contents
  | .other => True
  | .unreadable _ => False

def Dir.Sound : Dir → Prop
  | .nil => True
  | .failed _ => False
  | .cons name node rest => ValidName name ∧ name ∉ rest.names ∧ node.Sound ∧ rest.Sound

end

/-- A directory as it is on disk. -/
structure FileDir where
  dir : Dir
  sound : dir.Sound

def FileDir.kindAt (d : FileDir) (path : List String) : Option (FileKind (List UInt8)) :=
  (Node.dir d.dir).kindAt path

mutual

theorem Node.kindAt_ne_other (node : Node) (path : List String) :
    node.kindAt path ≠ some .other := by
  match node, path with
  | .dir _, [] => nofun
  | .dir entries, name :: path => exact entries.kindAt_ne_other name path
  | .file (.ok _), [] => nofun
  | .file (.ok _), _ :: _ => nofun
  | .file (.error _), _ => nofun
  | .other, _ => nofun
  | .unreadable _, _ => nofun

theorem Dir.kindAt_ne_other (d : Dir) (name : String) (path : List String) :
    d.kindAt name path ≠ some .other := by
  match d with
  | .nil => nofun
  | .failed _ => nofun
  | .cons first node rest =>
    by_cases hname : first = name
    · rw [Dir.kindAt, if_pos hname]
      exact node.kindAt_ne_other path
    · rw [Dir.kindAt, if_neg hname]
      exact rest.kindAt_ne_other name path

end

theorem FileDir.kindAt_ne_other (d : FileDir) (path : List String) :
    d.kindAt path ≠ some .other :=
  (Node.dir d.dir).kindAt_ne_other path

/-- What copying something to a place does: at the place and below it the copy, elsewhere
nothing. -/
structure Copied (dest : List String) (kindAt : List String → Option (FileKind (List UInt8)))
    (tree tree' : DirTree) : Prop where
  copy : ∀ r, tree' (dest ++ r) = kindAt r
  others : ∀ q, ¬ dest <+: q → tree' q = tree q

/-- What copying the entries of a directory to a place does. -/
structure CopiedEntries (dest : List String) (d : Dir) (tree tree' : DirTree) : Prop where
  copy : ∀ name ∈ d.names, ∀ r, tree' (dest ++ name :: r) = d.kindAt name r
  others : ∀ q, (∀ name ∈ d.names, ¬ dest ++ [name] <+: q) → tree' q = tree q

theorem Dir.kindAt_of_not_mem {d : Dir} {name : String} (h : name ∉ d.names) (r : List String) :
    d.kindAt name r = none := by
  induction d using Dir.rec (motive_1 := fun _ => True) with
  | dir _ _ => trivial
  | file _ => trivial
  | other => trivial
  | unreadable _ => trivial
  | nil => rfl
  | failed _ => rfl
  | cons first node rest _ ih =>
    have hne : first ≠ name := by
      rintro rfl
      exact h List.mem_cons_self
    rw [Dir.kindAt, if_neg hne]
    exact ih fun hmem => h (List.mem_cons_of_mem _ hmem)

theorem prefix_name_cons {dest r : List String} {a b : String} :
    dest ++ [a] <+: dest ++ b :: r ↔ a = b := by
  rw [List.prefix_append_right_inj, List.cons_prefix_cons]
  simp

theorem not_prefix_concat {dest q : List String} {name : String} (h : q <+: dest) :
    ¬ dest ++ [name] <+: q := by
  intro hlong
  have hle := (hlong.trans h).length_le
  rw [List.length_append, List.length_singleton] at hle
  omega

/-- Making a directory whose parents exist changes nothing else. -/
theorem createDirAll_child {dest : List String} {tree : DirTree} (hdest : dest ≠ [])
    (hfree : tree dest = none)
    (hparents : ∀ q, q ≠ [] → q <+: dest → q ≠ dest → tree q = some .dir) :
    ∃ made, tree.createDirAll dest = .ok made ∧ made dest = some .dir ∧
      ∀ q, q ≠ dest → made q = tree q := by
  have hpass : ∀ r, r ≠ [] → r <+: dest → tree.Passable ([] ++ r) := by
    intro r hr hunder kind hkind
    by_cases hself : r = dest
    · rw [hself, List.nil_append, hfree] at hkind
      cases hkind
    · rw [List.nil_append, hparents r hr hunder hself] at hkind
      exact (Option.some.inj hkind).symm
  obtain ⟨made, hmade⟩ := FileTree.makeDirs_of_passable hpass
  have hspec := FileTree.makeDirs_ok hmade
  refine ⟨made, hmade, hspec.dirs dest hdest List.prefix_rfl, ?_⟩
  intro q hq
  by_cases hunder : q ≠ [] ∧ q <+: dest
  · rw [hparents q hunder.1 hunder.2 hq]
    exact hspec.dirs q hunder.1 hunder.2
  · apply hspec.others
    rintro r hr hr' rfl
    exact hunder ⟨hr, hr'⟩

mutual

theorem copyNode_sound {node : Node} (h : node.Sound) {dest : List String} {tree : DirTree}
    (hdest : dest ≠ []) (hfree : ∀ r, tree (dest ++ r) = none)
    (hparents : ∀ q, q ≠ [] → q <+: dest → q ≠ dest → tree q = some .dir) :
    ∃ tree', copyNode dest tree node = (tree', .ok ()) ∧
      Copied dest node.kindAt tree tree' := by
  match node with
  | .dir entries =>
    have hplace : tree dest = none := by simpa using hfree []
    obtain ⟨made, hmade, hdir, hsame⟩ := createDirAll_child hdest hplace hparents
    have hdirs : ∀ q, q ≠ [] → q <+: dest → made q = some .dir := by
      intro q hq hunder
      by_cases hself : q = dest
      · rw [hself, hdir]
      · rw [hsame q hself]
        exact hparents q hq hunder hself
    have hbelow : ∀ name r, made (dest ++ name :: r) = none := by
      intro name r
      rw [hsame _ (by simp)]
      exact hfree _
    obtain ⟨tree', hcopy, hcopied⟩ := copyEntries_sound (d := entries) h hdirs
      fun name _ r => hbelow name r
    refine ⟨tree', by rw [copyNode, hmade]; exact hcopy, ?_, ?_⟩
    · intro r
      match r with
      | [] =>
        rw [List.append_nil, hcopied.others, hdir]
        · rfl
        · intro name _
          exact not_prefix_concat List.prefix_rfl
      | name :: r =>
        by_cases hname : name ∈ entries.names
        · exact hcopied.copy name hname r
        · rw [hcopied.others, hbelow]
          · exact (Dir.kindAt_of_not_mem hname r).symm
          · intro other hother hunder
            rw [prefix_name_cons] at hunder
            exact hname (hunder ▸ hother)
    · intro q hq
      rw [hcopied.others, hsame]
      · rintro rfl
        exact hq List.prefix_rfl
      · intro name _ hunder
        exact hq ((List.prefix_append dest [name]).trans hunder)
  | .file bytes =>
    obtain ⟨contents, rfl⟩ := h
    refine ⟨tree.set dest (.file contents), rfl, ?_, ?_⟩
    · intro r
      match r with
      | [] =>
        rw [List.append_nil]
        exact FileTree.set_self _ _ _
      | name :: r =>
        rw [FileTree.set_ne (by simp), hfree]
        rfl
    · intro q hq
      apply FileTree.set_ne
      rintro rfl
      exact hq List.prefix_rfl
  | .other =>
    refine ⟨tree, rfl, ?_, fun _ _ => rfl⟩
    intro r
    rw [hfree]
    cases r <;> rfl
  | .unreadable _ => exact absurd h id

theorem copyEntries_sound {d : Dir} (h : d.Sound) {dest : List String} {tree : DirTree}
    (hdirs : ∀ q, q ≠ [] → q <+: dest → tree q = some .dir)
    (hfree : ∀ name ∈ d.names, ∀ r, tree (dest ++ name :: r) = none) :
    ∃ tree', copyEntries dest tree d = (tree', .ok ()) ∧ CopiedEntries dest d tree tree' := by
  match d with
  | .nil => exact ⟨tree, rfl, fun _ hname => absurd hname List.not_mem_nil, fun _ _ => rfl⟩
  | .failed _ => exact absurd h id
  | .cons name node rest =>
    obtain ⟨_, hfresh, hnode, hrest⟩ := h
    have hfirst : ∀ r, tree (dest ++ [name] ++ r) = none := by
      intro r
      simpa using hfree name List.mem_cons_self r
    have hparents : ∀ q, q ≠ [] → q <+: dest ++ [name] → q ≠ dest ++ [name] →
        tree q = some .dir := by
      intro q hq hunder hne
      exact hdirs q hq ((List.prefix_concat_iff.1 hunder).resolve_left hne)
    obtain ⟨tree₁, hcopy₁, hcopied₁⟩ := copyNode_sound hnode (by simp) hfirst hparents
    have hdirs₁ : ∀ q, q ≠ [] → q <+: dest → tree₁ q = some .dir := by
      intro q hq hunder
      rw [hcopied₁.others q (not_prefix_concat hunder)]
      exact hdirs q hq hunder
    have hfree₁ : ∀ other ∈ rest.names, ∀ r, tree₁ (dest ++ other :: r) = none := by
      intro other hother r
      rw [hcopied₁.others]
      · exact hfree other (List.mem_cons_of_mem _ hother) r
      · rw [prefix_name_cons]
        rintro rfl
        exact hfresh hother
    obtain ⟨tree', hcopy, hcopied⟩ := copyEntries_sound hrest hdirs₁ hfree₁
    refine ⟨tree', by rw [copyEntries, hcopy₁]; exact hcopy, ?_, ?_⟩
    · intro other hother r
      by_cases hname : name = other
      · subst hname
        rw [Dir.kindAt, if_pos rfl, hcopied.others, ← hcopied₁.copy r]
        · simp
        · intro other hother hunder
          rw [prefix_name_cons] at hunder
          exact hfresh (hunder ▸ hother)
      · rw [Dir.kindAt, if_neg hname]
        exact hcopied.copy other ((List.mem_cons.1 hother).resolve_left (Ne.symm hname)) r
    · intro q hq
      rw [hcopied.others, hcopied₁.others q (hq name List.mem_cons_self)]
      intro other hother
      exact hq other (List.mem_cons_of_mem _ hother)

end

/-- A clone has the directories and the regular files of its template. -/
theorem cloneTemplate_spec (template : FileDir) :
    ∃ cloned, cloneTemplate template.dir = (cloned, .ok ()) ∧
      ∀ q, q ≠ [] → cloned q = template.kindAt q := by
  have hdirs : ∀ q, q ≠ [] → q <+: ([] : List String) →
      (fun _ => none : DirTree) q = some .dir := by
    intro q hq hunder
    exact absurd (List.prefix_nil.1 hunder) hq
  obtain ⟨cloned, hclone, hcopied⟩ := copyEntries_sound template.sound hdirs fun _ _ _ => rfl
  refine ⟨cloned, hclone, ?_⟩
  intro q hq
  obtain ⟨name, r, rfl⟩ := List.exists_cons_of_ne_nil hq
  by_cases hname : name ∈ template.dir.names
  · exact hcopied.copy name hname r
  · have hnone := hcopied.others (name :: r) fun other hother hunder =>
      hname ((List.cons_prefix_cons.1 hunder).1 ▸ hother)
    rw [hnone]
    exact (Dir.kindAt_of_not_mem hname r).symm

end BrowserServe
