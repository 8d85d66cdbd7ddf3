import BrowserServe.Library.Faults
import BrowserServe.SessionHost
import BrowserServe.TemplateClone

namespace BrowserServe
open Library
set_option autoImplicit true

/-- The operations of a clone, by where they are in the copy. -/
inductive CloneOp where
  | createParent
  | createDirAll (dest : List String)
  | readDir (dest : List String)
  | nextEntry (dest : List String) (name : Option String)
  | metadata (dest : List String)
  | copy (dest : List String)
  deriving DecidableEq

/-- What becomes of the operations: the errors of those that fail, and what a copy that failed
left at its destination. -/
structure CloneHost where
  fails : CloneOp → Option String
  left : List String → Option (List UInt8)

abbrev Put := List String × FileKind (List UInt8)

namespace CloneHost
variable (host : CloneHost)

def leaves : CloneOp → List Put
  | .copy dest => (host.left dest).toList.map fun bytes => (dest, .file bytes)
  | _ => []

def faults : Faults CloneOp Put String := ⟨host.fails, host.leaves⟩

/-- An operation that fails ends the copy; after one that does not, it goes on. -/
def attempt (op : CloneOp) (tree : DirTree) (next : DirTree × Except String Unit) :
    DirTree × Except String Unit :=
  match host.fails op with
  | some e => (FileTree.place (host.leaves op) tree, .error e)
  | none => next

/-- A copy that failed ends what it is a part of. -/
def andThen (copied : DirTree × Except String Unit)
    (next : DirTree → DirTree × Except String Unit) : DirTree × Except String Unit :=
  match copied with
  | (tree, .ok ()) => next tree
  | (tree, .error e) => (tree, .error e)

def copyFile (dest : List String) (bytes : List UInt8) (tree : DirTree) :
    DirTree × Except String Unit :=
  host.attempt (.copy dest) tree (tree.set dest (.file bytes), .ok ())

mutual

/-- `copy_tree` of a directory, `copy_file` of a regular file. -/
def copyNode (dest : List String) (tree : DirTree) : Node → DirTree × Except String Unit
  | .dir entries =>
    host.attempt (.createDirAll dest) tree
      (match tree.createDirAll dest with
      | .error _ => (tree, .error "not a directory")
      | .ok tree => host.attempt (.readDir dest) tree (copyEntries dest tree entries))
  | .file (.ok bytes) => host.copyFile dest bytes tree
  | .file (.error e) => (tree, .error e)
  | .other => (tree, .ok ())
  | .unreadable e => (tree, .error e)

def copyEntries (dest : List String) (tree : DirTree) : Dir → DirTree × Except String Unit
  | .nil => host.attempt (.nextEntry dest none) tree (tree, .ok ())
  | .failed e => (tree, .error e)
  | .cons name node rest =>
    host.attempt (.nextEntry dest (some name)) tree
      (host.attempt (.metadata (dest ++ [name])) tree
        (andThen (copyNode (dest ++ [name]) tree node) fun tree => copyEntries dest tree rest))

end

/-- `clone_template` into a directory that is new. -/
def cloneTemplate (template : Dir) : DirTree × Except String Unit :=
  host.attempt .createParent (fun _ => none) (host.copyNode [] (fun _ => none) (.dir template))

end CloneHost

mutual

/-- The operations that copying something takes, in their order. -/
def Node.cloneSteps (dest : List String) : Node → List (Step CloneOp Put)
  | .dir entries =>
    ⟨.createDirAll dest, if dest = [] then [] else [(dest, .dir)]⟩ :: ⟨.readDir dest, []⟩ ::
      entries.cloneSteps dest
  | .file (.ok bytes) => [⟨.copy dest, [(dest, .file bytes)]⟩]
  | _ => []

def Dir.cloneSteps (dest : List String) : Dir → List (Step CloneOp Put)
  | .nil => [⟨.nextEntry dest none, []⟩]
  | .failed _ => []
  | .cons name node rest =>
    ⟨.nextEntry dest (some name), []⟩ :: ⟨.metadata (dest ++ [name]), []⟩ ::
      (node.cloneSteps (dest ++ [name]) ++ rest.cloneSteps dest)

end

def FileDir.cloneSteps (template : FileDir) : List (Step CloneOp Put) :=
  ⟨.createParent, []⟩ :: (Node.dir template.dir).cloneSteps []

section
variable {host : CloneHost}

/-- A copy that comes to what the operations of a job come to, in a place of its own. -/
structure CopiesAs (steps : List (Step CloneOp Put)) (host : CloneHost) (under : List String → Prop)
    (tree : DirTree) (copied : DirTree × Except String Unit) : Prop where
  tree : copied.1 = FileTree.place (host.faults.outcome steps).1 tree
  result : copied.2 = (host.faults.outcome steps).2
  under : ∀ put ∈ (host.faults.outcome steps).1, under put.1

theorem CopiesAs.attempt {op : CloneOp} {puts : List Put} {under : List String → Prop}
    {tree : DirTree} {next : DirTree × Except String Unit}
    (hputs : ∀ put ∈ puts, under put.1) (hleaves : ∀ put ∈ host.leaves op, under put.1)
    (hnext : CopiesAs steps host under (FileTree.place puts tree) next) :
    CopiesAs (⟨op, puts⟩ :: steps) host under tree (host.attempt op tree next) := by
  unfold CloneHost.attempt
  cases hfails : host.fails op with
  | some e =>
    have houtcome : host.faults.outcome (⟨op, puts⟩ :: steps) = (host.leaves op, .error e) :=
      Faults.outcome_failed hfails steps
    constructor
    · rw [houtcome]
    · rw [houtcome]
    · rw [houtcome]
      exact hleaves
  | none =>
    have houtcome : host.faults.outcome (⟨op, puts⟩ :: steps) =
        (puts ++ (host.faults.outcome steps).1, (host.faults.outcome steps).2) :=
      Faults.outcome_cons hfails steps
    constructor
    · rw [houtcome, FileTree.place_append]
      exact hnext.tree
    · rw [houtcome]
      exact hnext.result
    · rw [houtcome]
      intro put hput
      cases List.mem_append.mp hput with
      | inl hput => exact hputs put hput
      | inr hput => exact hnext.under put hput

theorem CopiesAs.append {under : List String → Prop} {tree : DirTree}
    {copied : DirTree × Except String Unit} {next : DirTree → DirTree × Except String Unit}
    (h : CopiesAs steps host under tree copied)
    (hnext : copied.2 = .ok () → CopiesAs more host under copied.1 (next copied.1)) :
    CopiesAs (steps ++ more) host under tree (CloneHost.andThen copied next) := by
  obtain ⟨copied, result⟩ := copied
  obtain ⟨htree, hresult, hunder⟩ := h
  have houtcome := host.faults.outcome_append steps more
  cases hsteps : host.faults.outcome steps with
  | mk made outcome =>
    rw [hsteps] at htree hresult hunder houtcome
    dsimp only at htree hresult
    subst hresult
    cases result with
    | error e =>
      constructor
      · rw [houtcome]
        exact htree
      · rw [houtcome]
        rfl
      · rw [houtcome]
        exact hunder
    | ok _ =>
      obtain ⟨htree', hresult', hunder'⟩ := hnext rfl
      constructor
      · rw [houtcome, FileTree.place_append, ← htree]
        exact htree'
      · rw [houtcome]
        exact hresult'
      · rw [houtcome]
        intro put hput
        cases List.mem_append.mp hput with
        | inl hput => exact hunder put hput
        | inr hput => exact hunder' put hput

theorem CopiesAs.imp {under under' : List String → Prop} {tree : DirTree}
    {copied : DirTree × Except String Unit} (h : CopiesAs steps host under tree copied)
    (himp : ∀ q, under q → under' q) : CopiesAs steps host under' tree copied :=
  ⟨h.tree, h.result, fun put hput => himp _ (h.under put hput)⟩

theorem CopiesAs.others {under : List String → Prop} {tree : DirTree}
    {copied : DirTree × Except String Unit} (h : CopiesAs steps host under tree copied)
    (hq : ¬ under q) : copied.1 q = tree q := by
  rw [h.tree]
  apply FileTree.place_of_not_mem
  intro put hput heq
  exact hq (heq ▸ h.under put hput)

theorem CopiesAs.done (host : CloneHost) (under : List String → Prop) (tree : DirTree) :
    CopiesAs [] host under tree (tree, .ok ()) :=
  ⟨rfl, rfl, fun _ hput => absurd hput List.not_mem_nil⟩

/-- Making a directory in its place, the user data directory itself included. -/
theorem createDirAll_place {dest : List String} {tree : DirTree}
    (hfree : dest ≠ [] → tree dest = none)
    (hparents : ∀ q, q ≠ [] → q <+: dest → q ≠ dest → tree q = some .dir) :
    tree.createDirAll dest =
      .ok (FileTree.place (if dest = [] then [] else [(dest, .dir)]) tree) := by
  by_cases hdest : dest = []
  · rw [if_pos hdest, hdest]
    rfl
  · obtain ⟨made, hmade, hdir, hsame⟩ := createDirAll_child hdest (hfree hdest) hparents
    rw [if_neg hdest, hmade]
    congr 1
    funext q
    rw [FileTree.place_cons, FileTree.place_nil]
    by_cases hq : q = dest
    · rw [hq, hdir, FileTree.set_self]
    · rw [hsame q hq, FileTree.set_ne hq]

mutual

theorem copyNode_copiesAs {node : Node} (h : node.Sound) {dest : List String} {tree : DirTree}
    (hfree : ∀ r, tree (dest ++ r) = none)
    (hparents : ∀ q, q ≠ [] → q <+: dest → q ≠ dest → tree q = some .dir) :
    CopiesAs (node.cloneSteps dest) host (dest <+: ·) tree (host.copyNode dest tree node) := by
  match node with
  | .dir entries =>
    have hplace : tree dest = none := by simpa using hfree []
    have hmade := createDirAll_place (fun _ => hplace) hparents
    have hputs : ∀ put ∈ (if dest = [] then [] else [(dest, .dir)] : List Put), dest <+: put.1 := by
      intro put hput
      split at hput
      · cases hput
      · rw [List.mem_singleton.mp hput]
    have hothers : ∀ q, q ≠ dest →
        FileTree.place (if dest = [] then [] else [(dest, .dir)]) tree q = tree q := by
      intro q hq
      split
      · rfl
      · exact FileTree.set_ne hq _ _
    have hentries : CopiesAs (entries.cloneSteps dest) host
        (fun q => ∃ name ∈ entries.names, dest ++ [name] <+: q)
        (FileTree.place (if dest = [] then [] else [(dest, .dir)]) tree)
        (host.copyEntries dest (FileTree.place (if dest = [] then [] else [(dest, .dir)]) tree)
          entries) := by
      apply copyEntries_copiesAs h
      · intro q hq hunder
        by_cases hself : q = dest
        · rw [hself, if_neg (hself ▸ hq)]
          exact FileTree.set_self _ _ _
        · rw [hothers q hself]
          exact hparents q hq hunder hself
      · intro name _ r
        rw [hothers _ (by simp)]
        exact hfree _
    rw [CloneHost.copyNode, Node.cloneSteps]
    apply CopiesAs.attempt hputs (fun put hput => absurd hput List.not_mem_nil)
    rw [hmade]
    apply CopiesAs.attempt (fun put hput => absurd hput List.not_mem_nil)
      (fun put hput => absurd hput List.not_mem_nil)
    exact hentries.imp fun q hq => by
      obtain ⟨name, _, hunder⟩ := hq
      exact (List.prefix_append dest [name]).trans hunder
  | .file bytes =>
    obtain ⟨contents, rfl⟩ := h
    rw [CloneHost.copyNode, Node.cloneSteps, CloneHost.copyFile]
    apply CopiesAs.attempt
    · intro put hput
      rw [List.mem_singleton.mp hput]
    · intro put hput
      obtain ⟨bytes, _, rfl⟩ := List.mem_map.mp hput
      exact List.prefix_rfl
    · exact .done host _ _
  | .other => exact .done host _ tree
  | .unreadable _ => exact absurd h id

theorem copyEntries_copiesAs {d : Dir} (h : d.Sound) {dest : List String} {tree : DirTree}
    (hdirs : ∀ q, q ≠ [] → q <+: dest → tree q = some .dir)
    (hfree : ∀ name ∈ d.names, ∀ r, tree (dest ++ name :: r) = none) :
    CopiesAs (d.cloneSteps dest) host (fun q => ∃ name ∈ d.names, dest ++ [name] <+: q) tree
      (host.copyEntries dest tree d) := by
  match d with
  | .nil =>
    rw [CloneHost.copyEntries, Dir.cloneSteps]
    apply CopiesAs.attempt (fun put hput => absurd hput List.not_mem_nil)
      (fun put hput => absurd hput List.not_mem_nil)
    exact .done host _ tree
  | .failed _ => exact absurd h id
  | .cons name node rest =>
    obtain ⟨_, hfresh, hnode, hrest⟩ := h
    have hfirst : ∀ r, tree (dest ++ [name] ++ r) = none := by
      intro r
      simpa using hfree name List.mem_cons_self r
    have hparents : ∀ q, q ≠ [] → q <+: dest ++ [name] → q ≠ dest ++ [name] →
        tree q = some .dir := by
      intro q hq hunder hne
      exact hdirs q hq ((List.prefix_concat_iff.1 hunder).resolve_left hne)
    have hcopied : CopiesAs (node.cloneSteps (dest ++ [name])) host (dest ++ [name] <+: ·) tree
        (host.copyNode (dest ++ [name]) tree node) := copyNode_copiesAs hnode hfirst hparents
    rw [CloneHost.copyEntries, Dir.cloneSteps]
    apply CopiesAs.attempt (fun put hput => absurd hput List.not_mem_nil)
      (fun put hput => absurd hput List.not_mem_nil)
    apply CopiesAs.attempt (fun put hput => absurd hput List.not_mem_nil)
      (fun put hput => absurd hput List.not_mem_nil)
    apply CopiesAs.append
    · exact hcopied.imp fun q hq => ⟨name, List.mem_cons_self, hq⟩
    · intro _
      have hdirs₁ : ∀ q, q ≠ [] → q <+: dest →
          (host.copyNode (dest ++ [name]) tree node).1 q = some .dir := by
        intro q hq hunder
        rw [hcopied.others (not_prefix_concat hunder)]
        exact hdirs q hq hunder
      have hfree₁ : ∀ other ∈ rest.names, ∀ r,
          (host.copyNode (dest ++ [name]) tree node).1 (dest ++ other :: r) = none := by
        intro other hother r
        rw [hcopied.others]
        · exact hfree other (List.mem_cons_of_mem _ hother) r
        · rw [prefix_name_cons]
          rintro rfl
          exact hfresh hother
      apply (copyEntries_copiesAs hrest hdirs₁ hfree₁).imp
      intro q hq
      obtain ⟨other, hother, hunder⟩ := hq
      exact ⟨other, List.mem_cons_of_mem _ hother, hunder⟩

end

end

mutual

theorem Node.puts_apart {node : Node} (h : node.Sound) (dest : List String) :
    ((putsOf (node.cloneSteps dest)).map Prod.fst).Nodup ∧
      ∀ put ∈ putsOf (node.cloneSteps dest), dest <+: put.1 := by
  match node with
  | .dir entries =>
    obtain ⟨hnodup, hunder⟩ := Dir.puts_apart (d := entries) h dest
    have hbelow : ∀ put ∈ putsOf (entries.cloneSteps dest), dest <+: put.1 ∧ put.1 ≠ dest := by
      intro put hput
      obtain ⟨name, _, hname⟩ := hunder put hput
      refine ⟨(List.prefix_append dest [name]).trans hname, fun heq => ?_⟩
      exact not_prefix_concat List.prefix_rfl (heq ▸ hname)
    rw [Node.cloneSteps]
    simp only [putsOf_cons, List.nil_append]
    split
    · exact ⟨hnodup, fun put hput => (hbelow put hput).1⟩
    · constructor
      · rw [List.map_append, List.map_singleton, List.singleton_append, List.nodup_cons]
        refine ⟨fun hmem => ?_, hnodup⟩
        obtain ⟨put, hput, heq⟩ := List.mem_map.mp hmem
        exact (hbelow put hput).2 heq
      · intro put hput
        cases List.mem_append.mp hput with
        | inl hput => rw [List.mem_singleton.mp hput]
        | inr hput => exact (hbelow put hput).1
  | .file bytes =>
    obtain ⟨contents, rfl⟩ := h
    refine ⟨List.nodup_singleton _, fun put hput => ?_⟩
    rw [List.mem_singleton.mp hput]
  | .other => exact ⟨List.nodup_nil, fun put hput => absurd hput List.not_mem_nil⟩
  | .unreadable _ => exact absurd h id

theorem Dir.puts_apart {d : Dir} (h : d.Sound) (dest : List String) :
    ((putsOf (d.cloneSteps dest)).map Prod.fst).Nodup ∧
      ∀ put ∈ putsOf (d.cloneSteps dest), ∃ name ∈ d.names, dest ++ [name] <+: put.1 := by
  match d with
  | .nil => exact ⟨List.nodup_nil, fun put hput => absurd hput List.not_mem_nil⟩
  | .failed _ => exact absurd h id
  | .cons name node rest =>
    obtain ⟨_, hfresh, hnode, hrest⟩ := h
    obtain ⟨hnodup, hunder⟩ := Node.puts_apart hnode (dest ++ [name])
    obtain ⟨hnodup', hunder'⟩ := Dir.puts_apart hrest dest
    rw [Dir.cloneSteps]
    simp only [putsOf_cons, List.nil_append, putsOf_append, List.map_append]
    constructor
    · refine List.nodup_append.mpr ⟨hnodup, hnodup', ?_⟩
      intro q hq q' hq' heq
      obtain ⟨put, hput, rfl⟩ := List.mem_map.mp hq
      obtain ⟨put', hput', rfl⟩ := List.mem_map.mp hq'
      obtain ⟨other, hother, hunderOther⟩ := hunder' put' hput'
      have hsame := List.prefix_of_prefix_length_le (hunder put hput) (heq ▸ hunderOther)
        (by simp)
      rw [prefix_name_cons] at hsame
      exact hfresh (hsame ▸ hother)
    · intro put hput
      cases List.mem_append.mp hput with
      | inl hput => exact ⟨name, List.mem_cons_self, hunder put hput⟩
      | inr hput =>
        obtain ⟨other, hother, hunderOther⟩ := hunder' put hput
        exact ⟨other, List.mem_cons_of_mem _ hother, hunderOther⟩

end

/-- A host on which nothing fails. -/
def CloneHost.plain : CloneHost := ⟨fun _ => none, fun _ => none⟩

mutual

theorem copyNode_plain (dest : List String) (tree : DirTree) (node : Node) :
    CloneHost.plain.copyNode dest tree node = copyNode dest tree node := by
  match node with
  | .dir entries =>
    rw [CloneHost.copyNode, copyNode]
    cases tree.createDirAll dest with
    | error e => rfl
    | ok made => exact copyEntries_plain dest made entries
  | .file (.ok _) => rfl
  | .file (.error _) => rfl
  | .other => rfl
  | .unreadable _ => rfl

theorem copyEntries_plain (dest : List String) (tree : DirTree) (d : Dir) :
    CloneHost.plain.copyEntries dest tree d = copyEntries dest tree d := by
  match d with
  | .nil => rfl
  | .failed _ => rfl
  | .cons name node rest =>
    have hrest := fun tree => copyEntries_plain dest tree rest
    rw [CloneHost.copyEntries, copyEntries, copyNode_plain, CloneHost.attempt, CloneHost.attempt]
    simp only [CloneHost.plain, CloneHost.andThen] at hrest ⊢
    cases copyNode (dest ++ [name]) tree node with
    | mk copied result =>
      cases result with
      | ok _ => exact hrest copied
      | error e => rfl

end

/-- A copy puts one file in its place. -/
def CopyPuts (step : Step CloneOp Put) : Prop :=
  ∀ dest, step.op = .copy dest → ∃ bytes, step.puts = [(dest, .file bytes)]

theorem CopyPuts.of_ne {op : CloneOp} {puts : List Put} (h : ∀ dest, op ≠ .copy dest) :
    CopyPuts ⟨op, puts⟩ :=
  fun dest hop => absurd hop (h dest)

mutual

theorem Node.copy_puts (node : Node) (dest : List String) :
    ∀ step ∈ node.cloneSteps dest, CopyPuts step := by
  match node with
  | .dir entries =>
    rw [Node.cloneSteps, List.forall_mem_cons, List.forall_mem_cons]
    exact ⟨.of_ne (by simp), .of_ne (by simp), Dir.copy_puts entries dest⟩
  | .file (.ok bytes) =>
    intro step hstep
    obtain rfl := List.mem_singleton.mp hstep
    intro other hother
    cases hother
    exact ⟨bytes, rfl⟩
  | .file (.error _) => exact fun step hstep => absurd hstep List.not_mem_nil
  | .other => exact fun step hstep => absurd hstep List.not_mem_nil
  | .unreadable _ => exact fun step hstep => absurd hstep List.not_mem_nil

theorem Dir.copy_puts (d : Dir) (dest : List String) :
    ∀ step ∈ d.cloneSteps dest, CopyPuts step := by
  match d with
  | .nil =>
    rw [Dir.cloneSteps, List.forall_mem_singleton]
    exact .of_ne (by simp)
  | .failed _ => exact fun step hstep => absurd hstep List.not_mem_nil
  | .cons name node rest =>
    rw [Dir.cloneSteps, List.forall_mem_cons, List.forall_mem_cons, List.forall_mem_append]
    exact ⟨.of_ne (by simp), .of_ne (by simp), Node.copy_puts node (dest ++ [name]),
      Dir.copy_puts rest dest⟩

end

/-- A copy that fails leaves nothing, or a file that may be another. -/
theorem CloneHost.leaves_cases (host : CloneHost) {step : Step CloneOp Put} (h : CopyPuts step)
    (rest : List Put) :
    host.leaves step.op = [] ∨ ∃ q kind kind' more,
      step.puts ++ rest = (q, kind) :: more ∧ host.leaves step.op = [(q, kind')] := by
  cases hop : step.op with
  | copy dest =>
    obtain ⟨bytes, hputs⟩ := h dest hop
    rw [hputs]
    cases hleft : host.left dest with
    | none =>
      left
      rw [CloneHost.leaves, hleft]
      rfl
    | some left =>
      right
      refine ⟨dest, .file bytes, .file left, rest, rfl, ?_⟩
      rw [CloneHost.leaves, hleft]
      rfl
  | _ => exact .inl rfl

section
variable {host : CloneHost} {template : FileDir}

theorem cloneTemplate_copiesAs (host : CloneHost) (template : FileDir) :
    CopiesAs template.cloneSteps host (· ≠ []) (fun _ => none)
      (host.cloneTemplate template.dir) := by
  have hentries : CopiesAs (template.dir.cloneSteps []) host
      (fun q => ∃ name ∈ template.dir.names, [] ++ [name] <+: q) (fun _ => none)
      (host.copyEntries [] (fun _ => none) template.dir) :=
    copyEntries_copiesAs template.sound
      (fun q hq hunder => absurd (List.prefix_nil.1 hunder) hq) fun _ _ _ => rfl
  have hnothing : ∀ put ∈ ([] : List Put), put.1 ≠ [] :=
    fun put hput => absurd hput List.not_mem_nil
  rw [FileDir.cloneSteps, Node.cloneSteps, if_pos rfl, CloneHost.cloneTemplate, CloneHost.copyNode]
  apply CopiesAs.attempt hnothing (fun put hput => absurd hput List.not_mem_nil)
  apply CopiesAs.attempt hnothing (fun put hput => absurd hput List.not_mem_nil)
  apply CopiesAs.attempt hnothing (fun put hput => absurd hput List.not_mem_nil)
  apply hentries.imp
  rintro q ⟨name, _, hunder⟩ rfl
  exact absurd (List.prefix_nil.mp hunder) (by simp)

theorem puts_ne_root (template : FileDir) :
    ∀ put ∈ putsOf template.cloneSteps, put.1 ≠ [] := by
  have hunder := (cloneTemplate_copiesAs CloneHost.plain template).under
  rw [Faults.outcome_of_none fun _ _ => rfl] at hunder
  exact hunder

/-- What the whole job puts in place is a copy of the template. -/
theorem place_cloneSteps (template : FileDir) {q : List String} (hq : q ≠ []) :
    FileTree.place (putsOf template.cloneSteps) (fun _ => none) q = template.kindAt q := by
  obtain ⟨cloned, hcloned, hspec⟩ := cloneTemplate_spec template
  have hcopies := cloneTemplate_copiesAs CloneHost.plain template
  have hplain : CloneHost.plain.cloneTemplate template.dir = (cloned, .ok ()) := by
    rw [← hcloned]
    exact copyEntries_plain [] _ template.dir
  have houtcome : CloneHost.plain.faults.outcome template.cloneSteps =
      (putsOf template.cloneSteps, .ok ()) := Faults.outcome_of_none fun _ _ => rfl
  have htree := hcopies.tree
  rw [hplain, houtcome] at htree
  rw [← htree]
  exact hspec q hq

/-- A user data directory that is a complete copy of the template's directories and regular
files, or empty. -/
def WholeOrEmpty (template : FileDir) (userDataDir : DirTree) : Prop :=
  (∀ q, q ≠ [] → userDataDir q = template.kindAt q) ∨ ∀ q, q ≠ [] → userDataDir q = none

/-- The first operation that fails, if any does, has nothing put in place before it and leaves
nothing, or all is in place with what it leaves. -/
def CloneHost.FailsCleanly (host : CloneHost) (steps : List (Step CloneOp Put)) : Prop :=
  ∀ done step rest, steps = done ++ step :: rest →
    (∀ other ∈ done, host.fails other.op = none) → host.fails step.op ≠ none →
    putsOf done ++ host.leaves step.op = [] ∨ host.leaves step.op = putsOf (step :: rest)

theorem cloneTemplate_whole (hall : ∀ step ∈ template.cloneSteps, host.fails step.op = none) :
    WholeOrEmpty template (host.cloneTemplate template.dir).1 := by
  have houtcome : host.faults.outcome template.cloneSteps = (putsOf template.cloneSteps, .ok ()) :=
    Faults.outcome_of_none hall
  have htree := (cloneTemplate_copiesAs host template).tree
  rw [houtcome] at htree
  left
  intro q hq
  rw [htree]
  exact place_cloneSteps template hq

/-- A clone that failed is whole or empty if and only if it did so cleanly. -/
theorem cloneTemplate_failed {done rest : List (Step CloneOp Put)} {step : Step CloneOp Put}
    (hsteps : template.cloneSteps = done ++ step :: rest)
    (hdone : ∀ other ∈ done, host.fails other.op = none) (hstep : host.fails step.op = some e) :
    (host.cloneTemplate template.dir).2 = .error e ∧
      (WholeOrEmpty template (host.cloneTemplate template.dir).1 ↔
        putsOf done ++ host.leaves step.op = [] ∨
          host.leaves step.op = putsOf (step :: rest)) := by
  have hcopies := cloneTemplate_copiesAs host template
  have houtcome : host.faults.outcome template.cloneSteps =
      (putsOf done ++ host.leaves step.op, .error e) := by
    rw [hsteps]
    exact Faults.outcome_of_stop hdone hstep
  have htree := hcopies.tree
  have hunder := hcopies.under
  rw [houtcome] at htree hunder
  have hresult := hcopies.result
  rw [houtcome] at hresult
  refine ⟨hresult, ?_⟩
  have hnodup : ((putsOf done ++ putsOf (step :: rest)).map Prod.fst).Nodup := by
    rw [← putsOf_append, ← hsteps]
    exact ((Node.dir template.dir).puts_apart template.sound []).1
  have hcopy : CopyPuts step := by
    have hmem : step ∈ template.cloneSteps := by
      rw [hsteps]
      exact List.mem_append_right done List.mem_cons_self
    cases hmem with
    | head => exact .of_ne (by simp)
    | tail _ hmem => exact Node.copy_puts _ _ step hmem
  have hroot : ∀ puts : List Put, (∀ put ∈ puts, put.1 ≠ []) →
      FileTree.place puts (fun _ => none) [] = none :=
    fun puts hputs => FileTree.place_of_not_mem hputs _
  constructor
  · intro hwhole
    cases hwhole with
    | inl hwhole =>
      right
      apply FileTree.place_stopped hnodup (host.leaves_cases hcopy (putsOf rest))
      funext q
      by_cases hq : q = []
      · rw [hq, hroot _ hunder, ← putsOf_append, ← hsteps, hroot _ (puts_ne_root template)]
      · rw [← htree, ← putsOf_append, ← hsteps, place_cloneSteps template hq]
        exact hwhole q hq
    | inr hempty =>
      left
      apply List.eq_nil_iff_forall_not_mem.mpr
      intro put hput
      have hthere := FileTree.place_ne_none ⟨put, hput, rfl⟩ (fun _ => none)
      rw [← htree] at hthere
      exact hthere (hempty put.1 (hunder put hput))
  · intro hclean
    cases hclean with
    | inl hnothing =>
      right
      intro q _
      rw [htree, hnothing]
      rfl
    | inr hall =>
      left
      intro q hq
      rw [htree, hall, ← putsOf_append, ← hsteps]
      exact place_cloneSteps template hq

end

/-- The operations of the factory that are about the user data directory. -/
def FactoryOp.provisions : FactoryOp → Bool
  | cloneTemplate _ _ | createDirAll _ => true
  | _ => false

/-- What an operation does to the user data directory of a new session, of which there is nothing
before the clone. A blocking task that is not joined has not begun; making the directory where it
is already succeeds. -/
inductive ProvisionEffect (host : CloneHost) (template : FileDir) (s : DirTree) :
    (op : FactoryOp) → op.Answer → DirTree → Prop
  | cloned (h : host.cloneTemplate template.dir = (tree, result)) :
      ProvisionEffect host template s (.cloneTemplate path dirs) (.ok result) tree
  | notRun : ProvisionEffect host template s (.cloneTemplate path dirs) (.error e) s
  | dirMade : ProvisionEffect host template s (.createDirAll dirs) (.ok ()) s
  | dirFailed : ProvisionEffect host template s (.createDirAll dirs) (.error e) s
  | other (h : op.provisions = false) : ProvisionEffect host template s op answer s

/-- The host of one `provision_dirs`, on which the clone of a template comes out one way. -/
def provisionHost (host : CloneHost) (template : FileDir) :
    Host FactoryOp FactoryOp.Answer DirTree where
  does s op answer t := ProvisionEffect host template s op answer t
  drops s op t := op.awaits = true ∧
    (t = s ∨ op.detached = true ∧ ∃ answer, ProvisionEffect host template s op answer t)

section
variable {host : CloneHost} {template : FileDir} {f : ChromeFactory}

theorem cloneTemplate_wholeOrEmpty (h : host.FailsCleanly template.cloneSteps) :
    WholeOrEmpty template (host.cloneTemplate template.dir).1 := by
  rcases host.faults.first_failure template.cloneSteps with
    hall | ⟨done, step, rest, e, hsteps, hdone, hstep⟩
  · exact cloneTemplate_whole hall
  · have hfails : host.fails step.op ≠ none := by
      intro hnone
      cases hnone.symm.trans hstep
    exact (cloneTemplate_failed hsteps hdone hstep).2.mpr (h done step rest hsteps hdone hfails)

/-- The plain directory is the one that is there already. -/
theorem provisionPlain_ends {s : DirTree} (dataDir id : Text) (hs : WholeOrEmpty template s) :
    (SessionDirs.provisionPlain dataDir id).Ends (provisionHost host template) (fun _ => True)
      (fun _ t => WholeOrEmpty template t) s := by
  refine ⟨fun _ _ => trivial, fun made t hdoes => ?_⟩
  have ht : WholeOrEmpty template t := by
    cases hdoes with
    | other h => cases h
    | dirMade => exact hs
    | dirFailed => exact hs
  cases made with
  | error e => exact ht
  | ok _ => exact ht

theorem provisionDirs_ends (h : host.FailsCleanly template.cloneSteps) :
    f.provisionDirs.Ends (provisionHost host template) (fun _ => True)
      (fun _ t => WholeOrEmpty template t) (fun _ => none) := by
  have hempty : WholeOrEmpty template fun _ => none := .inr fun _ _ => rfl
  refine ⟨fun _ _ => trivial, fun id s hdoes => ?_⟩
  cases hdoes with
  | other =>
    refine ⟨fun _ _ => trivial, fun path s hdoes => ?_⟩
    cases hdoes with
    | other =>
      cases path with
      | none => exact provisionPlain_ends f.dataDir id hempty
      | some path =>
        refine ⟨fun _ _ => trivial, fun cloned s hdoes => ?_⟩
        have hs : WholeOrEmpty template s := by
          cases hdoes with
          | other h => cases h
          | notRun => exact hempty
          | cloned hclone =>
            have hwhole := cloneTemplate_wholeOrEmpty h
            rw [hclone] at hwhole
            exact hwhole
        cases cloned with
        | error e => exact provisionPlain_ends f.dataDir id hs
        | ok result =>
          cases result with
          | ok _ => exact hs
          | error e => exact provisionPlain_ends f.dataDir id hs

/-- A clone that fails, and the directory it was filling. -/
theorem provisionDirs_runs (f : ChromeFactory)
    (hfailed : (host.cloneTemplate template.dir).2 = .error e) :
    ∃ dirs, f.provisionDirs.Runs (provisionHost host template) (fun _ => none) (some (.ok dirs))
      (host.cloneTemplate template.dir).1 := by
  have hclone : ProvisionEffect host template (fun _ => none)
      (.cloneTemplate (text "t") (SessionDirs.new f.dataDir (text "a"))) (.ok (.error e))
      (host.cloneTemplate template.dir).1 := .cloned (Prod.ext rfl hfailed)
  refine ⟨SessionDirs.new f.dataDir (text "a"), ?_⟩
  refine Program.Runs.goesOn (text "a") (ProvisionEffect.other rfl) ?_
  refine Program.Runs.goesOn (some (text "t")) (ProvisionEffect.other rfl) ?_
  refine Program.Runs.goesOn (.ok (.error e)) hclone ?_
  refine Program.Runs.goesOn (.ok ()) ProvisionEffect.dirMade ?_
  exact .done

end

/-- The user data directory that a session gets is a complete copy of its template or empty, in
every run, if and only if the clone fails cleanly where it fails. -/
theorem whole_or_empty_iff (f : ChromeFactory) (host : CloneHost) (template : FileDir) :
    (∀ dirs t, f.provisionDirs.Runs (provisionHost host template) (fun _ => none)
        (some (.ok dirs)) t → WholeOrEmpty template t) ↔
      host.FailsCleanly template.cloneSteps := by
  constructor
  · intro hall done step rest hsteps hdone hfails
    obtain ⟨e, hstep⟩ := Option.ne_none_iff_exists'.mp hfails
    obtain ⟨hfailed, hiff⟩ := cloneTemplate_failed hsteps hdone hstep
    obtain ⟨dirs, hrun⟩ := provisionDirs_runs f hfailed
    exact hiff.mp (hall dirs _ hrun)
  · intro hclean dirs t hrun
    exact hrun.ends (provisionDirs_ends hclean)

/-- A template with two databases, and a disk that is full after the first. -/
def twoFiles : FileDir where
  dir := .cons "Cookies" (.file (.ok [1])) (.cons "History" (.file (.ok [2])) .nil)
  sound := by
    have hcookies : ValidName "Cookies" := ⟨by decide, by decide, by decide, by decide⟩
    have hhistory : ValidName "History" := ⟨by decide, by decide, by decide, by decide⟩
    exact ⟨hcookies, by decide, ⟨_, rfl⟩, hhistory, by decide, ⟨_, rfl⟩, trivial⟩

def fullDisk : CloneHost where
  fails op := if op = .copy ["History"] then some "no space left on device" else none
  left _ := none

/-- The session is given the half of the template that was copied. -/
theorem half_template_provisioned :
    ∃ dirs t, (ChromeFactory.new (LoadedConfig.default 4) FactoryHost.plain).provisionDirs.Runs
        (provisionHost fullDisk twoFiles) (fun _ => none) (some (.ok dirs)) t ∧
      t ["Cookies"] = some (.file [1]) ∧ t ["History"] = none ∧
      twoFiles.kindAt ["History"] = some (.file [2]) ∧ ¬ WholeOrEmpty twoFiles t := by
  obtain ⟨dirs, hrun⟩ := provisionDirs_runs
    (ChromeFactory.new (LoadedConfig.default 4) FactoryHost.plain)
    (show (fullDisk.cloneTemplate twoFiles.dir).2 = .error "no space left on device" from rfl)
  refine ⟨dirs, _, hrun, rfl, rfl, rfl, fun hwhole => ?_⟩
  cases hwhole with
  | inl hwhole => cases hwhole ["History"] (by simp)
  | inr hempty => cases hempty ["Cookies"] (by simp)

end BrowserServe
