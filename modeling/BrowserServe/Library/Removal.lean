import BrowserServe.Library.FileTree

namespace BrowserServe.Library
set_option autoImplicit true

/-- What becomes of the calls that look at entries and remove them: the errors of those that
fail, what is found behind a link, and what a directory that could not be removed has lost. -/
structure Removals (ν β : Type) where
  stat : List ν → Option FsError
  stat_ne_notFound : ∀ path, stat path ≠ some .notFound
  beyond : List ν → Except FsError (FileKind β)
  file : List ν → Option FsError
  dir : List ν → Option (FsError × (List ν → Bool))

namespace FileTree
variable {ν β : Type}

/-- Only directories have anything below them. -/
def Closed (tree : FileTree ν β) : Prop :=
  ∀ q r, q ≠ [] → r ≠ [] → tree (q ++ r) ≠ none → tree q = some .dir

/-- What there is at a path, a link not followed. -/
def symlinkMetadata (host : Removals ν β) (path : List ν) (tree : FileTree ν β) :
    Except FsError (FileKind β) :=
  match host.stat path with
  | some e => .error e
  | none =>
    if path.dropLast = [] then (tree path).elim (.error .notFound) .ok
    else
      match tree path.dropLast with
      | none => .error .notFound
      | some .dir => (tree path).elim (.error .notFound) .ok
      | some (.file _) => .error .notADirectory
      | some .other => host.beyond path

variable [DecidableEq ν]

/-- The tree with nothing at a path or below it. -/
def without (path : List ν) (tree : FileTree ν β) : FileTree ν β :=
  fun q => if path <+: q then none else tree q

def removeFile (host : Removals ν β) (path : List ν) (tree : FileTree ν β) :
    FileTree ν β × Except FsError Unit :=
  match host.file path with
  | none => (tree.without path, .ok ())
  | some e => (tree, .error e)

def removeDirAll (host : Removals ν β) (path : List ν) (tree : FileTree ν β) :
    FileTree ν β × Except FsError Unit :=
  match host.dir path with
  | none => (tree.without path, .ok ())
  | some (e, gone) => (fun q => if path <+: q ∧ gone q = true then none else tree q, .error e)

/-- Nothing stands in the way of removing what there is at a path. -/
def Clears (host : Removals ν β) (path : List ν) (tree : FileTree ν β) : Prop :=
  match symlinkMetadata host path tree with
  | .ok .dir => host.dir path = none
  | .ok _ => host.file path = none
  | .error e => e = .notFound

theorem Closed.without {tree : FileTree ν β} (h : tree.Closed) (path : List ν) :
    (tree.without path).Closed := by
  intro q r hq hr hsome
  have hnot : ¬ path <+: q ++ r := by
    intro hunder
    exact hsome (if_pos hunder)
  rw [FileTree.without, if_neg hnot] at hsome
  rw [FileTree.without, if_neg fun hunder => hnot (hunder.trans (List.prefix_append q r))]
  exact h q r hq hr hsome

omit [DecidableEq ν] in
/-- Where nothing is there is nothing below. -/
theorem Closed.none_below {tree : FileTree ν β} (h : tree.Closed) {path : List ν}
    (hpath : path ≠ []) (hnot : tree path ≠ some .dir) {r : List ν} (hr : r ≠ []) :
    tree (path ++ r) = none := by
  by_contra hsome
  exact hnot (h path r hpath hr hsome)

omit [DecidableEq ν] in
theorem Closed.none_of_parent {tree : FileTree ν β} (h : tree.Closed) {path : List ν}
    (hparent : path.dropLast ≠ []) (hnot : tree path.dropLast ≠ some .dir) (r : List ν) :
    tree (path ++ r) = none := by
  have hpath : path ≠ [] := by
    rintro rfl
    exact hparent rfl
  have hsplit : path ++ r = path.dropLast ++ (path.getLast hpath :: r) := by
    rw [← List.singleton_append, ← List.append_assoc, List.dropLast_concat_getLast]
  rw [hsplit]
  exact h.none_below hparent hnot (List.cons_ne_nil _ _)

omit [DecidableEq ν] in
/-- What is not found is not there, nor anything below it. -/
theorem Closed.none_of_notFound {host : Removals ν β} {tree : FileTree ν β} (h : tree.Closed)
    {path : List ν} (hpath : path ≠ [])
    (hstat : tree.symlinkMetadata host path = .error .notFound) (r : List ν) :
    tree (path ++ r) = none := by
  have hself (hnone : (tree path).elim (.error .notFound) Except.ok =
      (.error .notFound : Except FsError (FileKind β))) : tree (path ++ r) = none := by
    have hpathNone : tree path = none := by
      cases hkind : tree path with
      | none => rfl
      | some kind =>
        rw [hkind] at hnone
        cases hnone
    by_cases hr : r = []
    · rw [hr, List.append_nil, hpathNone]
    · exact h.none_below hpath (by rw [hpathNone]; exact fun he => by cases he) hr
  unfold symlinkMetadata at hstat
  cases hfails : host.stat path with
  | some e =>
    rw [hfails] at hstat
    cases hstat
    exact absurd hfails (host.stat_ne_notFound path)
  | none =>
    rw [hfails] at hstat
    dsimp only at hstat
    by_cases hparent : path.dropLast = []
    · rw [if_pos hparent] at hstat
      exact hself hstat
    · rw [if_neg hparent] at hstat
      cases hkind : tree path.dropLast with
      | none => exact h.none_of_parent hparent (by rw [hkind]; exact fun he => by cases he) r
      | some kind =>
        cases kind with
        | dir =>
          rw [hkind] at hstat
          exact hself hstat
        | file contents =>
          rw [hkind] at hstat
          cases hstat
        | other => exact h.none_of_parent hparent (by rw [hkind]; exact fun he => by cases he) r

theorem without_eq_self {tree : FileTree ν β} {path : List ν}
    (h : ∀ r, tree (path ++ r) = none) : tree.without path = tree := by
  funext q
  by_cases hunder : path <+: q
  · obtain ⟨r, rfl⟩ := hunder
    rw [without, if_pos (List.prefix_append path r), h]
  · exact if_neg hunder

theorem symlinkMetadata_without {host : Removals ν β} {tree : FileTree ν β} {p path : List ν}
    (h : ¬ p <+: path) :
    (tree.without p).symlinkMetadata host path = tree.symlinkMetadata host path := by
  have hself : tree.without p path = tree path := if_neg h
  have hparent : tree.without p path.dropLast = tree path.dropLast :=
    if_neg fun hunder => h (hunder.trans (List.dropLast_prefix path))
  simp only [symlinkMetadata, hself, hparent]

/-- Removing one thing does not stand in the way of removing another. -/
theorem clears_without {host : Removals ν β} {tree : FileTree ν β} {p path : List ν}
    (h : ¬ p <+: path) : (tree.without p).Clears host path ↔ tree.Clears host path := by
  unfold Clears
  rw [symlinkMetadata_without h]

end FileTree

end BrowserServe.Library
