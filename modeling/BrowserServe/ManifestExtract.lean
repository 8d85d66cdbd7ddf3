import BrowserServe.Library.PathWalk
import BrowserServe.ManifestSeed

namespace BrowserServe
open Library
set_option autoImplicit true

/-- The whole file system, with what a tree of directories and files leaves out. -/
abbrev Disk := FileSystem (List UInt8)

namespace OnDisk
variable (os : Os (List UInt8))

def safeJoin (root : List Component) (rel : String) : Option (List Component) :=
  (BrowserServe.safeJoin rel).map fun names => root ++ names.map .normal

def writeNoFollow (path : List Component) (bytes : List UInt8) (disk : Disk) :
    Except FsError Disk :=
  os.make (.file bytes) path disk

/-- The loop of `extract_into`, which stops where it fails. -/
def extractEntries (root : List Component) (written : Nat) : List ManifestEntry → Disk →
    Disk × Except ExtractError Nat
  | [], disk => (disk, .ok written)
  | entry :: entries, disk =>
    match safeJoin root entry.path with
    | none => (disk, .error (.unsafePath entry.path))
    | some target =>
      match os.createDirAll target.dropLast disk with
      | (disk, .error e) => (disk, .error (.io e))
      | (disk, .ok ()) =>
        match writeNoFollow os target entry.bytes disk with
        | .error e => (disk, .error (.io e))
        | .ok disk => extractEntries root (written + 1) entries disk

def extractInto (entries : List ManifestEntry) (destRoot : Text) (disk : Disk) :
    Disk × Except ExtractError Nat :=
  match os.createDirAll (components destRoot) disk with
  | (disk, .error e) => (disk, .error (.io e))
  | (disk, .ok ()) => extractEntries os (components destRoot) 0 entries disk

end OnDisk

/-- What an extraction does, when it has written a part of the manifest. -/
structure Extracted (root : List String) (written : List ManifestEntry) (disk disk' : Disk) :
    Prop where
  grown : Grown root disk disk'
  files : ∀ p bytes, disk' p = some (.file bytes) ↔ disk p = some (.file bytes) ∨
    ∃ entry ∈ written, ∃ names, safeJoin entry.path = some names ∧ p = root ++ names ∧
      bytes = entry.bytes
  fresh : ∀ entry ∈ written, ∃ names, safeJoin entry.path = some names ∧
    disk (root ++ names) = none
  dirs : ∀ entry ∈ written, ∀ names, safeJoin entry.path = some names →
    ∀ q, q ≠ [] → q <+: names → q ≠ names → disk' (root ++ q) = some .dir
  apart : written.Pairwise fun e f => safeJoin e.path ≠ safeJoin f.path

section
variable {os : Os (List UInt8)} {root : List String} {base : List Component}
  {disk disk' disk'' : Disk} {entry : ManifestEntry} {written entries : List ManifestEntry}

theorem safeJoin_ne_nil (h : safeJoin rel = some names) : names ≠ [] := by
  unfold safeJoin at h
  split at h
  · cases h
  · split at h
    · cases h
      exact List.cons_ne_nil _ _
    · cases h

theorem Extracted.none (hgrown : Grown root disk disk') (hdirs : OnlyDirs disk disk') :
    Extracted root [] disk disk' where
  grown := hgrown
  files p bytes := by simp [hdirs.file_iff]
  fresh _ hentry := absurd hentry List.not_mem_nil
  dirs _ hentry := absurd hentry List.not_mem_nil
  apart := .nil

/-- A turn of the loop that writes. -/
theorem Library.Rooted.write (h : Rooted os base root disk)
    (hjoin : safeJoin entry.path = some names)
    (hgrown : Grown root disk disk') (hdirs : OnlyDirs disk disk')
    (hwrite : OnDisk.writeNoFollow os (base ++ names.map .normal) entry.bytes disk' = .ok disk'') :
    Extracted root [entry] disk disk'' := by
  have hnames := safeJoin_ne_nil hjoin
  obtain ⟨hnone, habove, rfl⟩ := (h.grown hgrown).make hnames hwrite
  have hset : Grown root disk' fun q =>
      if q = root ++ names then some (.file entry.bytes) else disk' q :=
    .set hnone hnames nofun
  refine ⟨hgrown.trans hset, ?_, ?_, ?_, List.pairwise_singleton _ _⟩
  · intro p bytes
    have hentry : (∃ e ∈ [entry], ∃ other, safeJoin e.path = some other ∧ p = root ++ other ∧
        bytes = e.bytes) ↔ p = root ++ names ∧ bytes = entry.bytes := by
      simp [hjoin]
    rw [hentry]
    by_cases hp : p = root ++ names
    · subst hp
      have hbefore : disk (root ++ names) ≠ some (.file bytes) := by
        rw [Ne, ← hdirs.file_iff, hnone]
        nofun
      simp only [if_true, true_and, hbefore, false_or, Option.some.injEq, Inode.file.injEq]
      exact eq_comm
    · simp only [hp, false_and, or_false]
      exact hdirs.file_iff
  · intro e he
    cases List.mem_singleton.mp he
    refine ⟨names, hjoin, ?_⟩
    cases hbefore : disk (root ++ names) with
    | none => rfl
    | some node =>
      rw [hdirs.kept hbefore] at hnone
      cases hnone
  · intro e he other hother q hq hunder hne
    cases List.mem_singleton.mp he
    cases hjoin.symm.trans hother
    exact hset.kept _ _ (habove q hq hunder hne)

/-- After a first entry the others are written. -/
theorem Extracted.cons (hfirst : Extracted root [entry] disk disk')
    (hrest : Extracted root written disk' disk'') :
    Extracted root (entry :: written) disk disk'' := by
  obtain ⟨names, hjoin, hnone⟩ := hfirst.fresh entry (List.mem_singleton_self _)
  have hfile : disk' (root ++ names) = some (.file entry.bytes) :=
    (hfirst.files _ _).mpr (.inr ⟨entry, List.mem_singleton_self _, names, hjoin, rfl, rfl⟩)
  have hbefore : ∀ p, disk' p = .none → disk p = .none := by
    intro p hp
    cases hnode : disk p with
    | none => rfl
    | some node =>
      rw [hfirst.grown.kept p node hnode] at hp
      cases hp
  refine ⟨hfirst.grown.trans hrest.grown, ?_, ?_, ?_, ?_⟩
  · intro p bytes
    rw [hrest.files, hfirst.files]
    simp only [List.mem_cons, List.not_mem_nil, or_and_right, exists_or, or_assoc, false_and,
      exists_false, false_or]
  · intro e he
    rcases List.mem_cons.mp he with rfl | he
    · exact ⟨names, hjoin, hnone⟩
    · obtain ⟨other, hother, hfresh⟩ := hrest.fresh e he
      exact ⟨other, hother, hbefore _ hfresh⟩
  · intro e he other hother q hq hunder hne
    rcases List.mem_cons.mp he with rfl | he
    · exact hrest.grown.kept _ _
        (hfirst.dirs e (List.mem_singleton_self _) other hother q hq hunder hne)
    · exact hrest.dirs e he other hother q hq hunder hne
  · refine List.pairwise_cons.mpr ⟨?_, hrest.apart⟩
    intro e he hsame
    obtain ⟨other, hother, hfresh⟩ := hrest.fresh e he
    rw [hjoin, hother] at hsame
    cases hsame
    rw [hfile] at hfresh
    cases hfresh

/-- A run of the loop writes the entries before the one it fails at. -/
theorem Library.Rooted.extractEntries (h : Rooted os base root disk) (count : Nat)
    (hrun : OnDisk.extractEntries os base count entries disk = (disk', result)) :
    ∃ written, written <+: entries ∧ Extracted root written disk disk' ∧
      ∀ n, result = .ok n → written = entries ∧ n = count + entries.length := by
  induction entries generalizing count disk with
  | nil =>
    cases hrun
    refine ⟨[], List.prefix_rfl, .none (.refl root _) (.refl _), ?_⟩
    rintro n hn
    cases hn
    exact ⟨rfl, rfl⟩
  | cons entry entries ih =>
    rw [OnDisk.extractEntries, OnDisk.safeJoin] at hrun
    cases hjoin : safeJoin entry.path with
    | none =>
      rw [hjoin] at hrun
      cases hrun
      exact ⟨[], List.nil_prefix, .none (.refl root _) (.refl _), nofun⟩
    | some names =>
      have hnames := safeJoin_ne_nil hjoin
      have hparent : (base ++ names.map Component.normal).dropLast =
          base ++ names.dropLast.map .normal := by
        rw [List.dropLast_append_of_ne_nil (by simpa using hnames), List.map_dropLast]
      have hgrown := h.createDirAll names.dropLast
      have hdirs : OnlyDirs disk (os.createDirAll (base ++ names.dropLast.map .normal) disk).1 :=
        os.createDirs_onlyDirs _ disk
      simp only [hjoin, Option.map_some, hparent] at hrun
      generalize hmade : os.createDirAll (base ++ names.dropLast.map .normal) disk = made
        at hrun hgrown hdirs
      obtain ⟨disk₁, made⟩ := made
      cases made with
      | error e =>
        cases hrun
        exact ⟨[], List.nil_prefix, .none hgrown hdirs, nofun⟩
      | ok _ =>
        dsimp only at hrun
        cases hwrite : OnDisk.writeNoFollow os (base ++ names.map .normal) entry.bytes disk₁ with
        | error e =>
          rw [hwrite] at hrun
          cases hrun
          exact ⟨[], List.nil_prefix, .none hgrown hdirs, nofun⟩
        | ok disk₂ =>
          rw [hwrite] at hrun
          have hfirst := h.write hjoin hgrown hdirs hwrite
          obtain ⟨written, hprefix, hrest, hcount⟩ := ih (h.grown hfirst.grown) (count + 1) hrun
          refine ⟨entry :: written, List.cons_prefix_cons.mpr ⟨rfl, hprefix⟩, hfirst.cons hrest, ?_⟩
          intro n hn
          obtain ⟨rfl, rfl⟩ := hcount n hn
          refine ⟨rfl, ?_⟩
          rw [List.length_cons]
          omega

end

end BrowserServe
