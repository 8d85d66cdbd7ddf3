import BrowserServe.TemplateClone

namespace BrowserServe
open Library
set_option autoImplicit true

inductive ExtractError where
  | unsafePath (path : String)
  | io (error : FsError)
  deriving DecidableEq

/-- The components of a path that is joined to a root, when all of them are normal. -/
def normalNames : List Component → Option (List String)
  | [] => some []
  | .normal name :: rest => (normalNames rest).map (name :: ·)
  | _ :: _ => none

/-- `safe_join`, from the root on. -/
def safeJoin (rel : String) : Option (List String) :=
  if rel.toList.head? = some '/' then none
  else
    match normalNames (components rel.toList) with
    | some (name :: names) => some (name :: names)
    | _ => none

def writeNoFollow (path : List String) (bytes : List UInt8) (tree : DirTree) :
    Except FsError DirTree :=
  tree.createNew path bytes

/-- The loop of `extract_into`, which stops where it fails. -/
def extractEntries (written : Nat) : List ManifestEntry → DirTree →
    DirTree × Except ExtractError Nat
  | [], tree => (tree, .ok written)
  | entry :: entries, tree =>
    match safeJoin entry.path with
    | none => (tree, .error (.unsafePath entry.path))
    | some target =>
      match tree.createDirAll target.dropLast with
      | .error e => (tree, .error (.io e))
      | .ok tree =>
        match writeNoFollow target entry.bytes tree with
        | .error e => (tree, .error (.io e))
        | .ok tree => extractEntries (written + 1) entries tree

def extractInto (entries : List ManifestEntry) (tree : DirTree) :
    DirTree × Except ExtractError Nat :=
  extractEntries 0 entries tree

/-- The files `create_seeded` gives its browser: those of the template and of the manifest. -/
def seedDirs (indexeddb : List ManifestEntry) (tree : DirTree) :
    DirTree × Except ExtractError Nat :=
  if indexeddb.isEmpty then (tree, .ok 0) else extractInto indexeddb tree

mutual

/-- The regular files of a tree that is at a path. -/
def Node.files (path : List String) : Node → List (List String × List UInt8)
  | .dir entries => entries.files path
  | .file (.ok bytes) => [(path, bytes)]
  | _ => []

def Dir.files (path : List String) : Dir → List (List String × List UInt8)
  | .cons name node rest => node.files (path ++ [name]) ++ rest.files path
  | _ => []

end

def entryOf (file : List String × List UInt8) : ManifestEntry :=
  ⟨String.ofList (joinPath file.1), file.2⟩

theorem ofList_joinPath_concat {path : List String} (hpath : path ≠ []) (name : String) :
    String.ofList (joinPath path) ++ "/" ++ name = String.ofList (joinPath (path ++ [name])) := by
  apply String.toList_inj.1
  rw [joinPath_concat hpath]
  simp

mutual

theorem packNode_sound {node : Node} (h : node.Sound) {path : List String} (hpath : path ≠ [])
    (out : List ManifestEntry) :
    packNode (String.ofList (joinPath path)) out node =
      .ok (out ++ (node.files path).map entryOf) := by
  match node with
  | .dir entries => exact packWalk_sound (d := entries) h hpath out
  | .file bytes =>
    obtain ⟨contents, rfl⟩ := h
    rfl
  | .other => simp [packNode, Node.files]
  | .unreadable _ => exact absurd h id

theorem packWalk_sound {d : Dir} (h : d.Sound) {path : List String} (hpath : path ≠ [])
    (out : List ManifestEntry) :
    packWalk (String.ofList (joinPath path)) out d = .ok (out ++ (d.files path).map entryOf) := by
  match d with
  | .nil => simp [packWalk, Dir.files]
  | .failed _ => exact absurd h id
  | .cons name node rest =>
    obtain ⟨_, _, hnode, hrest⟩ := h
    have hname : path ++ [name] ≠ [] := by simp
    have hfirst := packNode_sound hnode hname out
    have htail := packWalk_sound hrest hpath (out ++ (node.files (path ++ [name])).map entryOf)
    rw [packWalk, ofList_joinPath_concat hpath, hfirst]
    simp only [bind, Except.bind, htail, Dir.files, List.map_append, List.append_assoc]

end

/-- Neither of two paths leads to the other. -/
def Apart (p q : List String) : Prop := ¬ p <+: q ∧ ¬ q <+: p

theorem apart_of_names {path p q : List String} {a b : String} (hne : a ≠ b)
    (hp : path ++ [a] <+: p) (hq : path ++ [b] <+: q) : Apart p q := by
  have hcut : ∀ {r}, path ++ [a] <+: r → path ++ [b] <+: r → False := by
    intro r ha hb
    have heq := (List.prefix_of_prefix_length_le ha hb (by simp)).eq_of_length (by simp)
    exact hne (by simpa using heq)
  exact ⟨fun h => hcut (hp.trans h) hq, fun h => hcut hp (hq.trans h)⟩

mutual

theorem Node.files_prefix {node : Node} {path : List String} :
    ∀ f ∈ node.files path, path <+: f.1 := by
  intro f hf
  match node with
  | .dir entries =>
    obtain ⟨name, _, hprefix⟩ := Dir.files_prefix (d := entries) f hf
    exact (List.prefix_append path [name]).trans hprefix
  | .file (.ok bytes) =>
    rw [List.mem_singleton.1 hf]
  | .file (.error _) => exact absurd hf List.not_mem_nil
  | .other => exact absurd hf List.not_mem_nil
  | .unreadable _ => exact absurd hf List.not_mem_nil

theorem Dir.files_prefix {d : Dir} {path : List String} :
    ∀ f ∈ d.files path, ∃ name ∈ d.names, path ++ [name] <+: f.1 := by
  intro f hf
  match d with
  | .nil => exact absurd hf List.not_mem_nil
  | .failed _ => exact absurd hf List.not_mem_nil
  | .cons name node rest =>
    cases List.mem_append.1 hf with
    | inl hnode => exact ⟨name, List.mem_cons_self, Node.files_prefix f hnode⟩
    | inr hrest =>
      obtain ⟨other, hother, hprefix⟩ := Dir.files_prefix (d := rest) f hrest
      exact ⟨other, List.mem_cons_of_mem _ hother, hprefix⟩

end

mutual

theorem Node.files_apart {node : Node} (h : node.Sound) (path : List String) :
    (node.files path).Pairwise fun f g => Apart f.1 g.1 := by
  match node with
  | .dir entries => exact Dir.files_apart (d := entries) h path
  | .file bytes =>
    obtain ⟨contents, rfl⟩ := h
    exact List.pairwise_singleton _ _
  | .other => exact .nil
  | .unreadable _ => exact absurd h id

theorem Dir.files_apart {d : Dir} (h : d.Sound) (path : List String) :
    (d.files path).Pairwise fun f g => Apart f.1 g.1 := by
  match d with
  | .nil => exact .nil
  | .failed _ => exact absurd h id
  | .cons name node rest =>
    obtain ⟨_, hfresh, hnode, hrest⟩ := h
    apply List.pairwise_append.2
    refine ⟨Node.files_apart hnode _, Dir.files_apart hrest path, ?_⟩
    intro f hf g hg
    obtain ⟨other, hother, hprefix⟩ := Dir.files_prefix g hg
    apply apart_of_names _ (Node.files_prefix f hf) hprefix
    rintro rfl
    exact hfresh hother

end

mutual

theorem Node.files_valid {node : Node} (h : node.Sound) {path : List String}
    (hpath : ∀ name ∈ path, ValidName name) :
    ∀ f ∈ node.files path, ∀ name ∈ f.1, ValidName name := by
  match node with
  | .dir entries => exact Dir.files_valid (d := entries) h hpath
  | .file bytes =>
    obtain ⟨contents, rfl⟩ := h
    intro f hf
    rw [List.mem_singleton.1 hf]
    exact hpath
  | .other => exact fun _ hf => absurd hf List.not_mem_nil
  | .unreadable _ => exact absurd h id

theorem Dir.files_valid {d : Dir} (h : d.Sound) {path : List String}
    (hpath : ∀ name ∈ path, ValidName name) :
    ∀ f ∈ d.files path, ∀ name ∈ f.1, ValidName name := by
  match d with
  | .nil => exact fun _ hf => absurd hf List.not_mem_nil
  | .failed _ => exact absurd h id
  | .cons name node rest =>
    obtain ⟨hname, _, hnode, hrest⟩ := h
    have hlonger : ∀ other ∈ path ++ [name], ValidName other := by
      intro other hother
      cases List.mem_append.1 hother with
      | inl hold => exact hpath other hold
      | inr hnew =>
        rw [List.mem_singleton.1 hnew]
        exact hname
    intro f hf
    cases List.mem_append.1 hf with
    | inl hfirst => exact Node.files_valid hnode hlonger f hfirst
    | inr hlater => exact Dir.files_valid hrest hpath f hlater

end

def NATIVE_STORE_PATHS : List (List String) :=
  [["Default", "IndexedDB"], ["Default", "Service Worker"]]

/-- The native stores of a session's directory, as it was left. -/
structure NativeStores where
  indexedDb : Option FileDir
  serviceWorker : Option FileDir

/-- What `pack_native` finds at the path of a native store. -/
def NativeStores.store (stores : NativeStores) (path : String) : Option Dir :=
  if path = "Default/IndexedDB" then stores.indexedDb.map FileDir.dir
  else if path = "Default/Service Worker" then stores.serviceWorker.map FileDir.dir
  else none

def storeFiles (path : List String) (store : Option FileDir) : List (List String × List UInt8) :=
  (store.map fun d => d.dir.files path).getD []

def NativeStores.files (stores : NativeStores) : List (List String × List UInt8) :=
  storeFiles ["Default", "IndexedDB"] stores.indexedDb ++
    storeFiles ["Default", "Service Worker"] stores.serviceWorker

/-- A path in one of the native stores. -/
def InNativeStore (path : List String) : Prop := ∃ store ∈ NATIVE_STORE_PATHS, store <+: path

theorem InNativeStore.ne_nil (h : InNativeStore p) : p ≠ [] := by
  obtain ⟨store, hstore, hprefix⟩ := h
  rintro rfl
  rw [List.prefix_nil.1 hprefix] at hstore
  revert hstore
  decide

theorem packNative_files (stores : NativeStores) :
    packNative stores.store = .ok (stores.files.map entryOf) := by
  have hindexedPath : ["Default", "IndexedDB"] ≠ [] := by nofun
  have hworkerPath : ["Default", "Service Worker"] ≠ [] := by nofun
  have hindexed : ∀ d : FileDir, packWalk "Default/IndexedDB" [] d.dir =
      .ok ((d.dir.files ["Default", "IndexedDB"]).map entryOf) :=
    fun d => packWalk_sound d.sound hindexedPath []
  have hworker : ∀ (d : FileDir) out, packWalk "Default/Service Worker" out d.dir =
      .ok (out ++ (d.dir.files ["Default", "Service Worker"]).map entryOf) :=
    fun d out => packWalk_sound d.sound hworkerPath out
  obtain ⟨indexedDb, serviceWorker⟩ := stores
  cases indexedDb <;> cases serviceWorker <;>
    simp [packNative, NATIVE_STORES, NativeStores.store, NativeStores.files, storeFiles, hindexed,
      hworker, bind, Except.bind, pure, Except.pure]

theorem normalNames_map (names : List String) : normalNames (names.map .normal) = some names := by
  induction names with
  | nil => rfl
  | cons name names ih =>
    rw [List.map_cons, normalNames, ih]
    rfl

theorem safeJoin_entryOf {file : List String × List UInt8} (hpath : file.1 ≠ [])
    (h : ∀ name ∈ file.1, ValidName name) : safeJoin (entryOf file).path = some file.1 := by
  have htext : (entryOf file).path.toList = joinPath file.1 := by simp [entryOf]
  unfold safeJoin
  rw [htext, if_neg (joinPath_head hpath h), components_joinPath hpath h, normalNames_map]
  obtain ⟨name, names, hcons⟩ := List.exists_cons_of_ne_nil hpath
  rw [hcons]

/-- Files that can be written below a root side by side. -/
structure SideBySide (files : List (List String × List UInt8)) : Prop where
  apart : files.Pairwise fun f g => Apart f.1 g.1
  nonempty : ∀ f ∈ files, f.1 ≠ []
  valid : ∀ f ∈ files, ∀ name ∈ f.1, ValidName name

theorem SideBySide.tail (h : SideBySide (file :: files)) : SideBySide files where
  apart := (List.pairwise_cons.1 h.apart).2
  nonempty := fun f hf => h.nonempty f (List.mem_cons_of_mem _ hf)
  valid := fun f hf => h.valid f (List.mem_cons_of_mem _ hf)

/-- One turn of the loop writes one new file, or ends it. -/
theorem extractEntries_cons {file : List String × List UInt8}
    (hjoin : safeJoin (entryOf file).path = some file.1) (written : Nat)
    (entries : List ManifestEntry) (tree : DirTree) :
    (∃ tree', tree.writeNew file.1 file.2 = .ok tree' ∧
      extractEntries written (entryOf file :: entries) tree =
        extractEntries (written + 1) entries tree') ∨
    ∃ e, tree.writeNew file.1 file.2 = .error e ∧
      (extractEntries written (entryOf file :: entries) tree).2 = .error (.io e) := by
  cases hdirs : tree.createDirAll file.1.dropLast with
  | error e =>
    refine .inr ⟨e, ?_, ?_⟩
    · simp only [FileTree.writeNew, hdirs, bind, Except.bind]
    · simp only [extractEntries, hjoin, hdirs]
  | ok made =>
    cases hnew : writeNoFollow file.1 (entryOf file).bytes made with
    | error e =>
      refine .inr ⟨e, ?_, ?_⟩
      · simp only [FileTree.writeNew, hdirs, bind, Except.bind]
        exact hnew
      · simp only [extractEntries, hjoin, hdirs, hnew]
    | ok tree' =>
      refine .inl ⟨tree', ?_, ?_⟩
      · simp only [FileTree.writeNew, hdirs, bind, Except.bind]
        exact hnew
      · simp only [extractEntries, hjoin, hdirs, hnew]

/-- An extraction that succeeds found room for every file, and adds exactly those. -/
theorem extractEntries_ok {files : List (List String × List UInt8)} (hfiles : SideBySide files)
    {written m : Nat} {tree tree' : DirTree}
    (h : extractEntries written (files.map entryOf) tree = (tree', .ok m)) :
    (∀ f ∈ files, tree.Admits f.1) ∧
      ∀ p bytes, tree' p = some (.file bytes) ↔
        (p, bytes) ∈ files ∨ tree p = some (.file bytes) := by
  induction files generalizing written tree with
  | nil =>
    cases h
    refine ⟨fun f hf => absurd hf List.not_mem_nil, ?_⟩
    intro p bytes
    simp
  | cons file files ih =>
    have hpath := hfiles.nonempty file List.mem_cons_self
    have hjoin := safeJoin_entryOf hpath (hfiles.valid file List.mem_cons_self)
    rw [List.map_cons] at h
    obtain ⟨tree₁, hwrite, hstep⟩ | ⟨e, _, hstep⟩ :=
      extractEntries_cons hjoin written (files.map entryOf) tree
    · have hwrote := FileTree.writeNew_ok hpath hwrite
      obtain ⟨hadmits, hexact⟩ := ih hfiles.tail (hstep ▸ h)
      refine ⟨?_, ?_⟩
      · intro f hf
        cases List.mem_cons.1 hf with
        | inl hself =>
          rw [hself]
          exact hwrote.admits
        | inr hlater =>
          obtain ⟨hbelow, habove⟩ := (List.pairwise_cons.1 hfiles.apart).1 f hlater
          exact (hwrote.admits_iff hbelow habove).1 (hadmits f hlater)
      · intro p bytes
        rw [hexact, List.mem_cons]
        have hfirst : tree₁ p = some (.file bytes) ↔
            (p, bytes) = file ∨ tree p = some (.file bytes) := by
          rw [hwrote.file_iff, Prod.ext_iff]
        rw [hfirst, ← or_assoc, or_comm (a := (p, bytes) ∈ files)]
    · rw [h] at hstep
      cases hstep

theorem extractEntries_of_admits {files : List (List String × List UInt8)}
    (hfiles : SideBySide files) (written : Nat) {tree : DirTree}
    (h : ∀ f ∈ files, tree.Admits f.1) :
    ∃ tree', extractEntries written (files.map entryOf) tree =
      (tree', .ok (written + files.length)) := by
  induction files generalizing written tree with
  | nil => exact ⟨tree, rfl⟩
  | cons file files ih =>
    have hpath := hfiles.nonempty file List.mem_cons_self
    have hjoin := safeJoin_entryOf hpath (hfiles.valid file List.mem_cons_self)
    obtain ⟨tree₁, hwrite⟩ := FileTree.writeNew_of_admits (h file List.mem_cons_self) file.2
    have hwrote := FileTree.writeNew_ok hpath hwrite
    have hrest : ∀ f ∈ files, tree₁.Admits f.1 := by
      intro f hf
      obtain ⟨hbelow, habove⟩ := (List.pairwise_cons.1 hfiles.apart).1 f hf
      exact (hwrote.admits_iff hbelow habove).2 (h f (List.mem_cons_of_mem _ hf))
    obtain ⟨tree', htail⟩ := ih hfiles.tail (written + 1) hrest
    obtain ⟨tree₂, hwrite₂, hstep⟩ | ⟨e, herror, _⟩ :=
      extractEntries_cons hjoin written (files.map entryOf) tree
    · rw [hwrite] at hwrite₂
      cases hwrite₂
      refine ⟨tree', ?_⟩
      rw [List.map_cons, hstep, htail, List.length_cons]
      congr 2
      omega
    · rw [hwrite] at herror
      cases herror

theorem NATIVE_STORE_PATHS_valid :
    ∀ path ∈ NATIVE_STORE_PATHS, ∀ name ∈ path, ValidName name := by
  have hdefault : ValidName "Default" := ⟨by decide, by decide, by decide, by decide⟩
  have hindexed : ValidName "IndexedDB" := ⟨by decide, by decide, by decide, by decide⟩
  have hworker : ValidName "Service Worker" := ⟨by decide, by decide, by decide, by decide⟩
  simp [NATIVE_STORE_PATHS, hdefault, hindexed, hworker]

theorem mem_storeFiles {path : List String} {store : Option FileDir}
    (h : f ∈ storeFiles path store) : ∃ d, store = some d ∧ f ∈ d.dir.files path := by
  cases store with
  | none => exact absurd h List.not_mem_nil
  | some d => exact ⟨d, rfl, h⟩

theorem storeFiles_sideBySide {path : List String}
    (hvalid : ∀ name ∈ path, ValidName name) (store : Option FileDir) :
    SideBySide (storeFiles path store) := by
  cases store with
  | none =>
    exact ⟨.nil, fun f hf => absurd hf List.not_mem_nil, fun f hf => absurd hf List.not_mem_nil⟩
  | some d =>
    refine ⟨Dir.files_apart d.sound path, ?_, Dir.files_valid d.sound hvalid⟩
    intro f hf hnil
    obtain ⟨name, _, hprefix⟩ := Dir.files_prefix f hf
    rw [hnil] at hprefix
    simpa using List.prefix_nil.1 hprefix

theorem NativeStores.files_in (stores : NativeStores) :
    ∀ f ∈ stores.files, InNativeStore f.1 := by
  intro f hf
  cases List.mem_append.1 hf with
  | inl hindexed =>
    obtain ⟨d, _, hd⟩ := mem_storeFiles hindexed
    obtain ⟨name, _, hprefix⟩ := Dir.files_prefix f hd
    exact ⟨_, List.mem_cons_self, (List.prefix_append _ _).trans hprefix⟩
  | inr hworker =>
    obtain ⟨d, _, hd⟩ := mem_storeFiles hworker
    obtain ⟨name, _, hprefix⟩ := Dir.files_prefix f hd
    exact ⟨_, List.mem_cons_of_mem _ List.mem_cons_self, (List.prefix_append _ _).trans hprefix⟩

theorem NativeStores.files_sideBySide (stores : NativeStores) : SideBySide stores.files := by
  have hfirst := NATIVE_STORE_PATHS_valid _ List.mem_cons_self
  have hsecond := NATIVE_STORE_PATHS_valid _ (List.mem_cons_of_mem _ List.mem_cons_self)
  have hindexed := storeFiles_sideBySide hfirst stores.indexedDb
  have hworker := storeFiles_sideBySide hsecond stores.serviceWorker
  refine ⟨List.pairwise_append.2 ⟨hindexed.apart, hworker.apart, ?_⟩, ?_, ?_⟩
  · intro f hf g hg
    obtain ⟨d, _, hd⟩ := mem_storeFiles hf
    obtain ⟨d', _, hd'⟩ := mem_storeFiles hg
    obtain ⟨_, _, hp⟩ := Dir.files_prefix f hd
    obtain ⟨_, _, hq⟩ := Dir.files_prefix g hd'
    have hnames : "IndexedDB" ≠ "Service Worker" := by decide
    have hfront : ["Default"] ++ ["IndexedDB"] <+: f.1 := (List.prefix_append _ _).trans hp
    have hback : ["Default"] ++ ["Service Worker"] <+: g.1 := (List.prefix_append _ _).trans hq
    exact apart_of_names hnames hfront hback
  · intro f hf
    exact (List.mem_append.1 hf).elim (hindexed.nonempty f) (hworker.nonempty f)
  · intro f hf
    exact (List.mem_append.1 hf).elim (hindexed.valid f) (hworker.valid f)

/-- A session's native stores, packed and seeded into a clone of the template, are there again
as they were, and nothing else is in their place. -/
def Reseeds (template : FileDir) (stores : NativeStores) : Prop :=
  ∃ entries cloned seeded, packNative stores.store = .ok entries ∧
    cloneTemplate template.dir = (cloned, .ok ()) ∧
    seedDirs entries cloned = (seeded, .ok entries.length) ∧
    ∀ p bytes, InNativeStore p → (seeded p = some (.file bytes) ↔
      ∃ entry ∈ entries, safeJoin entry.path = some p ∧ entry.bytes = bytes)

/-- The template has no file in the native stores, and nothing of it is in the way of a file that
was packed. -/
structure HasRoom (template : FileDir) (stores : NativeStores) : Prop where
  bare : ∀ p bytes, InNativeStore p → template.kindAt p ≠ some (.file bytes)
  free : ∀ f ∈ stores.files, template.kindAt f.1 ≠ some .dir
  passable : ∀ f ∈ stores.files, ∀ q, q ≠ [] → q <+: f.1 → q ≠ f.1 →
    ∀ bytes, template.kindAt q ≠ some (.file bytes)

theorem packed_iff {files : List (List String × List UInt8)} (h : SideBySide files)
    (p : List String) (bytes : List UInt8) :
    (∃ entry ∈ files.map entryOf, safeJoin entry.path = some p ∧ entry.bytes = bytes) ↔
      (p, bytes) ∈ files := by
  have hjoin : ∀ f ∈ files, safeJoin (entryOf f).path = some f.1 :=
    fun f hf => safeJoin_entryOf (h.nonempty f hf) (h.valid f hf)
  constructor
  · rintro ⟨entry, hentry, hpath, rfl⟩
    obtain ⟨f, hf, rfl⟩ := List.mem_map.1 hentry
    rw [hjoin f hf] at hpath
    rw [← Option.some.inj hpath]
    exact hf
  · intro hf
    exact ⟨_, List.mem_map_of_mem hf, hjoin _ hf, rfl⟩

/-- `create_seeded` without files to seed is the extraction of none. -/
theorem seedDirs_eq (indexeddb : List ManifestEntry) (tree : DirTree) :
    seedDirs indexeddb tree = extractInto indexeddb tree := by
  cases indexeddb <;> rfl

/-- A clone admits a packed file where the template has nothing in its way. -/
theorem admits_clone_iff {template : FileDir} {cloned : DirTree}
    (hclone : ∀ q, q ≠ [] → cloned q = template.kindAt q) {p : List String} (hp : p ≠ []) :
    cloned.Admits p ↔ template.kindAt p = none ∧
      ∀ q, q ≠ [] → q <+: p → q ≠ p → ∀ bytes, template.kindAt q ≠ some (.file bytes) := by
  constructor
  · intro h
    refine ⟨(hclone p hp).symm.trans h.free, ?_⟩
    intro q hq hprefix hne bytes hfile
    cases h.parents q hq hprefix hne _ ((hclone q hq).trans hfile)
  · intro h
    refine ⟨(hclone p hp).trans h.1, ?_⟩
    intro q hq hprefix hne kind hkind
    rw [hclone q hq] at hkind
    cases kind with
    | dir => rfl
    | file bytes => exact absurd hkind (h.2 q hq hprefix hne bytes)
    | other => exact absurd hkind (template.kindAt_ne_other q)

/-- What was packed seeds a clone of the template exactly when the template has room for it. -/
theorem reseeds_iff (template : FileDir) (stores : NativeStores) :
    Reseeds template stores ↔ HasRoom template stores := by
  obtain ⟨cloned, hcloned, hclone⟩ := cloneTemplate_spec template
  have hfiles := stores.files_sideBySide
  constructor
  · rintro ⟨entries, cloned', seeded, hpack, hcloned', hseed, hexact⟩
    rw [packNative_files] at hpack
    cases hpack
    rw [hcloned] at hcloned'
    cases hcloned'
    rw [seedDirs_eq] at hseed
    obtain ⟨hadmits, hwritten⟩ := extractEntries_ok hfiles hseed
    have hroom : ∀ f ∈ stores.files, template.kindAt f.1 = none ∧ ∀ q, q ≠ [] → q <+: f.1 →
        q ≠ f.1 → ∀ bytes, template.kindAt q ≠ some (.file bytes) :=
      fun f hf => (admits_clone_iff hclone (hfiles.nonempty f hf)).1 (hadmits f hf)
    refine ⟨?_, ?_, fun f hf => (hroom f hf).2⟩
    · intro p bytes hin hfile
      have hp := hin.ne_nil
      have hthere := (hwritten p bytes).2 (.inr ((hclone p hp).trans hfile))
      have hpacked := (packed_iff hfiles p bytes).1 ((hexact p bytes hin).1 hthere)
      rw [(hroom _ hpacked).1] at hfile
      cases hfile
    · intro f hf hdir
      rw [(hroom f hf).1] at hdir
      cases hdir
  · intro h
    have hadmits : ∀ f ∈ stores.files, cloned.Admits f.1 := by
      intro f hf
      apply (admits_clone_iff hclone (hfiles.nonempty f hf)).2
      refine ⟨?_, h.passable f hf⟩
      cases hkind : template.kindAt f.1 with
      | none => rfl
      | some kind =>
        cases kind with
        | dir => exact absurd hkind (h.free f hf)
        | file bytes => exact absurd hkind (h.bare f.1 bytes (stores.files_in f hf))
        | other => exact absurd hkind (template.kindAt_ne_other f.1)
    obtain ⟨seeded, hseed⟩ := extractEntries_of_admits hfiles 0 hadmits
    obtain ⟨_, hwritten⟩ := extractEntries_ok hfiles hseed
    refine ⟨_, cloned, seeded, packNative_files stores, hcloned, ?_, ?_⟩
    · rw [seedDirs_eq, extractInto, hseed, List.length_map, Nat.zero_add]
    · intro p bytes hin
      rw [hwritten, packed_iff hfiles]
      apply or_iff_left
      intro hfile
      have hp := hin.ne_nil
      exact h.bare p bytes hin ((hclone p hp).symm.trans hfile)

/-- The IndexedDB of a page the template's own browser had open. -/
def warmIndexedDb : FileDir where
  dir := .cons "CURRENT" (.file (.ok [109])) .nil
  sound := ⟨⟨by decide, by decide, by decide, by decide⟩, List.not_mem_nil, ⟨_, rfl⟩, trivial⟩

def warmTemplate : FileDir where
  dir := .cons "Default" (.dir (.cons "IndexedDB" (.dir warmIndexedDb.dir) .nil)) .nil
  sound := ⟨⟨by decide, by decide, by decide, by decide⟩, List.not_mem_nil,
    ⟨⟨by decide, by decide, by decide, by decide⟩, List.not_mem_nil, warmIndexedDb.sound, trivial⟩,
    trivial⟩

/-- A session that leaves the file it got from the template as it was cannot be seeded again. -/
theorem warm_template_not_reseeded : ¬ Reseeds warmTemplate ⟨some warmIndexedDb, none⟩ := by
  rintro ⟨entries, cloned, seeded, hpack, hclone, hseed, _⟩
  have hentries : packNative (NativeStores.store ⟨some warmIndexedDb, none⟩) =
      .ok [⟨"Default/IndexedDB/CURRENT", [109]⟩] := by rfl
  have hfails : (seedDirs [⟨"Default/IndexedDB/CURRENT", [109]⟩]
      (cloneTemplate warmTemplate.dir).1).2 = .error (.io .alreadyExists) := by
    decide +kernel
  rw [hentries] at hpack
  cases hpack
  rw [hclone, hseed] at hfails
  cases hfails

end BrowserServe
