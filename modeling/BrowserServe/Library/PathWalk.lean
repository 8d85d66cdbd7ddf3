import BrowserServe.Library.FilePath
import BrowserServe.Library.FileTree

namespace BrowserServe.Library
set_option autoImplicit true

/-- What a directory holds under a name. -/
inductive Inode (β : Type) where
  | dir
  | file (contents : β)
  | symlink (target : Text)
  | special
  deriving DecidableEq

/-- What is at each place below the root directory; the names on the way to a place are those of
directories, none of them a symbolic link. -/
abbrev FileSystem (β : Type) := List String → Option (Inode β)

/-- How a path ends that is to lead to a directory. -/
inductive Walked where
  | at (place : List String)
  | missing (place : List String)
  | notADirectory
  | tooManyLinks
  deriving DecidableEq

section
variable (fs : FileSystem β)

/-- A walk that `follow` goes on with behind a symbolic link. -/
def walkFrom (follow : List String → List Component → Walked) :
    List String → List Component → Walked
  | place, [] => .at place
  | _, .rootDir :: rest => walkFrom follow [] rest
  | place, .curDir :: rest => walkFrom follow place rest
  | place, .parentDir :: rest => walkFrom follow place.dropLast rest
  | place, .normal name :: rest =>
    match fs (place ++ [name]) with
    | none => .missing (place ++ [name])
    | some .dir => walkFrom follow (place ++ [name]) rest
    | some (.symlink target) => follow place (components target ++ rest)
    | some (.file _) => .notADirectory
    | some .special => .notADirectory

/-- Where a path leads from a directory, over at most so many symbolic links. -/
def walk : Nat → List String → List Component → Walked
  | 0 => walkFrom fs fun _ _ => .tooManyLinks
  | links + 1 => walkFrom fs (walk links)

end

section
variable {fs fs' : FileSystem β} {place q : List String} {path : List Component} {links : Nat}

theorem walk_nil (fs : FileSystem β) (links : Nat) (place : List String) :
    walk fs links place [] = .at place := by
  cases links with
  | zero => rfl
  | succ links => rfl

theorem walk_dir (h : fs (place ++ [name]) = some .dir) :
    walk fs links place (.normal name :: path) = walk fs links (place ++ [name]) path := by
  cases links with
  | zero => simp only [walk, walkFrom, h]
  | succ links => simp only [walk, walkFrom, h]

theorem walk_at_normal (h : walk fs links place (.normal name :: path) = .at q) :
    fs (place ++ [name]) = some .dir ∨ ∃ target links', links = links' + 1 ∧
      fs (place ++ [name]) = some (.symlink target) ∧
      walk fs links' place (components target ++ path) = .at q := by
  cases hnode : fs (place ++ [name]) with
  | none => cases links <;> simp [walk, walkFrom, hnode] at h
  | some node =>
    cases node with
    | dir => exact .inl rfl
    | file _ => cases links <;> simp [walk, walkFrom, hnode] at h
    | special => cases links <;> simp [walk, walkFrom, hnode] at h
    | symlink target =>
      cases links with
      | zero => simp [walk, walkFrom, hnode] at h
      | succ links =>
        refine .inr ⟨target, links, rfl, rfl, ?_⟩
        simpa only [walk, walkFrom, hnode] using h

/-- What a walk behind a link does that does not run out of links, a longer one does. -/
theorem walkFrom_more {follow follow' : List String → List Component → Walked}
    (hfollow : ∀ place path, follow place path ≠ .tooManyLinks →
      follow' place path = follow place path)
    (h : walkFrom fs follow place path ≠ .tooManyLinks) :
    walkFrom fs follow' place path = walkFrom fs follow place path := by
  induction path generalizing place with
  | nil => rfl
  | cons first rest ih =>
    cases first with
    | rootDir => exact ih h
    | curDir => exact ih h
    | parentDir => exact ih h
    | normal name =>
      simp only [walkFrom] at h ⊢
      cases hnode : fs (place ++ [name]) with
      | none => rfl
      | some node =>
        rw [hnode] at h
        cases node with
        | dir => exact ih h
        | symlink target => exact hfollow _ _ h
        | file _ => rfl
        | special => rfl

theorem walk_succ (h : walk fs links place path ≠ .tooManyLinks) :
    walk fs (links + 1) place path = walk fs links place path := by
  induction links generalizing place path with
  | zero => exact walkFrom_more (fun _ _ hnot => absurd rfl hnot) h
  | succ links ih => exact walkFrom_more (fun _ _ hnot => ih hnot) h

theorem walk_of_le {more : Nat} (hle : links ≤ more)
    (h : walk fs links place path ≠ .tooManyLinks) :
    walk fs more place path = walk fs links place path := by
  induction hle with
  | refl => rfl
  | step _ ih =>
    rw [walk_succ, ih]
    rw [ih]
    exact h

/-- A walk goes on where its first part leads, or ends with it. -/
def Splits (fs : FileSystem β) (links : Nat) (follow : List String → List Component → Walked)
    (place : List String) (path : List Component) : Prop :=
  (∃ q links', links' ≤ links ∧ follow place path = .at q ∧
    ∀ rest, follow place (path ++ rest) = walk fs links' q rest) ∨
  (∀ q, follow place path ≠ .at q) ∧ ∀ rest, follow place (path ++ rest) = follow place path

theorem walkFrom_splits {follow : List String → List Component → Walked}
    (hwalk : walk fs links = walkFrom fs follow)
    (hfollow : ∀ place path, Splits fs links follow place path) (place : List String)
    (path : List Component) : Splits fs links (walkFrom fs follow) place path := by
  induction path generalizing place with
  | nil => exact .inl ⟨place, links, Nat.le_refl _, rfl, fun rest => by rw [hwalk]; rfl⟩
  | cons first rest ih =>
    cases first with
    | rootDir => exact ih []
    | curDir => exact ih place
    | parentDir => exact ih place.dropLast
    | normal name =>
      cases hnode : fs (place ++ [name]) with
      | none => exact .inr (by simp [walkFrom, hnode])
      | some node =>
        cases node with
        | dir => simpa only [Splits, List.cons_append, walkFrom, hnode] using ih (place ++ [name])
        | symlink target =>
          simpa only [Splits, List.cons_append, walkFrom, hnode, List.append_assoc] using
            hfollow place (components target ++ rest)
        | file _ => exact .inr (by simp [walkFrom, hnode])
        | special => exact .inr (by simp [walkFrom, hnode])

theorem walk_splits (fs : FileSystem β) (links : Nat) (place : List String)
    (path : List Component) : Splits fs links (walk fs links) place path := by
  induction links generalizing place path with
  | zero =>
    apply walkFrom_splits rfl
    intro place path
    refine .inr ⟨?_, fun _ => rfl⟩
    intro q h
    cases h
  | succ links ih =>
    apply walkFrom_splits rfl
    intro place path
    rcases ih place path with ⟨q, links', hle, hat, hrest⟩ | hstuck
    · exact .inl ⟨q, links', Nat.le_succ_of_le hle, hat, hrest⟩
    · exact .inr hstuck

theorem walk_append (h : walk fs links place path = .at q) :
    ∃ links', links' ≤ links ∧
      ∀ rest, walk fs links place (path ++ rest) = walk fs links' q rest := by
  rcases walk_splits fs links place path with ⟨r, links', hle, hat, hrest⟩ | ⟨hstuck, _⟩
  · rw [h] at hat
    cases hat
    exact ⟨links', hle, hrest⟩
  · exact absurd h (hstuck q)

theorem walk_append_at {rest : List Component} (h : walk fs links place (path ++ rest) = .at q) :
    ∃ r, walk fs links place path = .at r := by
  rcases walk_splits fs links place path with ⟨r, _, _, hat, _⟩ | ⟨hstuck, hrest⟩
  · exact ⟨r, hat⟩
  · rw [hrest] at h
    exact absurd h (hstuck q)

end

/-- A place strictly below a directory. -/
def Below (root place : List String) : Prop := root <+: place ∧ place ≠ root

theorem below_append {root names : List String} (h : names ≠ []) : Below root (root ++ names) :=
  ⟨List.prefix_append _ _, fun heq => h (List.append_right_eq_self.mp heq)⟩

/-- Directories and files are new below a directory, and nothing else is. -/
structure Grown (root : List String) (fs fs' : FileSystem β) : Prop where
  kept : ∀ p node, fs p = some node → fs' p = some node
  below : ∀ p, ¬Below root p → fs' p = fs p
  links : ∀ p target, fs' p = some (.symlink target) → fs p = some (.symlink target)

section
variable {root place : List String} {fs fs' fs'' : FileSystem β} {links : Nat}

theorem Grown.refl (root : List String) (fs : FileSystem β) : Grown root fs fs :=
  ⟨fun _ _ h => h, fun _ _ => rfl, fun _ _ h => h⟩

theorem Grown.trans (h : Grown root fs fs') (h' : Grown root fs' fs'') : Grown root fs fs'' where
  kept p node hp := h'.kept p node (h.kept p node hp)
  below p hp := (h'.below p hp).trans (h.below p hp)
  links p target hp := h.links p target (h'.links p target hp)

theorem walkFrom_grown (h : Grown root fs fs')
    {follow follow' : List String → List Component → Walked}
    (hfollow : ∀ place path, (∀ q, follow place path = .missing q → ¬Below root q) →
      follow' place path = follow place path)
    (hpath : ∀ q, walkFrom fs follow place path = .missing q → ¬Below root q) :
    walkFrom fs' follow' place path = walkFrom fs follow place path := by
  induction path generalizing place with
  | nil => rfl
  | cons first rest ih =>
    cases first with
    | rootDir => exact ih hpath
    | curDir => exact ih hpath
    | parentDir => exact ih hpath
    | normal name =>
      simp only [walkFrom] at hpath ⊢
      cases hnode : fs (place ++ [name]) with
      | none =>
        rw [hnode] at hpath
        rw [h.below _ (hpath _ rfl), hnode]
      | some node =>
        rw [hnode] at hpath
        rw [h.kept _ _ hnode]
        cases node with
        | dir => exact ih hpath
        | symlink target => exact hfollow _ _ hpath
        | file _ => rfl
        | special => rfl

/-- A walk that does not break off below a directory is as it was when that has grown. -/
theorem walk_grown (h : Grown root fs fs')
    (hpath : ∀ q, walk fs links place path = .missing q → ¬Below root q) :
    walk fs' links place path = walk fs links place path := by
  induction links generalizing place path with
  | zero => exact walkFrom_grown h (fun _ _ _ => rfl) hpath
  | succ links ih => exact walkFrom_grown h (fun _ _ hq => ih hq) hpath

theorem walk_at_grown (h : Grown root fs fs') (hwalk : walk fs links place path = .at q) :
    walk fs' links place path = .at q := by
  rw [walk_grown h, hwalk]
  rw [hwalk]
  nofun

/-- No symbolic link below a directory leads to a directory. -/
def Straight (root : List String) (links : Nat) (fs : FileSystem β) : Prop :=
  ∀ place name target, Below root (place ++ [name]) →
    fs (place ++ [name]) = some (.symlink target) →
    ∀ q, walk fs links place (components target) ≠ .at q

/-- Nor would one if there were more below it. -/
def Settled (root : List String) (links : Nat) (fs : FileSystem β) : Prop :=
  ∀ place name target, Below root (place ++ [name]) →
    fs (place ++ [name]) = some (.symlink target) →
    ∀ q, walk fs links place (components target) = .missing q → ¬Below root q

theorem Straight.grown (h : Straight root links fs) (hsettled : Settled root links fs)
    (hgrown : Grown root fs fs') : Straight root links fs' := by
  intro place name target hbelow hlink q
  have hlink := hgrown.links _ _ hlink
  rw [walk_grown hgrown (hsettled place name target hbelow hlink)]
  exact h place name target hbelow hlink q

/-- Below such a directory names lead where they say. -/
theorem Straight.walk_names (h : Straight root links fs) {used : Nat} (hused : used ≤ links)
    {names : List String} (hroot : root <+: place)
    (hwalk : walk fs used place (names.map .normal) = .at q) :
    q = place ++ names ∧ ∀ r, r ≠ [] → r <+: names → fs (place ++ r) = some .dir := by
  induction names generalizing place with
  | nil =>
    rw [List.map_nil, walk_nil] at hwalk
    cases hwalk
    exact ⟨(List.append_nil _).symm, fun r hr hunder => absurd (List.prefix_nil.mp hunder) hr⟩
  | cons name names ih =>
    rw [List.map_cons] at hwalk
    rcases walk_at_normal hwalk with hdir | ⟨target, used', rfl, hlink, hbehind⟩
    · rw [walk_dir hdir] at hwalk
      obtain ⟨rfl, hdirs⟩ := ih (hroot.trans (List.prefix_append _ _)) hwalk
      refine ⟨by simp, ?_⟩
      intro r hr hunder
      cases r with
      | nil => exact absurd rfl hr
      | cons first r =>
        obtain ⟨rfl, hrest⟩ := List.cons_prefix_cons.mp hunder
        by_cases hnil : r = []
        · rw [hnil]
          exact hdir
        · simpa using hdirs r hnil hrest
    · obtain ⟨r, hat⟩ := walk_append_at hbehind
      have hbelow : Below root (place ++ [name]) := by
        refine ⟨hroot.trans (List.prefix_append _ _), ?_⟩
        rintro rfl
        have hle := hroot.length_le
        rw [List.length_append, List.length_singleton] at hle
        omega
      have hmore := walk_of_le (Nat.le_of_succ_le hused) (by rw [hat]; nofun)
      exact absurd (hmore.trans hat) (h place name target hbelow hlink r)

end

/-- What calls of the operating system go by besides the file system: `refuses` are the paths that
nothing can be made at, such as one with a NUL or with a name that is too long. -/
structure Os (β : Type) where
  cwd : List String
  maxLinks : Nat
  refuses : FileSystem β → List Component → Bool

namespace Os
variable (os : Os β)

def walked (fs : FileSystem β) (path : List Component) : Walked :=
  walk fs os.maxLinks os.cwd path

def isDir (fs : FileSystem β) (path : List Component) : Bool :=
  match os.walked fs path with
  | .at _ => true
  | _ => false

/-- What `mkdir` and an exclusive `open` make; a link at the path itself is not followed. -/
def make (node : Inode β) (path : List Component) (fs : FileSystem β) :
    Except FsError (FileSystem β) :=
  if os.refuses fs path then .error .refused
  else
    match os.walked fs path.dropLast with
    | .missing _ => .error .notFound
    | .notADirectory => .error .notADirectory
    | .tooManyLinks => .error .tooManyLinks
    | .at place =>
      match path.getLast? with
      | none => .error .notFound
      | some (.normal name) =>
        match fs (place ++ [name]) with
        | some _ => .error .alreadyExists
        | none => .ok fun q => if q = place ++ [name] then some node else fs q
      | some _ => .error .alreadyExists

def mkdir (path : List Component) (fs : FileSystem β) : Except FsError (FileSystem β) :=
  os.make .dir path fs

/-- A directory that could not be made is there, or the error is returned. -/
def orIsDir (path : List Component) (fs : FileSystem β) (error : FsError) :
    FileSystem β × Except FsError Unit :=
  if os.isDir fs path then (fs, .ok ()) else (fs, .error error)

/-- `fs::create_dir_all` of a path that is given from its end. -/
def createDirs : List Component → FileSystem β → FileSystem β × Except FsError Unit
  | [], fs => (fs, .ok ())
  | last :: front, fs =>
    let path := (last :: front).reverse
    match os.mkdir path fs with
    | .ok fs => (fs, .ok ())
    | .error .notFound =>
      match createDirs front fs with
      | (fs, .error e) => (fs, .error e)
      | (fs, .ok ()) =>
        match os.mkdir path fs with
        | .ok fs => (fs, .ok ())
        | .error e => os.orIsDir path fs e
    | .error e => os.orIsDir path fs e

def createDirAll (path : List Component) (fs : FileSystem β) :
    FileSystem β × Except FsError Unit :=
  os.createDirs path.reverse fs

end Os

/-- Where a path leads when nothing below it is a link to a directory, or would become one. -/
structure Rooted (os : Os β) (base : List Component) (root : List String) (fs : FileSystem β) :
    Prop where
  leads : os.walked fs base = .at root
  straight : Straight root os.maxLinks fs
  settled : Settled root os.maxLinks fs

/-- Nothing is new but directories. -/
def OnlyDirs (fs fs' : FileSystem β) : Prop :=
  ∀ p, fs' p = fs p ∨ fs p = none ∧ fs' p = some .dir

section
variable {os : Os β} {root : List String} {base path : List Component} {names : List String}
  {fs fs' fs'' : FileSystem β} {node : Inode β}

theorem Rooted.grown (h : Rooted os base root fs) (hgrown : Grown root fs fs') :
    Rooted os base root fs' where
  leads := walk_at_grown hgrown h.leads
  straight := h.straight.grown h.settled hgrown
  settled place name target hbelow hlink q hmissing := by
    have hbefore := h.settled place name target hbelow (hgrown.links _ _ hlink)
    rw [walk_grown hgrown hbefore] at hmissing
    exact hbefore q hmissing

theorem OnlyDirs.refl (fs : FileSystem β) : OnlyDirs fs fs := fun _ => .inl rfl

theorem OnlyDirs.trans (h : OnlyDirs fs fs') (h' : OnlyDirs fs' fs'') : OnlyDirs fs fs'' := by
  intro p
  rcases h' p with hsame | ⟨hnone, hdir⟩
  · rw [hsame]
    exact h p
  · rcases h p with hsame | ⟨_, hdir'⟩
    · exact .inr ⟨hsame ▸ hnone, hdir⟩
    · rw [hdir'] at hnone
      cases hnone

theorem OnlyDirs.kept (h : OnlyDirs fs fs') (hnode : fs p = some node) : fs' p = some node := by
  rcases h p with hsame | ⟨hnone, _⟩
  · rw [hsame, hnode]
  · rw [hnode] at hnone
    cases hnone

theorem OnlyDirs.file_iff (h : OnlyDirs fs fs') :
    fs' p = some (.file bytes) ↔ fs p = some (.file bytes) := by
  rcases h p with hsame | ⟨hnone, hdir⟩
  · rw [hsame]
  · rw [hnone, hdir]
    exact iff_of_false nofun nofun

theorem Grown.set (hnone : fs (root ++ names) = none) (hnames : names ≠ [])
    (hnode : ∀ target, node ≠ .symlink target) :
    Grown root fs fun q => if q = root ++ names then some node else fs q where
  kept p node' hp := by
    rw [if_neg, hp]
    rintro rfl
    rw [hnone] at hp
    cases hp
  below p hp := by
    rw [if_neg]
    rintro rfl
    exact hp (below_append hnames)
  links p target hp := by
    split at hp
    · exact absurd (Option.some.inj hp) (hnode target)
    · exact hp

namespace Os

theorem isDir_of_walked (h : os.walked fs path = .at root) : os.isDir fs path = true := by
  rw [isDir, h]

/-- What is made is new, in the directory that the rest of its path leads to. -/
theorem make_ok (h : os.make node path fs = .ok fs') : ∃ front name place,
    path = front ++ [.normal name] ∧ os.walked fs front = .at place ∧
      fs (place ++ [name]) = none ∧
      fs' = fun q => if q = place ++ [name] then some node else fs q := by
  unfold make at h
  split at h
  · cases h
  · split at h
    · cases h
    · cases h
    · cases h
    · rename_i place hplace
      split at h
      · cases h
      · rename_i name hlast
        split at h
        · cases h
        · rename_i hnone
          obtain ⟨front, rfl⟩ := List.getLast?_eq_some_iff.mp hlast
          rw [List.dropLast_concat] at hplace
          exact ⟨front, name, place, rfl, hplace, hnone, (Except.ok.inj h).symm⟩
      · cases h

/-- Where a directory is, nothing is made, and that is not for something missing. -/
theorem make_of_walked (h : os.walked fs path = .at root) (hpath : path ≠ []) :
    ∃ e, os.make node path fs = .error e ∧ e ≠ .notFound := by
  cases hmake : os.make node path fs with
  | ok fs' =>
    obtain ⟨front, name, place, rfl, hplace, hnone, _⟩ := make_ok hmake
    obtain ⟨links, _, hrest⟩ := walk_append hplace
    rw [walked, hrest] at h
    rcases walk_at_normal h with hdir | ⟨target, _, _, hlink, _⟩
    · rw [hnone] at hdir
      cases hdir
    · rw [hnone] at hlink
      cases hlink
  | error e =>
    refine ⟨e, rfl, ?_⟩
    rintro rfl
    obtain ⟨front, last, rfl⟩ := (List.eq_nil_or_concat path).resolve_left hpath
    rw [List.concat_eq_append] at h hmake
    obtain ⟨place, hplace⟩ := walk_append_at h
    have hwalked : os.walked fs front = .at place := hplace
    simp only [make, List.dropLast_concat, List.getLast?_concat, hwalked] at hmake
    split at hmake
    · cases hmake
    · cases last with
      | normal name =>
        cases hnode : fs (place ++ [name]) with
        | some _ => simp [hnode] at hmake
        | none => simp [hnode] at hmake
      | rootDir => cases hmake
      | curDir => cases hmake
      | parentDir => cases hmake

theorem make_onlyDirs (h : os.mkdir path fs = .ok fs') : OnlyDirs fs fs' := by
  obtain ⟨_, name, place, _, _, hnone, rfl⟩ := make_ok h
  intro p
  by_cases hp : p = place ++ [name]
  · exact .inr ⟨hp ▸ hnone, if_pos hp⟩
  · exact .inl (if_neg hp)

theorem orIsDir_fst (os : Os β) (path : List Component) (fs : FileSystem β) (e : FsError) :
    (os.orIsDir path fs e).1 = fs := by
  unfold orIsDir
  split
  · rfl
  · rfl

theorem createDirs_onlyDirs (os : Os β) (path : List Component) (fs : FileSystem β) :
    OnlyDirs fs (os.createDirs path fs).1 := by
  induction path generalizing fs with
  | nil => exact .refl fs
  | cons last front ih =>
    simp only [createDirs]
    split
    · rename_i hmade
      exact make_onlyDirs hmade
    · have hfront := ih fs
      split
      · rename_i hcreated
        rw [hcreated] at hfront
        exact hfront
      · rename_i hcreated
        rw [hcreated] at hfront
        split
        · rename_i hmade
          exact hfront.trans (make_onlyDirs hmade)
        · rw [orIsDir_fst]
          exact hfront
    · rw [orIsDir_fst]
      exact .refl fs

theorem createDirs_of_walked (h : os.walked fs path = .at root) :
    os.createDirs path.reverse fs = (fs, .ok ()) := by
  cases hback : path.reverse with
  | nil => rfl
  | cons last front =>
    have hpath : (last :: front).reverse = path := by rw [← hback, List.reverse_reverse]
    have hne : path ≠ [] := by
      rintro rfl
      cases hback
    obtain ⟨e, hmake, hother⟩ : ∃ e, os.mkdir path fs = .error e ∧ e ≠ .notFound :=
      make_of_walked h hne
    simp only [createDirs, hpath, hmake, orIsDir, isDir_of_walked h, if_true]

end Os

/-- Below a root, what is made is at the place its names say, in directories. -/
theorem Rooted.make (h : Rooted os base root fs) (hnames : names ≠ [])
    (hmake : os.make node (base ++ names.map .normal) fs = .ok fs') :
    fs (root ++ names) = none ∧
      (∀ r, r ≠ [] → r <+: names → r ≠ names → fs (root ++ r) = some .dir) ∧
      fs' = fun q => if q = root ++ names then some node else fs q := by
  obtain ⟨front, name, place, hpath, hplace, hnone, rfl⟩ := Os.make_ok hmake
  obtain ⟨init, last, rfl⟩ := (List.eq_nil_or_concat names).resolve_left hnames
  rw [List.concat_eq_append, List.map_append, ← List.append_assoc] at hpath
  obtain ⟨rfl, hlast⟩ := List.append_inj' hpath rfl
  cases hlast
  obtain ⟨used, hused, hrest⟩ := walk_append h.leads
  rw [Os.walked, hrest] at hplace
  obtain ⟨rfl, hdirs⟩ := h.straight.walk_names hused List.prefix_rfl hplace
  rw [List.concat_eq_append, ← List.append_assoc]
  refine ⟨hnone, ?_, rfl⟩
  intro r hr hunder hne
  exact hdirs r hr ((List.prefix_concat_iff.mp hunder).resolve_left hne)

theorem Rooted.mkdir (h : Rooted os base root fs) (hnames : names ≠ [])
    (hmake : os.mkdir (base ++ names.map .normal) fs = .ok fs') : Grown root fs fs' := by
  obtain ⟨hnone, _, rfl⟩ := h.make hnames hmake
  exact .set hnone hnames nofun

theorem Rooted.createDirs (h : Rooted os base root fs) (back : List String) :
    Grown root fs (os.createDirs (back.map .normal ++ base.reverse) fs).1 := by
  induction back with
  | nil =>
    rw [List.map_nil, List.nil_append, Os.createDirs_of_walked h.leads]
    exact .refl root fs
  | cons last front ih =>
    have hpath : (.normal last :: (front.map .normal ++ base.reverse)).reverse =
        base ++ (front.reverse ++ [last]).map Component.normal := by simp
    have hne : front.reverse ++ [last] ≠ [] := by simp
    rw [List.map_cons, List.cons_append]
    simp only [Os.createDirs, hpath]
    split
    · rename_i hmade
      exact h.mkdir hne hmade
    · split
      · rename_i hcreated
        rw [hcreated] at ih
        exact ih
      · rename_i hcreated
        rw [hcreated] at ih
        split
        · rename_i hmade
          exact ih.trans ((h.grown ih).mkdir hne hmade)
        · rw [Os.orIsDir_fst]
          exact ih
    · rw [Os.orIsDir_fst]
      exact .refl root fs

theorem Rooted.createDirAll (h : Rooted os base root fs) (names : List String) :
    Grown root fs (os.createDirAll (base ++ names.map .normal) fs).1 := by
  have hgrown := h.createDirs names.reverse
  rw [List.map_reverse, ← List.reverse_append] at hgrown
  exact hgrown

end

end BrowserServe.Library
