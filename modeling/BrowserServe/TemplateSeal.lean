import BrowserServe.Library.Removal
import BrowserServe.SessionHost
import BrowserServe.TemplateClone

namespace BrowserServe
open Library
set_option autoImplicit true

abbrev RemovalHost := Removals String (List UInt8)

/-- A user data directory as a browser left it. -/
structure ProfileTree where
  tree : DirTree
  closed : tree.Closed

def SINGLETONS : List String := ["SingletonLock", "SingletonSocket", "SingletonCookie"]

def SEALED_OUT : List String := ["RunningChromeVersion", "GPUCache", "ShaderCache", "GrShaderCache"]

/-- What `strip_for_seal` removes, in its order. -/
def STRIPPED : List (List String) :=
  SINGLETONS.map (fun name => [name]) ++ SEALED_OUT.flatMap fun rel => [["Default", rel], [rel]]

def removeIfPresent (host : RemovalHost) (path : List String) (tree : DirTree) :
    DirTree × Except FsError Unit :=
  match tree.symlinkMetadata host path with
  | .ok .dir => tree.removeDirAll host path
  | .ok _ => tree.removeFile host path
  | .error .notFound => (tree, .ok ())
  | .error e => (tree, .error e)

/-- The removals one after another, to the first that fails. -/
def removeEach (host : RemovalHost) : List (List String) → DirTree → DirTree × Except FsError Unit
  | [], tree => (tree, .ok ())
  | path :: paths, tree =>
    match removeIfPresent host path tree with
    | (tree, .ok ()) => removeEach host paths tree
    | (tree, .error e) => (tree, .error e)

def stripForSeal (host : RemovalHost) (profileDir : DirTree) : DirTree × Except FsError Unit :=
  removeEach host STRIPPED profileDir

/-- A removal either succeeds, and then nothing is at the path or below it, or something stands
in its way. -/
theorem removeIfPresent_cases {host : RemovalHost} {path : List String} {tree : DirTree}
    (hclosed : tree.Closed) (hpath : path ≠ []) :
    tree.Clears host path ∧ removeIfPresent host path tree = (tree.without path, .ok ()) ∨
      ¬ tree.Clears host path ∧ ∃ left e, removeIfPresent host path tree = (left, .error e) := by
  unfold removeIfPresent FileTree.Clears
  cases hstat : tree.symlinkMetadata host path with
  | ok kind =>
    cases kind with
    | dir =>
      dsimp only
      cases hdir : host.dir path with
      | none => exact .inl ⟨rfl, by rw [FileTree.removeDirAll, hdir]⟩
      | some failed =>
        obtain ⟨e, gone⟩ := failed
        right
        refine ⟨Option.some_ne_none _,
          fun q => if path <+: q ∧ gone q = true then none else tree q, e, ?_⟩
        rw [FileTree.removeDirAll, hdir]
    | file contents =>
      dsimp only
      cases hfile : host.file path with
      | none => exact .inl ⟨rfl, by rw [FileTree.removeFile, hfile]⟩
      | some e => exact .inr ⟨Option.some_ne_none e, tree, e, by rw [FileTree.removeFile, hfile]⟩
    | other =>
      dsimp only
      cases hfile : host.file path with
      | none => exact .inl ⟨rfl, by rw [FileTree.removeFile, hfile]⟩
      | some e => exact .inr ⟨Option.some_ne_none e, tree, e, by rw [FileTree.removeFile, hfile]⟩
  | error e =>
    by_cases hnotFound : e = .notFound
    · subst hnotFound
      left
      refine ⟨rfl, ?_⟩
      dsimp only
      rw [FileTree.without_eq_self (hclosed.none_of_notFound hpath hstat)]
    · right
      refine ⟨hnotFound, tree, e, ?_⟩
      cases e with
      | notFound => exact absurd rfl hnotFound
      | _ => rfl

/-- What is left when all of some paths are gone. -/
def withoutEach (paths : List (List String)) (tree : DirTree) : DirTree :=
  fun q => if ∃ path ∈ paths, path <+: q then none else tree q

theorem withoutEach_cons (path : List String) (paths : List (List String)) (tree : DirTree) :
    withoutEach (path :: paths) tree = withoutEach paths (tree.without path) := by
  funext q
  simp only [withoutEach, FileTree.without, List.mem_cons, exists_eq_or_imp]
  by_cases hunder : path <+: q
  · simp [hunder]
  · simp [hunder]

/-- The removals succeed if and only if nothing stands in the way of any of them; each of them
is of a tree that the others have not changed at its path. -/
theorem removeEach_cases {host : RemovalHost} {paths : List (List String)} {tree : DirTree}
    (hclosed : tree.Closed) (hpaths : ∀ path ∈ paths, path ≠ [])
    (hapart : paths.Pairwise fun p path => ¬ p <+: path) :
    (∀ path ∈ paths, tree.Clears host path) ∧
        removeEach host paths tree = (withoutEach paths tree, .ok ()) ∨
      (¬ ∀ path ∈ paths, tree.Clears host path) ∧
        ∃ left e, removeEach host paths tree = (left, .error e) := by
  induction paths generalizing tree with
  | nil =>
    left
    refine ⟨fun path hpath => absurd hpath List.not_mem_nil, ?_⟩
    have hall : withoutEach [] tree = tree := by
      funext q
      exact if_neg fun ⟨path, hpath, _⟩ => List.not_mem_nil hpath
    rw [hall]
    rfl
  | cons path paths ih =>
    rw [List.pairwise_cons] at hapart
    rw [removeEach, List.forall_mem_cons]
    cases removeIfPresent_cases hclosed (hpaths path List.mem_cons_self) with
    | inl hgone =>
      obtain ⟨hclears, hremoved⟩ := hgone
      rw [hremoved]
      have hkept : (∀ q ∈ paths, (tree.without path).Clears host q) ↔
          ∀ q ∈ paths, tree.Clears host q :=
        forall₂_congr fun q hq => FileTree.clears_without (hapart.1 q hq)
      have hrest := ih (hclosed.without path) (fun q hq => hpaths q (List.mem_cons_of_mem _ hq))
        hapart.2
      rw [hkept] at hrest
      rw [withoutEach_cons, and_iff_right hclears]
      exact hrest
    | inr hstands =>
      obtain ⟨hnot, left, e, hfailed⟩ := hstands
      rw [hfailed]
      exact .inr ⟨fun hall => hnot hall.1, left, e, rfl⟩

theorem STRIPPED_apart : STRIPPED.Pairwise fun p path => ¬ p <+: path := by
  decide

/-- `strip_for_seal` returns Ok if and only if nothing stands in the way of a removal. -/
theorem stripForSeal_cases (host : RemovalHost) (left : ProfileTree) :
    (∀ path ∈ STRIPPED, left.tree.Clears host path) ∧
        stripForSeal host left.tree = (withoutEach STRIPPED left.tree, .ok ()) ∨
      (¬ ∀ path ∈ STRIPPED, left.tree.Clears host path) ∧
        ∃ tree e, stripForSeal host left.tree = (tree, .error e) :=
  removeEach_cases left.closed (by decide) STRIPPED_apart

/-- Why a blocking task was not joined. -/
inductive JoinError where
  | cancelled
  | panicked

/-- What a seal works on: the directory that the browser was launched in, the cell for the
template, and what was last moved to a template's place. -/
structure SealState where
  profile : DirTree
  templateDir : Option Text
  sealed : Option (Text × DirTree)

/-- The operations that a seal is about. -/
def FactoryOp.seals : FactoryOp → Bool
  | templateDir | setTemplateDir _ | teardownBrowser _ _ | removeTemplate _ | stripForSeal _
  | rename _ _ => true
  | _ => false

/-- What an operation does. The blocking task gives its own result inside that of its handle, and
the answer tells whether there was one; one that was not joined may have got anywhere. -/
inductive SealState.Effect (removals : RemovalHost) (left : ProfileTree) (s : SealState) :
    (op : FactoryOp) → op.Answer → SealState → Prop
  | templateDir : Effect removals left s .templateDir s.templateDir s
  | setTemplateDir : Effect removals left s (.setTemplateDir template) ()
      { s with templateDir := some template }
  | torndown : Effect removals left s (.teardownBrowser pid grace) ()
      { s with profile := left.tree }
  | removed (rest : Option (Text × DirTree)) :
      Effect removals left s (.removeTemplate template) () { s with sealed := rest }
  | stripped (joined : Except JoinError (Except FsError Unit))
      (h : ∀ result, joined = .ok result → stripForSeal removals s.profile = (tree, result)) :
      Effect removals left s (.stripForSeal userDataDir) joined.isOk { s with profile := tree }
  | renamed : Effect removals left s (.rename userDataDir template) true
      { s with sealed := some (template, s.profile) }
  | notRenamed : Effect removals left s (.rename userDataDir template) false s
  | other (h : op.seals = false) : Effect removals left s op answer s

/-- The host of one call of `prepare_template`, whose removals come out one way and whose browser
leaves one profile behind. -/
def sealHost (removals : RemovalHost) (left : ProfileTree) :
    Host FactoryOp FactoryOp.Answer SealState where
  does s op answer t := s.Effect removals left op answer t
  drops s op t := op.awaits = true ∧
    (t = s ∨ op.detached = true ∧ ∃ answer, s.Effect removals left op answer t)

/-- What is kept as the template was stripped, and has everything else as it was. -/
def SealState.SealsStripped (removals : RemovalHost) (left : ProfileTree) (s : SealState) : Prop :=
  ∀ template, s.templateDir = some template →
    (stripForSeal removals left.tree).2 = .ok () ∧
      s.sealed = some (template, withoutEach STRIPPED left.tree)

def FactoryOp.setsTemplate : FactoryOp → Bool
  | setTemplateDir _ => true
  | _ => false

section
variable {removals : RemovalHost} {left : ProfileTree} {f : ChromeFactory}

theorem SealState.sealsStripped_of_none {s : SealState} (h : s.templateDir = none) :
    s.SealsStripped removals left := by
  intro template htemplate
  rw [h] at htemplate
  cases htemplate

theorem SealState.Effect.templateDir_eq {s t : SealState} {op : FactoryOp} {answer : op.Answer}
    (h : s.Effect removals left op answer t) (hop : op.setsTemplate = false) :
    t.templateDir = s.templateDir := by
  cases h with
  | setTemplateDir => cases hop
  | _ => rfl

theorem FactoryOp.setsTemplate_of_awaits {op : FactoryOp} (h : op.awaits = true) :
    op.setsTemplate = false := by
  cases op with
  | setTemplateDir template => cases h
  | _ => rfl

/-- A call that is dropped leaves the cell as it was. -/
theorem sealHost_drops {s t : SealState} {op : FactoryOp}
    (h : (sealHost removals left).drops s op t)
    (hs : s.templateDir = none) : t.SealsStripped removals left := by
  apply SealState.sealsStripped_of_none
  obtain ⟨hawaits, hsame | ⟨_, answer, heffect⟩⟩ := h
  · rw [hsame, hs]
  · rw [heffect.templateDir_eq (FactoryOp.setsTemplate_of_awaits hawaits), hs]

theorem unset_ask {op : FactoryOp} (h : op.setsTemplate = false) :
    (ask op).Asks (fun op => op.setsTemplate = false) fun _ _ => True :=
  Program.asks_ask h

/-- A part of the call that never sets the cell. -/
theorem ends_unset {p : FactoryM α} {s : SealState}
    (h : p.Asks (fun op => op.setsTemplate = false) fun _ _ => True) (hs : s.templateDir = none) :
    p.Ends (sealHost removals left) (·.SealsStripped removals left)
      (fun _ t => t.templateDir = none) s := by
  apply h.ends (I := fun s : SealState => s.templateDir = none) hs
  · intro s op answer t hs hop hdoes
    exact ⟨(SealState.Effect.templateDir_eq hdoes hop).trans hs, trivial⟩
  · intro s op t hs _ hdrops
    exact sealHost_drops hdrops hs

theorem SealState.Effect.of_removes {s t : SealState} {op : FactoryOp} {answer : op.Answer}
    (h : s.Effect removals left op answer t) (hop : op.removes = true) : t = s := by
  cases h with
  | other => rfl
  | _ => cases hop

/-- Removing the scratch directory changes nothing that was sealed. -/
theorem teardown_ends {s : SealState} (dirs : SessionDirs) (hs : s.SealsStripped removals left) :
    dirs.teardown.Ends (sealHost removals left) (·.SealsStripped removals left)
      (fun _ t => t.SealsStripped removals left) s := by
  have hasks : dirs.teardown.Asks (fun op => op.removes = true) fun _ _ => True :=
    dirs.teardown_asks fun _ h => h
  apply hasks.ends (I := fun s : SealState => s.SealsStripped removals left) hs
  · intro s op answer t hs hop hdoes
    exact ⟨(SealState.Effect.of_removes hdoes hop) ▸ hs, trivial⟩
  · intro s op t hs hop hdrops
    obtain ⟨_, rfl | ⟨_, answer, heffect⟩⟩ := hdrops
    · exact hs
    · exact (SealState.Effect.of_removes heffect hop) ▸ hs

/-- What is moved to the template's place is what the removals left. -/
theorem moveTemplate_ends {s : SealState} (userDataDir template : Text)
    (hclears : ∀ path ∈ STRIPPED, left.tree.Clears removals path)
    (hs : s.templateDir = none) (hprofile : s.profile = left.tree) :
    (ChromeFactory.moveTemplate userDataDir template).Ends (sealHost removals left)
      (·.SealsStripped removals left)
      (fun moved t => t.templateDir = none ∧ (moved = true →
        t.sealed = some (template, withoutEach STRIPPED left.tree))) s := by
  refine ⟨fun t hdrops => sealHost_drops hdrops hs, fun answer t hdoes => ?_⟩
  have hnone := (SealState.Effect.templateDir_eq hdoes rfl).trans hs
  cases hdoes with
  | other h => cases h
  | @stripped tree _ joined hjoined =>
    cases joined with
    | error e => exact ⟨hnone, fun h => by cases h⟩
    | ok result =>
      refine ⟨fun u hdrops => sealHost_drops hdrops hnone, fun moved u hrename => ?_⟩
      refine ⟨(SealState.Effect.templateDir_eq hrename rfl).trans hnone, ?_⟩
      rintro rfl
      have hspec := hjoined result rfl
      rw [hprofile] at hspec
      cases hrename with
      | other h => cases h
      | renamed =>
        cases stripForSeal_cases removals left with
        | inl hok =>
          have htree := (Prod.ext_iff.mp (hspec.symm.trans hok.2)).1
          exact congrArg (fun tree => some (template, tree)) htree
        | inr hnot => exact absurd hclears hnot.1

theorem keepTemplate_ends {s : SealState} {moved : Bool} {template : Text}
    (hok : (stripForSeal removals left.tree).2 = .ok ()) (hs : s.templateDir = none)
    (hmoved : moved = true → s.sealed = some (template, withoutEach STRIPPED left.tree)) :
    (ChromeFactory.keepTemplate moved template).Ends (sealHost removals left)
      (·.SealsStripped removals left) (fun _ t => t.SealsStripped removals left) s := by
  cases moved with
  | false => exact SealState.sealsStripped_of_none hs
  | true =>
    refine ⟨fun t hdrops => sealHost_drops hdrops hs, fun answer t hdoes => ?_⟩
    cases hdoes with
    | other h => cases h
    | setTemplateDir =>
      intro other hother
      obtain rfl := Option.some.inj hother
      exact ⟨hok, hmoved rfl⟩

theorem sealTemplate_ends {s : SealState} (scratch : SessionDirs) (browser : Chrome.Browser)
    (hclears : ∀ path ∈ STRIPPED, left.tree.Clears removals path) (hs : s.templateDir = none) :
    (f.sealTemplate scratch browser).Ends (sealHost removals left)
      (·.SealsStripped removals left) (fun _ t => t.SealsStripped removals left) s := by
  have hok : (stripForSeal removals left.tree).2 = .ok () := by
    cases stripForSeal_cases removals left with
    | inl hok => rw [hok.2]
    | inr hnot => exact absurd hclears hnot.1
  have hmeasure : (ChromeFactory.measureFootprint browser.pid).Asks
      (fun op => op.setsTemplate = false) fun _ _ => True := by
    apply Program.asks_bind (unset_ask rfl)
    intro bytes
    apply Program.asks_bind (unset_ask rfl)
    intro threads
    dsimp only
    split
    · exact unset_ask rfl
    · exact Program.asks_pure
  unfold ChromeFactory.sealTemplate
  apply (ends_unset (unset_ask rfl) hs).bind
  intro _ s hs
  apply (ends_unset hmeasure hs).bind
  intro _ s hs
  refine ⟨fun t hdrops => sealHost_drops hdrops hs, fun answer s' hdoes => ?_⟩
  have hs' := (SealState.Effect.templateDir_eq hdoes rfl).trans hs
  have hprofile : s'.profile = left.tree := by
    cases hdoes with
    | other h => cases h
    | torndown => rfl
  refine ⟨fun t hdrops => sealHost_drops hdrops hs', fun answer s₁ hdoes₁ => ?_⟩
  have hs₁ := (SealState.Effect.templateDir_eq hdoes₁ rfl).trans hs'
  have hprofile₁ : s₁.profile = left.tree := by
    cases hdoes₁ with
    | other h => exact hprofile
  refine ⟨fun t hdrops => sealHost_drops hdrops hs₁, fun answer s₂ hdoes₂ => ?_⟩
  have hs₂ := (SealState.Effect.templateDir_eq hdoes₂ rfl).trans hs₁
  have hprofile₂ : s₂.profile = left.tree := by
    cases hdoes₂ with
    | other h => cases h
    | removed => exact hprofile₁
  apply (moveTemplate_ends scratch.userDataDir _ hclears hs₂ hprofile₂).bind
  intro moved s₃ hmoved
  apply (keepTemplate_ends hok hmoved.1 hmoved.2).bind
  intro _ s₄ hs₄
  apply (teardown_ends scratch hs₄).bind
  intro _ s₅ hs₅
  exact hs₅

theorem prepareTemplate_ends {s : SealState}
    (hclears : ∀ path ∈ STRIPPED, left.tree.Clears removals path) (hs : s.templateDir = none) :
    f.prepareTemplate.Ends (sealHost removals left)
      (·.SealsStripped removals left) (fun _ t => t.SealsStripped removals left) s := by
  refine ⟨fun t hdrops => sealHost_drops hdrops hs, fun template s' hdoes => ?_⟩
  have hs' := (SealState.Effect.templateDir_eq hdoes rfl).trans hs
  cases template with
  | some template => exact SealState.sealsStripped_of_none hs'
  | none =>
    apply (ends_unset (unset_ask rfl) hs').bind
    intro id s hs
    have hprovision : (SessionDirs.provisionPlain f.dataDir id).Asks
        (fun op => op.setsTemplate = false) fun _ _ => True := by
      apply Program.asks_bind (unset_ask rfl)
      intro made
      cases made with
      | error e => exact Program.asks_pure
      | ok _ => exact Program.asks_pure
    apply (ends_unset hprovision hs).bind
    intro made s hs
    cases made with
    | error e => exact SealState.sealsStripped_of_none hs
    | ok scratch =>
      have hlaunch : (f.launchBrowser scratch.userDataDir none f.extraFlags).Asks
          (fun op => op.setsTemplate = false) fun _ _ => True := by
        apply ChromeFactory.launchBrowser_asks
        intro op hop
        cases op <;> first | rfl | cases hop
      apply (ends_unset hlaunch hs).bind
      intro launched s hs
      cases launched with
      | error e =>
        apply (teardown_ends scratch (SealState.sealsStripped_of_none hs)).bind
        intro _ t ht
        exact ht
      | ok browser => exact sealTemplate_ends scratch browser hclears hs

/-- Whatever the removals came to: the launch is good, the task is joined and the directory is
moved. -/
theorem prepareTemplate_runs (f : ChromeFactory) (removals : RemovalHost) (left : ProfileTree)
    (tree : DirTree) (sealed : Option (Text × DirTree)) :
    ∃ template, f.prepareTemplate.Runs (sealHost removals left) ⟨tree, none, sealed⟩ (some ())
      ⟨(stripForSeal removals left.tree).1, some template,
        some (template, (stripForSeal removals left.tree).1)⟩ := by
  let browser : Chrome.Browser := ⟨4211, ⟨"Chrome/149.0.0.0", "1.3", "", ""⟩⟩
  have hstrip : SealState.Effect removals left ⟨left.tree, none, none⟩
      (.stripForSeal (SessionDirs.new f.dataDir (text "a")).userDataDir) true
      ⟨(stripForSeal removals left.tree).1, none, none⟩ := by
    refine .stripped (.ok (stripForSeal removals left.tree).2) fun result hjoined => ?_
    cases hjoined
    rfl
  refine ⟨templatePath f.dataDir (browserKey browser.version), ?_⟩
  refine Program.Runs.goesOn none SealState.Effect.templateDir ?_
  refine Program.Runs.goesOn (text "a") (SealState.Effect.other rfl) ?_
  refine Program.Runs.goesOn (.ok ()) (SealState.Effect.other rfl) ?_
  refine Program.Runs.goesOn false (SealState.Effect.other rfl) ?_
  refine Program.Runs.goesOn false (SealState.Effect.other rfl) ?_
  refine Program.Runs.goesOn (.ok browser) (SealState.Effect.other rfl) ?_
  refine Program.Runs.goesOn () (SealState.Effect.other rfl) ?_
  refine Program.Runs.goesOn none (SealState.Effect.other rfl) ?_
  refine Program.Runs.goesOn none (SealState.Effect.other rfl) ?_
  refine Program.Runs.goesOn () SealState.Effect.torndown ?_
  refine Program.Runs.goesOn () (SealState.Effect.other rfl) ?_
  refine Program.Runs.goesOn () (SealState.Effect.removed none) ?_
  refine Program.Runs.goesOn true hstrip ?_
  refine Program.Runs.goesOn true SealState.Effect.renamed ?_
  refine Program.Runs.goesOn () SealState.Effect.setTemplateDir ?_
  refine Program.Runs.goesOn (.ok ()) (SealState.Effect.other rfl) ?_
  exact .done

end

/-- A template is sealed only as `strip_for_seal` left it with Ok, in every run from a browser's
profile, if and only if nothing stands in the way of a removal in that profile. Where `Default` is a
link, what is removed beyond it is none of the profile's. -/
theorem sealed_stripped_iff (f : ChromeFactory) (removals : RemovalHost) (left : ProfileTree) :
    (∀ s r t, s.templateDir = none →
        f.prepareTemplate.Runs (sealHost removals left) s r t → t.SealsStripped removals left) ↔
      ∀ path ∈ STRIPPED, left.tree.Clears removals path := by
  constructor
  · intro hall
    obtain ⟨template, hrun⟩ := prepareTemplate_runs f removals left left.tree none
    obtain ⟨hok, _⟩ := hall _ _ _ rfl hrun template rfl
    cases stripForSeal_cases removals left with
    | inl hclears => exact hclears.1
    | inr hnot =>
      obtain ⟨_, tree, e, hfailed⟩ := hnot
      rw [hfailed] at hok
      cases hok
  · intro hclears s r t hs hrun
    have hends := hrun.ends (prepareTemplate_ends hclears hs)
    cases r with
    | none => exact hends
    | some result => exact hends

/-- A profile with a `SingletonLock` link, on a host that refuses to remove it. -/
def lockedProfile : ProfileTree where
  tree q := if q = ["SingletonLock"] then some .other else none
  closed := by
    intro q r hq hr hsome
    have hlong : q ++ r ≠ ["SingletonLock"] := by
      intro he
      have hlen := congrArg List.length he
      have hqlen := List.length_pos_iff.mpr hq
      have hrlen := List.length_pos_iff.mpr hr
      rw [List.length_append, List.length_singleton] at hlen
      omega
    exact absurd (if_neg hlong) hsome

def refusingLock : RemovalHost where
  stat _ := none
  stat_ne_notFound _ he := by cases he
  beyond _ := .error .notFound
  file path := if path = ["SingletonLock"] then some .refused else none
  dir _ := none

/-- The removal of the link fails, and the template is sealed with it. -/
theorem unstripped_template_sealed :
    (stripForSeal refusingLock lockedProfile.tree).2 = .error .refused ∧
      ∃ template s r t, s.templateDir = none ∧
        (ChromeFactory.new (LoadedConfig.default 4) FactoryHost.plain).prepareTemplate.Runs
          (sealHost refusingLock lockedProfile) s r t ∧
        t.templateDir = some template ∧ t.sealed = some (template, lockedProfile.tree) ∧
        lockedProfile.tree ["SingletonLock"] = some .other ∧
        ¬ t.SealsStripped refusingLock lockedProfile := by
  have hfailed : stripForSeal refusingLock lockedProfile.tree =
      (lockedProfile.tree, .error .refused) := rfl
  obtain ⟨template, hrun⟩ := prepareTemplate_runs
    (ChromeFactory.new (LoadedConfig.default 4) FactoryHost.plain) refusingLock lockedProfile
    lockedProfile.tree none
  rw [hfailed] at hrun
  refine ⟨by rw [hfailed], template, _, _, _, rfl, hrun, rfl, rfl, rfl, fun hseals => ?_⟩
  have hok := (hseals template rfl).1
  rw [hfailed] at hok
  cases hok

end BrowserServe
