import BrowserServe.SessionHost

namespace BrowserServe
open Library
set_option autoImplicit true

/-- An event that leaves nothing behind: a directory that could not be made is not there, the
last attempt to remove one succeeds, and a call is not dropped while something of it is there. -/
def SessionEvent.Tidy : SessionEvent → Prop
  | .answered (.createDirAll dirs) (.error _) roots _ => dirs.root ∉ roots
  | .answered (.removeDirAll _ attempt) (.error (.other _)) _ _ => attempt ≠ ATTEMPTS
  | .answered (.removeLeaf _ attempt) false _ _ => attempt ≠ REMOVE_ATTEMPTS
  | .answered _ _ _ _ => True
  | .dropped roots leaves => roots = [] ∧ leaves = []

/-- The calls that launch a session. -/
inductive CreateCall where
  | create
  | createSeeded (indexeddb : List ManifestEntry) (relay : Option Relay)
  | createProxied (relay : Relay)

def CreateCall.program (f : ChromeFactory) :
    CreateCall → FactoryM (Except CreateError ChromeSession)
  | create => f.create
  | createSeeded indexeddb relay => f.createSeeded indexeddb relay
  | createProxied relay => f.createProxied relay

namespace SessionHost

/-- Whatever a call has made and that is still there belongs to the session it returned. -/
def LeavesNothing (s : SessionHost) : Option (Except CreateError ChromeSession) → Prop
  | some (.ok session) =>
    (∀ root ∈ s.roots, root = session.dirs.root) ∧ ∀ leaf ∈ s.leaves, session.cgroup = some leaf
  | _ => s.roots = [] ∧ s.leaves = []

def Clean (s : SessionHost) : Prop := ∀ event ∈ s.log, event.Tidy

/-- The directories and the leaves that are there, and whether all went well so far. -/
structure Left (s : SessionHost) (roots leaves : List Text) (clean : Prop) : Prop where
  roots : s.roots = roots
  leaves : s.leaves = leaves
  clean : s.Clean ↔ clean

/-- What is asked of a host at which a call is dropped. -/
def AfterDrop (s : SessionHost) : Prop := s.Clean ↔ s.LeavesNothing none

variable {s t u : SessionHost} {roots leaves : List Text} {clean : Prop}

theorem Left.congr {clean' : Prop} (h : s.Left roots leaves clean) (heq : clean ↔ clean') :
    s.Left roots leaves clean' :=
  ⟨h.roots, h.leaves, h.clean.trans heq⟩

theorem Left.record (h : s.Left roots leaves clean) (op : FactoryOp) (answer : op.Answer) :
    (s.record op answer).Left roots leaves
      (clean ∧ SessionEvent.Tidy (.answered op answer roots leaves)) := by
  refine ⟨h.roots, h.leaves, ?_⟩
  rw [← h.clean, ← h.roots, ← h.leaves]
  simp only [Clean, SessionHost.record, List.forall_mem_append, List.forall_mem_singleton]

theorem Left.afterDrop (h : s.Left roots leaves clean)
    (hnothing : roots = [] → leaves = [] → clean) : s.recordDrop.AfterDrop := by
  have hclean : s.recordDrop.Clean ↔ s.Clean ∧ s.roots = [] ∧ s.leaves = [] := by
    simp only [Clean, recordDrop, List.forall_mem_append, List.forall_mem_singleton]
    exact Iff.rfl
  have hleft : s.recordDrop.LeavesNothing none ↔ s.roots = [] ∧ s.leaves = [] := Iff.rfl
  rw [AfterDrop, hclean, hleft, h.clean, h.roots, h.leaves]
  apply and_iff_right_of_imp
  rintro ⟨hroots, hleaves⟩
  exact hnothing hroots hleaves

end SessionHost

/-- The operations that neither make nor remove a directory or a leaf. -/
def FactoryOp.keeps : FactoryOp → Bool
  | createDirAll _ | cloneTemplate _ _ | removeDirAll _ _ | createLeaf _ | removeLeaf _ _ => false
  | _ => true

namespace SessionHost
variable {s t u : SessionHost} {roots leaves : List Text} {clean : Prop}

theorem Left.effect {op : FactoryOp} {answer : op.Answer} (h : s.Left roots leaves clean)
    (hop : op.keeps = true) (heffect : s.Effect op answer t) : t.Left roots leaves clean := by
  cases heffect with
  | limited => exact ⟨h.roots, h.leaves, h.clean⟩
  | monitored => exact ⟨h.roots, h.leaves, h.clean⟩
  | limitFailed => exact h
  | idle _ => exact h
  | _ => cases hop

theorem tidy_of_keeps {op : FactoryOp} {answer : op.Answer} (hop : op.keeps = true) :
    SessionEvent.Tidy (.answered op answer roots leaves) := by
  cases op <;> trivial

/-- What is there stays as it is. -/
theorem Left.ends {p : FactoryM α} (h : s.Left roots leaves clean)
    (hnothing : roots = [] → leaves = [] → clean)
    (hp : p.Asks (FactoryOp.keeps · = true) fun _ _ => True) :
    p.Ends sessionHost AfterDrop (fun _ t => t.Left roots leaves clean) s := by
  have hdoes : ∀ s op answer t, s.Left roots leaves clean → op.keeps = true →
      sessionHost.does s op answer t → t.Left roots leaves clean ∧ True := by
    rintro s op answer t hs hop ⟨u, heffect, rfl⟩
    have hu := (hs.effect hop heffect).record op answer
    exact ⟨hu.congr (and_iff_left (tidy_of_keeps hop)), trivial⟩
  apply Program.Asks.ends (I := fun t : SessionHost => t.Left roots leaves clean) hp h hdoes
  rintro s op t hs hop ⟨_, u, hu, rfl⟩
  cases hu with
  | inl hsame => exact Left.afterDrop (hsame ▸ hs) hnothing
  | inr hdone =>
    obtain ⟨_, answer, heffect⟩ := hdone
    exact (hs.effect hop heffect).afterDrop hnothing

theorem Left.ends_ask {op : FactoryOp} (h : s.Left roots leaves clean)
    (hnothing : roots = [] → leaves = [] → clean) (hop : op.keeps = true) :
    (ask op).Ends sessionHost AfterDrop (fun _ t => t.Left roots leaves clean) s :=
  h.ends hnothing (Program.asks_ask hop)

/-- A directory that is tried to remove is gone, or it is there and the attempt has failed. -/
theorem Left.removeDirAll {root : Text} {attempt : Nat}
    (h : s.Left [root] leaves clean) (hnothing : leaves = [] → clean) :
    (ask (.removeDirAll root attempt)).Ends sessionHost AfterDrop (fun removed t =>
      (removed = .ok () ∧ t.Left [] leaves clean) ∨
        ∃ e, removed = .error (.other e) ∧ t.Left [root] leaves (clean ∧ attempt ≠ ATTEMPTS))
        s := by
  have hgone : Left { s with roots := s.roots.erase root } [] leaves clean := by
    refine ⟨?_, h.leaves, h.clean⟩
    show s.roots.erase root = []
    rw [h.roots]
    simp
  constructor
  · rintro t ⟨_, u, hu, rfl⟩
    obtain rfl | ⟨_, answer, heffect⟩ := hu
    · exact h.afterDrop (by simp)
    · cases heffect with
      | removed => exact hgone.afterDrop fun _ => hnothing
      | notFound => exact h.afterDrop (by simp)
      | notRemoved => exact h.afterDrop (by simp)
      | idle hidle => cases hidle
  · rintro removed t ⟨u, heffect, rfl⟩
    cases heffect with
    | removed => exact .inl ⟨rfl, (hgone.record _ _).congr (and_iff_left trivial)⟩
    | notFound hmissing =>
      rw [h.roots] at hmissing
      exact absurd (List.mem_singleton_self root) hmissing
    | notRemoved => exact .inr ⟨_, rfl, h.record _ _⟩
    | idle hidle => cases hidle

/-- A leaf that is tried to remove is gone, or it is there and the attempt has failed. -/
theorem Left.removeLeaf {leaf : Text} {attempt : Nat} (h : s.Left roots [leaf] clean) :
    (ask (.removeLeaf leaf attempt)).Ends sessionHost AfterDrop (fun removed t =>
      (removed = true ∧ t.Left roots [] clean) ∨
        (removed = false ∧ t.Left roots [leaf] (clean ∧ attempt ≠ REMOVE_ATTEMPTS))) s := by
  constructor
  · rintro t ⟨hawaits, _⟩
    cases hawaits
  · rintro removed t ⟨u, heffect, rfl⟩
    cases heffect with
    | leafRemoved =>
      have hgone : Left { s with leaves := s.leaves.erase leaf } roots [] clean := by
        refine ⟨h.roots, ?_, h.clean⟩
        show s.leaves.erase leaf = []
        rw [h.leaves]
        simp
      exact .inl ⟨rfl, (hgone.record _ _).congr (and_iff_left trivial)⟩
    | leafKept => exact .inr ⟨rfl, h.record _ _⟩
    | idle hidle => cases hidle

theorem Left.createLeaf {leaf : Text} (h : s.Left roots [] True) :
    (ask (.createLeaf leaf)).Ends sessionHost AfterDrop (fun made t =>
      (made = .ok () ∧ t.Left roots [leaf] True) ∨
        ∃ e, made = .error e ∧ t.Left roots [] True) s := by
  constructor
  · rintro t ⟨hawaits, _⟩
    cases hawaits
  · rintro made t ⟨u, heffect, rfl⟩
    cases heffect with
    | leafMade =>
      have hmade : Left { s with leaves := s.leaves.insert leaf } roots [leaf] True := by
        refine ⟨h.roots, ?_, h.clean⟩
        show s.leaves.insert leaf = [leaf]
        rw [h.leaves]
        simp
      exact .inl ⟨rfl, (hmade.record _ _).congr (and_iff_left trivial)⟩
    | leafFailed => exact .inr ⟨_, rfl, (h.record _ _).congr (and_iff_left trivial)⟩
    | idle hidle => cases hidle

/-- A directory that is being made is there in the end, or may be: where it is not made, it is
there exactly when something is left behind. -/
theorem Left.createDirAll {dirs : SessionDirs} (h : s.Left roots [] True)
    (hroots : roots = [] ∨ roots = [dirs.root]) :
    (ask (.createDirAll dirs)).Ends sessionHost AfterDrop (fun made t =>
      (made = .ok () ∧ t.Left [dirs.root] [] True) ∨
        ∃ e, made = .error e ∧ (t.Left [] [] True ∨ t.Left [dirs.root] [] False)) s := by
  have hadded : (s.addRoot dirs.root).Left [dirs.root] [] True := by
    refine ⟨?_, h.leaves, h.clean⟩
    show s.roots.insert dirs.root = [dirs.root]
    rw [h.roots]
    obtain rfl | rfl := hroots
    · simp
    · simp
  have hkept : ∀ {e : String}, (s.record (.createDirAll dirs) (.error e)).Left [] [] True ∨
      (s.record (.createDirAll dirs) (.error e)).Left [dirs.root] [] False := by
    intro e
    have hrecord := h.record (.createDirAll dirs) (.error e)
    obtain rfl | rfl := hroots
    · exact .inl (hrecord.congr (iff_of_true ⟨trivial, List.not_mem_nil⟩ trivial))
    · exact .inr (hrecord.congr (iff_of_false (fun h => h.2 (List.mem_singleton_self _)) id))
  constructor
  · rintro t ⟨_, u, hu, rfl⟩
    obtain rfl | ⟨_, answer, heffect⟩ := hu
    · exact h.afterDrop fun _ _ => trivial
    · cases heffect with
      | dirMade => exact hadded.afterDrop fun _ _ => trivial
      | dirFailed => exact h.afterDrop fun _ _ => trivial
      | dirBegun => exact hadded.afterDrop fun _ _ => trivial
      | idle hidle => cases hidle
  · rintro made t ⟨u, heffect, rfl⟩
    cases heffect with
    | dirMade => exact .inl ⟨rfl, (hadded.record _ _).congr (and_iff_left trivial)⟩
    | dirFailed => exact .inr ⟨_, rfl, hkept⟩
    | dirBegun =>
      refine .inr ⟨_, rfl, .inr ?_⟩
      exact (hadded.record _ _).congr (iff_of_false (fun h => h.2 (List.mem_singleton_self _)) id)
    | idle hidle => cases hidle

theorem Left.cloneTemplate {template : Text} {dirs : SessionDirs} (h : s.Left [] [] True) :
    (ask (.cloneTemplate template dirs)).Ends sessionHost AfterDrop (fun cloned t =>
      (cloned = .ok (.ok ()) ∧ t.Left [dirs.root] [] True) ∨
        (cloned ≠ .ok (.ok ()) ∧ (t.Left [] [] True ∨ t.Left [dirs.root] [] True))) s := by
  have hadded : (s.addRoot dirs.root).Left [dirs.root] [] True := by
    refine ⟨?_, h.leaves, h.clean⟩
    show s.roots.insert dirs.root = [dirs.root]
    rw [h.roots]
    simp
  constructor
  · rintro t ⟨_, u, hu, rfl⟩
    obtain rfl | ⟨_, answer, heffect⟩ := hu
    · exact h.afterDrop fun _ _ => trivial
    · cases heffect with
      | cloned => exact hadded.afterDrop fun _ _ => trivial
      | cloneFailed _ => exact h.afterDrop fun _ _ => trivial
      | cloneBegun _ => exact hadded.afterDrop fun _ _ => trivial
      | idle hidle => cases hidle
  · rintro cloned t ⟨u, heffect, rfl⟩
    cases heffect with
    | cloned => exact .inl ⟨rfl, (hadded.record _ _).congr (and_iff_left trivial)⟩
    | cloneFailed hfailed =>
      exact .inr ⟨hfailed, .inl ((h.record _ _).congr (and_iff_left trivial))⟩
    | cloneBegun hfailed =>
      exact .inr ⟨hfailed, .inr ((hadded.record _ _).congr (and_iff_left trivial))⟩
    | idle hidle => cases hidle

/-- Either the directory is removed, or its last attempt has failed. -/
theorem Left.teardownFrom {dirs : SessionDirs} {lastErr : Option RemoveError} {n : Nat}
    (hn : n ≤ ATTEMPTS) (h : s.Left [dirs.root] leaves (clean ∧ n ≠ 0))
    (hnothing : leaves = [] → clean) :
    (dirs.teardownFrom lastErr (List.range' (ATTEMPTS + 1 - n) n)).Ends sessionHost AfterDrop
      (fun _ t => t.Left [] leaves clean ∨ t.Left [dirs.root] leaves False) s := by
  induction n generalizing s lastErr with
  | zero => exact .inr (h.congr (iff_of_false (fun h => h.2 rfl) id))
  | succ n ih =>
    have hhere : s.Left [dirs.root] leaves clean := h.congr (and_iff_left n.succ_ne_zero)
    have hlater : ATTEMPTS + 1 - (n + 1) + 1 = ATTEMPTS + 1 - n := by omega
    rw [List.range'_succ, hlater]
    apply (hhere.removeDirAll hnothing).bind
    rintro removed t (⟨rfl, ht⟩ | ⟨e, rfl, ht⟩)
    · exact .inl ht
    · have hlast : clean ∧ ATTEMPTS + 1 - (n + 1) ≠ ATTEMPTS ↔ clean ∧ n ≠ 0 := by
        apply and_congr_right
        intro _
        omega
      have hkept := ht.congr hlast
      dsimp only
      split
      · apply (hkept.ends_ask nofun rfl).bind
        intro _ u hu
        exact ih (by omega) hu
      · exact ih (by omega) hkept

theorem Left.teardown {dirs : SessionDirs} (h : s.Left [dirs.root] leaves clean)
    (hnothing : leaves = [] → clean) :
    dirs.teardown.Ends sessionHost AfterDrop
      (fun _ t => t.Left [] leaves clean ∨ t.Left [dirs.root] leaves False) s :=
  Left.teardownFrom (Nat.le_refl ATTEMPTS) (h.congr (and_iff_left (by decide)).symm) hnothing

theorem Left.removeLeafFrom {root leaf : Text} {n : Nat} (hn : n ≤ REMOVE_ATTEMPTS)
    (h : s.Left [root] [leaf] (n ≠ 0)) :
    (removeLeafFrom leaf (List.range' (REMOVE_ATTEMPTS + 1 - n) n)).Ends sessionHost AfterDrop
      (fun _ t => t.Left [root] [] True ∨ t.Left [root] [leaf] False) s := by
  induction n generalizing s with
  | zero => exact .inr (h.congr (iff_of_false (fun h => h rfl) id))
  | succ n ih =>
    have hhere : s.Left [root] [leaf] True := h.congr (iff_of_true n.succ_ne_zero trivial)
    have hlater : REMOVE_ATTEMPTS + 1 - (n + 1) + 1 = REMOVE_ATTEMPTS + 1 - n := by omega
    rw [List.range'_succ, hlater]
    apply hhere.removeLeaf.bind
    rintro removed t (⟨rfl, ht⟩ | ⟨rfl, ht⟩)
    · exact .inl ht
    · have hlast : True ∧ REMOVE_ATTEMPTS + 1 - (n + 1) ≠ REMOVE_ATTEMPTS ↔ n ≠ 0 := by
        rw [true_and]
        omega
      have hkept := ht.congr hlast
      split
      · cases ‹false = true›
      · split
        · apply (hkept.ends_ask nofun rfl).bind
          intro _ u hu
          exact ih (by omega) hu
        · exact ih (by omega) hkept

/-- What is there when a call has a directory, and a leaf or none; a leaf that it has not could
not be removed. -/
def Held (s : SessionHost) (root : Text) (cgroup : Option Text) : Prop :=
  s.Left [root] cgroup.toList True ∨ cgroup = none ∧ ∃ leaf, s.Left [root] [leaf] False

theorem Held.destroyCgroup {root : Text} {cgroup : Option Text} (h : s.Held root cgroup) :
    (destroyCgroup cgroup).Ends sessionHost AfterDrop (fun _ t => t.Held root none) s := by
  cases cgroup with
  | none => exact h
  | some leaf =>
    obtain hheld | ⟨hnone, _⟩ := h
    · apply Program.Ends.bind (Q := fun _ t => t.Held root none)
      · apply (hheld.ends_ask nofun rfl).bind
        intro _ t ht
        have hfull : t.Left [root] [leaf] (REMOVE_ATTEMPTS ≠ 0) :=
          ht.congr (iff_of_true trivial (by decide))
        apply (Left.removeLeafFrom (Nat.le_refl _) hfull).bind
        rintro _ u (hu | hu)
        · exact .inl hu
        · exact .inr ⟨rfl, leaf, hu⟩
      · intro _ t ht
        exact ht
    · cases hnone

theorem Held.ends {root : Text} {cgroup : Option Text} {p : FactoryM α} (h : s.Held root cgroup)
    (hp : p.Asks (FactoryOp.keeps · = true) fun _ _ => True) :
    p.Ends sessionHost AfterDrop (fun _ t => t.Held root cgroup) s := by
  cases h with
  | inl hheld => exact (hheld.ends nofun hp).imp fun _ _ => .inl
  | inr hrefused =>
    obtain ⟨hnone, leaf, hleft⟩ := hrefused
    exact (hleft.ends nofun hp).imp fun _ _ ht => .inr ⟨hnone, leaf, ht⟩

end SessionHost

namespace ChromeFactory
open SessionHost
variable {f : ChromeFactory} {s : SessionHost}

theorem launches_keep {op : FactoryOp} (h : op.launches = true) : op.keeps = true := by
  cases op <;> trivial

theorem limits_keep {op : FactoryOp} (h : op.limits = true) : op.keeps = true := by
  cases op <;> trivial

theorem prepareLeaf_held {root : Text} (h : s.Left [root] [] True) :
    f.prepareLeaf.Ends sessionHost AfterDrop (fun cgroup t => t.Held root cgroup) s := by
  apply (h.ends_ask nofun rfl).bind
  intro blocked t ht
  cases blocked with
  | true => exact .inl ht
  | false =>
    cases f.cgroupBase with
    | none => exact .inl ht
    | some base =>
      apply (ht.ends_ask nofun rfl).bind
      intro seq u hu
      apply hu.createLeaf.bind
      rintro made v (⟨rfl, hv⟩ | ⟨e, rfl, hv⟩)
      · apply (hv.ends nofun (limitLeaf_asks _ fun _ => limits_keep)).bind
        intro _ w hw
        exact .inl hw
      · exact .inl hv

theorem retryWithoutLeaf_held {dirs : SessionDirs} {extraFlags : List Text}
    {cgroup : Option Text} {launched : Except Chrome.LaunchError Chrome.Browser}
    (h : s.Held dirs.root cgroup) :
    (f.retryWithoutLeaf dirs extraFlags cgroup launched).Ends sessionHost AfterDrop
      (fun kept t => t.Held dirs.root kept.1) s := by
  unfold retryWithoutLeaf
  split
  · apply (h.ends (Program.asks_ask rfl)).bind
    intro _ t ht
    apply ht.destroyCgroup.bind
    intro _ u hu
    apply (hu.ends (launchBrowser_asks fun _ => launches_keep)).bind
    intro again v hv
    exact hv
  · exact h

/-- What is there once a session is returned or refused is there by right, or something went
wrong. -/
theorem finishLaunch_leaves {dirs : SessionDirs} {relay : Option Relay} {cgroup : Option Text}
    {launched : Except Chrome.LaunchError Chrome.Browser} (h : s.Held dirs.root cgroup) :
    (f.finishLaunch dirs relay cgroup launched).Ends sessionHost AfterDrop
      (fun created t => t.Clean ↔ t.LeavesNothing (some created)) s := by
  cases launched with
  | ok browser =>
    apply (h.ends (Program.asks_ask rfl)).bind
    intro _ t ht
    have hmonitor : (f.spawnSoftCap cgroup.isSome browser.pid).Asks (FactoryOp.keeps · = true)
        fun _ _ => True := by
      unfold spawnSoftCap
      split
      · exact Program.asks_pure
      · exact Program.asks_bind (Program.asks_ask rfl) fun _ => Program.asks_pure
    apply (ht.ends hmonitor).bind
    rintro handle u (hu | ⟨rfl, leaf, hu⟩)
    · refine iff_of_true (hu.clean.2 trivial) ⟨?_, ?_⟩
      · intro root hroot
        rw [hu.roots] at hroot
        exact List.mem_singleton.1 hroot
      · intro leaf hleaf
        rw [hu.leaves] at hleaf
        exact Option.mem_toList.1 hleaf
    · refine iff_of_false hu.clean.1 ?_
      rintro ⟨_, hleaves⟩
      cases hleaves leaf (hu.leaves ▸ List.mem_singleton_self leaf)
  | error e =>
    apply h.destroyCgroup.bind
    rintro _ t (ht | ⟨_, leaf, ht⟩)
    · apply (ht.teardown fun _ => trivial).bind
      rintro _ u (hu | hu)
      · exact iff_of_true (hu.clean.2 trivial) ⟨hu.roots, hu.leaves⟩
      · refine iff_of_false hu.clean.1 ?_
        rintro ⟨hroots, _⟩
        exact List.cons_ne_nil _ _ (hu.roots.symm.trans hroots)
    · apply (ht.teardown nofun).bind
      rintro _ u (hu | hu)
      · refine iff_of_false hu.clean.1 ?_
        rintro ⟨_, hleaves⟩
        exact List.cons_ne_nil _ _ (hu.leaves.symm.trans hleaves)
      · refine iff_of_false hu.clean.1 ?_
        rintro ⟨hroots, _⟩
        exact List.cons_ne_nil _ _ (hu.roots.symm.trans hroots)

theorem launchSession_leaves {dirs : SessionDirs} {relay : Option Relay}
    (h : s.Left [dirs.root] [] True) :
    (f.launchSession dirs relay).Ends sessionHost AfterDrop
      (fun created t => t.Clean ↔ t.LeavesNothing (some created)) s := by
  apply (prepareLeaf_held h).bind
  intro cgroup t ht
  apply (ht.ends (launchBrowser_asks fun _ => launches_keep)).bind
  intro launched u hu
  apply (retryWithoutLeaf_held hu).bind
  intro kept v hv
  exact finishLaunch_leaves hv

theorem provisionPlain_left {roots : List Text} {dataDir id : Text} (h : s.Left roots [] True)
    (hroots : roots = [] ∨ roots = [(SessionDirs.new dataDir id).root]) :
    (SessionDirs.provisionPlain dataDir id).Ends sessionHost AfterDrop (fun made t =>
      (∃ dirs, made = .ok dirs ∧ t.Left [dirs.root] [] True) ∨
        ∃ e root, made = .error e ∧ (t.Left [] [] True ∨ t.Left [root] [] False)) s := by
  apply (h.createDirAll hroots).bind
  rintro made t (⟨rfl, ht⟩ | ⟨e, rfl, ht⟩)
  · exact .inl ⟨_, rfl, ht⟩
  · exact .inr ⟨e, _, rfl, ht⟩

theorem provisionDirs_left (h : s.Left [] [] True) :
    f.provisionDirs.Ends sessionHost AfterDrop (fun made t =>
      (∃ dirs, made = .ok dirs ∧ t.Left [dirs.root] [] True) ∨
        ∃ e root, made = .error e ∧ (t.Left [] [] True ∨ t.Left [root] [] False)) s := by
  apply (h.ends_ask (fun _ _ => trivial) rfl).bind
  intro id t ht
  apply (ht.ends_ask (fun _ _ => trivial) rfl).bind
  intro template u hu
  cases template with
  | none => exact provisionPlain_left hu (.inl rfl)
  | some template =>
    apply hu.cloneTemplate.bind
    rintro cloned v (⟨rfl, hv⟩ | ⟨hfailed, hv⟩)
    · exact .inl ⟨_, rfl, hv⟩
    · have hplain : (SessionDirs.provisionPlain f.dataDir id).Ends sessionHost AfterDrop
          (fun made t =>
          (∃ dirs, made = .ok dirs ∧ t.Left [dirs.root] [] True) ∨
            ∃ e root, made = .error e ∧ (t.Left [] [] True ∨ t.Left [root] [] False)) v := by
        cases hv with
        | inl hempty => exact provisionPlain_left hempty (.inl rfl)
        | inr hbegun => exact provisionPlain_left hbegun (.inr rfl)
      cases cloned with
      | error e => exact hplain
      | ok copied =>
        cases copied with
        | ok _ => exact absurd rfl hfailed
        | error e => exact hplain

theorem withDirs_leaves {run : SessionDirs → FactoryM (Except CreateError ChromeSession)}
    (h : s.Left [] [] True)
    (hrun : ∀ dirs t, t.Left [dirs.root] [] True → (run dirs).Ends sessionHost AfterDrop
      (fun created u => u.Clean ↔ u.LeavesNothing (some created)) t) :
    (f.withDirs run).Ends sessionHost AfterDrop
      (fun created u => u.Clean ↔ u.LeavesNothing (some created)) s := by
  apply (provisionDirs_left h).bind
  rintro made t (⟨dirs, rfl, ht⟩ | ⟨e, root, rfl, ht | ht⟩)
  · exact hrun dirs t ht
  · exact iff_of_true (ht.clean.2 trivial) ⟨ht.roots, ht.leaves⟩
  · refine iff_of_false ht.clean.1 ?_
    rintro ⟨hroots, _⟩
    exact List.cons_ne_nil _ _ (ht.roots.symm.trans hroots)

/-- A seed that fails is cleaned up like a launch. -/
theorem teardown_leaves {dirs : SessionDirs} {e : CreateError} (h : s.Left [dirs.root] [] True) :
    (dirs.teardown >>= fun _ => pure (.error e)).Ends sessionHost AfterDrop
      (fun created u => u.Clean ↔
        u.LeavesNothing (some (created : Except CreateError ChromeSession))) s := by
  apply (h.teardown fun _ => trivial).bind
  rintro _ t (ht | ht)
  · exact iff_of_true (ht.clean.2 trivial) ⟨ht.roots, ht.leaves⟩
  · refine iff_of_false ht.clean.1 ?_
    rintro ⟨hroots, _⟩
    exact List.cons_ne_nil _ _ (ht.roots.symm.trans hroots)

theorem create_leaves (call : CreateCall) (h : s.Left [] [] True) :
    (call.program f).Ends sessionHost AfterDrop
      (fun created t => t.Clean ↔ t.LeavesNothing (some created)) s := by
  cases call with
  | create => exact withDirs_leaves h fun _ _ => launchSession_leaves
  | createProxied relay => exact withDirs_leaves h fun _ _ => launchSession_leaves
  | createSeeded indexeddb relay =>
    apply withDirs_leaves h
    intro dirs t ht
    split
    · exact launchSession_leaves ht
    · apply (ht.ends_ask nofun rfl).bind
      intro extracted u hu
      cases extracted with
      | error e => exact teardown_leaves hu
      | ok written =>
        cases written with
        | ok _ => exact launchSession_leaves hu
        | error e => exact teardown_leaves hu

end ChromeFactory

/-- A call that is over leaves nothing behind but its session's, exactly when no step of it was
untidy. -/
theorem launch_leaves_nothing_iff (f : ChromeFactory) (call : CreateCall)
    (r : Option (Except CreateError ChromeSession)) (s : SessionHost)
    (hrun : (call.program f).Runs sessionHost SessionHost.new r s) :
    s.LeavesNothing r ↔ ∀ event ∈ s.log, event.Tidy := by
  have hnew : SessionHost.new.Left [] [] True :=
    ⟨rfl, rfl, iff_of_true (fun _ h => absurd h List.not_mem_nil) trivial⟩
  have hends := hrun.ends (ChromeFactory.create_leaves call hnew)
  cases r with
  | none => exact hends.symm
  | some created => exact hends.symm

def plainFactory : ChromeFactory :=
  .new { LoadedConfig.default 4 with stealth := false } .plain

def plainDirs : SessionDirs := .new (text ".browserserve") (text "id")

/-- A `create` that is dropped while its browser starts. -/
def droppedHost : SessionHost :=
  let made := ((SessionHost.new.record .newId (text "id")).record .templateDir none).addRoot
    plainDirs.root
  ((((made.record (.createDirAll plainDirs) (.ok ())).record .leafEnterBlocked false).record
    .sandboxDisabled false).record .sandboxDisabled false).recordDrop

theorem droppedHost_run : plainFactory.create.Runs sessionHost SessionHost.new none droppedHost :=
  .goesOn (text "id") ⟨_, .idle rfl, rfl⟩ <|
  .goesOn none ⟨_, .idle rfl, rfl⟩ <|
  .goesOn (.ok ()) ⟨_, .dirMade, rfl⟩ <|
  .goesOn false ⟨_, .idle rfl, rfl⟩ <|
  .goesOn false ⟨_, .idle rfl, rfl⟩ <|
  .goesOn false ⟨_, .idle rfl, rfl⟩ <|
  .dropped ⟨rfl, _, .inl rfl, rfl⟩

theorem launch_leaves_nothing_iff_dropped :
    droppedHost.LeavesNothing none ↔ ∀ event ∈ droppedHost.log, event.Tidy :=
  launch_leaves_nothing_iff plainFactory .create none droppedHost droppedHost_run

theorem dropped_launch_leaves_directory :
    ¬ ∀ (f : ChromeFactory) (call : CreateCall) (r : Option (Except CreateError ChromeSession))
      (s : SessionHost), (call.program f).Runs sessionHost SessionHost.new r s →
      s.LeavesNothing r := by
  intro hall
  obtain ⟨hroots, _⟩ := hall plainFactory .create none droppedHost droppedHost_run
  have hthere : droppedHost.roots = [plainDirs.root] := rfl
  exact List.cons_ne_nil _ _ (hthere.symm.trans hroots)

end BrowserServe
