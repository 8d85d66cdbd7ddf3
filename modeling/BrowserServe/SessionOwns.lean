import BrowserServe.SessionLife

namespace BrowserServe
open Library
set_option autoImplicit true

/-- No life has any more to do with it: it was asked in vain to be given up, or was only begun. -/
def Left (r : Finset Thing) (x : Resource) : Prop := .refused x ∈ r ∨ .begun x ∈ r

/-- A life has of its host what is listed, but for what is left, and the name of each. -/
structure Has (f : ChromeFactory) (r : Finset Thing) (xs : List Resource) : Prop where
  only : ∀ x, .there x ∈ r → Left r x ∨ x ∈ xs
  anchored : ∀ x ∈ xs, ∃ k ∈ r, x.anchor f k

/-- A session's directories are one inside the other. -/
def SessionDirs.Formed (dirs : SessionDirs) : Prop :=
  dirs.userDataDir = joinDir dirs.root (text "user-data-dir")

/-- Code of the factory that asks for what is its own. -/
abbrev Minds (f : ChromeFactory) (p : FactoryM α) (Q : α → Finset Thing → Prop)
    (r : Finset Thing) : Prop :=
  p.Owns factoryHost (fun r op => ∀ n ∈ op.names, n.Own f r) (fun _ => False) Q r

variable {f : ChromeFactory} {r : Finset Thing} {x : Resource} {xs : List Resource}
  {dirs : SessionDirs}

theorem mem_gone {t : Thing} :
    t ∈ gone x r ↔ t ≠ .refused x ∧ t ≠ .begun x ∧ t ≠ .there x ∧ t ∈ r := by
  simp only [gone, Finset.mem_erase]

theorem Left.insert {y : Thing} (h : Left r x) : Left (insert y r) x :=
  h.imp Finset.mem_insert_of_mem Finset.mem_insert_of_mem

theorem Left.gone {y : Resource} (h : Left r y) (hne : y ≠ x) : Left (gone x r) y := by
  cases h with
  | inl hrefused =>
    exact .inl (mem_gone.2 ⟨fun heq => hne (Thing.refused.inj heq), (fun heq => nomatch heq),
      (fun heq => nomatch heq), hrefused⟩)
  | inr hbegun =>
    exact .inr (mem_gone.2 ⟨(fun heq => nomatch heq), fun heq => hne (Thing.begun.inj heq),
      (fun heq => nomatch heq), hbegun⟩)

/-- A mark is no name, and no resource that is there. -/
theorem Thing.mark_ne {y : Resource} {k : Thing} (hk : k = .refused y ∨ k = .begun y) :
    (∀ id, k ≠ .name id) ∧ (∀ n, k ≠ .seq n) ∧ ∀ x, k ≠ .there x := by
  rcases hk with rfl | rfl
  · exact ⟨(fun _ h => nomatch h), (fun _ h => nomatch h), (fun _ h => nomatch h)⟩
  · exact ⟨(fun _ h => nomatch h), (fun _ h => nomatch h), (fun _ h => nomatch h)⟩

/-- A mark is not what a resource is known by. -/
theorem Resource.anchor_mark {y : Resource} {k : Thing} (hk : k = .refused y ∨ k = .begun y) :
    ¬x.anchor f k := by
  obtain ⟨hname, hseq, hthere⟩ := Thing.mark_ne hk
  cases x with
  | directory root =>
    rintro ⟨id, hid, _⟩
    exact hname id hid
  | leaf l =>
    rintro ⟨base, n, _, hn, _⟩
    exact hseq n hn
  | browser pid => exact hthere _
  | monitor handle => exact hthere _
  | relay port => exact hthere _

theorem Resource.anchor_there {y : Resource} (h : x.anchor f (.there y)) : x = y := by
  cases x with
  | directory root =>
    obtain ⟨id, hk, _⟩ := h
    cases hk
  | leaf l =>
    obtain ⟨base, n, _, hk, _⟩ := h
    cases hk
  | browser pid => exact (Thing.there.inj h).symm
  | monitor handle => exact (Thing.there.inj h).symm
  | relay port => exact (Thing.there.inj h).symm

namespace Has

theorem nil : Has f ∅ [] :=
  ⟨fun _ h => absurd h (Finset.notMem_empty _), fun _ h => absurd h List.not_mem_nil⟩

theorem mono {ys : List Resource} (h : Has f r xs) (hsub : ∀ x ∈ xs, x ∈ ys)
    (hanchored : ∀ y ∈ ys, y ∈ xs ∨ ∃ k ∈ r, y.anchor f k) : Has f r ys := by
  refine ⟨fun x hx => (h.only x hx).imp_right (hsub x), fun y hy => ?_⟩
  cases hanchored y hy with
  | inl hin => exact h.anchored y hin
  | inr hanchor => exact hanchor

theorem perm {ys : List Resource} (h : Has f r xs) (hperm : ∀ x, x ∈ xs ↔ x ∈ ys) : Has f r ys :=
  h.mono (fun x => (hperm x).1) fun y hy => .inl ((hperm y).2 hy)

theorem insert_name {k : Thing} (h : Has f r xs) (hk : ∀ x, k ≠ .there x) :
    Has f (insert k r) xs := by
  constructor
  · intro x hx
    have hin := (Finset.mem_insert.1 hx).resolve_left fun heq => hk x heq.symm
    exact (h.only x hin).imp_left Left.insert
  · intro x hx
    obtain ⟨k', hk', hanchor⟩ := h.anchored x hx
    exact ⟨k', Finset.mem_insert_of_mem hk', hanchor⟩

theorem insert_there (h : Has f r xs) (hanchor : ∃ k ∈ insert (.there x) r, x.anchor f k) :
    Has f (insert (.there x) r) (x :: xs) := by
  constructor
  · intro y hy
    rcases Finset.mem_insert.1 hy with heq | hin
    · cases heq
      exact .inr List.mem_cons_self
    · exact (h.only y hin).imp Left.insert (List.mem_cons_of_mem x)
  · intro y hy
    rcases List.mem_cons.1 hy with rfl | hin
    · exact hanchor
    · obtain ⟨k, hk, hanchor⟩ := h.anchored y hin
      exact ⟨k, Finset.mem_insert_of_mem hk, hanchor⟩

/-- A resource that may have been there already. -/
theorem insert_again (h : Has f r (x :: xs)) : Has f (insert (.there x) r) (x :: xs) := by
  obtain ⟨k, hk, hanchor⟩ := h.anchored x List.mem_cons_self
  exact (h.insert_there ⟨k, Finset.mem_insert_of_mem hk, hanchor⟩).perm (by simp)

theorem leave {k : Thing} (h : Has f r (x :: xs)) (hk : k = .refused x ∨ k = .begun x) :
    Has f (insert k r) xs := by
  have hleft : Left (insert k r) x := by
    rcases hk with rfl | rfl
    · exact .inl (Finset.mem_insert_self _ _)
    · exact .inr (Finset.mem_insert_self _ _)
  constructor
  · intro y hy
    have hin : .there y ∈ r := (Finset.mem_insert.1 hy).resolve_left fun heq =>
      (Thing.mark_ne hk).2.2 y heq.symm
    rcases h.only y hin with hold | hmem
    · exact .inl hold.insert
    · rcases List.mem_cons.1 hmem with rfl | hmem
      · exact .inl hleft
      · exact .inr hmem
  · intro y hy
    obtain ⟨k, hk, hanchor⟩ := h.anchored y (List.mem_cons_of_mem x hy)
    exact ⟨k, Finset.mem_insert_of_mem hk, hanchor⟩

theorem gone (h : Has f r (x :: xs)) (hlast : x ∈ xs → ¬x.anchor f (.there x)) :
    Has f (gone x r) xs := by
  constructor
  · intro y hy
    obtain ⟨_, _, hne, hin⟩ := mem_gone.1 hy
    have hyx : y ≠ x := fun heq => hne (congrArg Thing.there heq)
    rcases h.only y hin with hleft | hmem
    · exact .inl (hleft.gone hyx)
    · exact .inr ((List.mem_cons.1 hmem).resolve_left hyx)
  · intro y hy
    obtain ⟨k, hk, hanchor⟩ := h.anchored y (List.mem_cons_of_mem x hy)
    refine ⟨k, mem_gone.2 ⟨fun heq => Resource.anchor_mark (.inl heq) hanchor,
      fun heq => Resource.anchor_mark (.inr heq) hanchor, ?_, hk⟩, hanchor⟩
    rintro rfl
    cases Resource.anchor_there hanchor
    exact hlast hy hanchor

theorem absent (h : Has f r (x :: xs)) (hx : .there x ∉ r) : Has f r xs := by
  refine ⟨fun y hy => ?_, fun y hy => h.anchored y (List.mem_cons_of_mem x hy)⟩
  rcases h.only y hy with hleft | hmem
  · exact .inl hleft
  · rcases List.mem_cons.1 hmem with rfl | hmem
    · exact absurd hy hx
    · exact .inr hmem

theorem root_own (h : Has f r xs) (hmem : .directory dirs.root ∈ xs) :
    Name.Own f r (.root dirs.root) := by
  obtain ⟨k, hk, id, rfl, hroot⟩ := h.anchored _ hmem
  exact ⟨id, hk, hroot⟩

theorem userDataDir_own (h : Has f r xs) (hmem : .directory dirs.root ∈ xs) (hdirs : dirs.Formed) :
    Name.Own f r (.userDataDir dirs.userDataDir) := by
  obtain ⟨id, hk, hroot⟩ := h.root_own hmem
  refine ⟨id, hk, ?_⟩
  rw [hdirs, hroot]
  rfl

theorem leaf_own (h : Has f r xs) (hmem : .leaf l ∈ xs) : Name.Own f r (.leaf l) := by
  obtain ⟨k, hk, base, n, hbase, rfl, hleaf⟩ := h.anchored _ hmem
  exact ⟨base, n, hbase, hk, hleaf⟩

/-- Where a resource is known by itself, it is there. -/
theorem known (h : Has f r xs) (hmem : x ∈ xs) (hself : ∀ k, x.anchor f k → k = .there x) :
    .there x ∈ r := by
  obtain ⟨k, hk, hanchor⟩ := h.anchored x hmem
  exact hself k hanchor ▸ hk

end Has

theorem minds_pure {Q : α → Finset Thing → Prop} (h : Q a r) :
    Minds f (pure a) Q r := h

theorem minds_ask {op : FactoryOp} {Q : op.Answer → Finset Thing → Prop}
    (hnames : ∀ n ∈ op.names, n.Own f r)
    (hdo : ∀ answer r', FactoryEffect r op answer r' → Q answer r') : Minds f (ask op) Q r :=
  Program.owns_ask hnames (fun _ hdrop => hdrop) hdo

theorem FactoryEffect.eq_of_settled {op : FactoryOp} {answer : op.Answer} {r' : Finset Thing}
    (h : FactoryEffect r op answer r') (hop : op.settled = true) : r = r' := by
  cases h with
  | settled _ => rfl
  | _ => cases hop

/-- An operation that changes none of the things. -/
theorem minds_settled {op : FactoryOp} (hop : op.settled = true)
    (hnames : ∀ n ∈ op.names, n.Own f r) : Minds f (ask op) (fun _ r' => r = r') r :=
  minds_ask hnames fun _ _ h => h.eq_of_settled hop

theorem minds_removeDirAll {attempt : Nat} (h : Has f r (.directory dirs.root :: xs)) :
    Minds f (ask (.removeDirAll dirs.root attempt)) (fun removed r' =>
      Has f r' xs ∧ (removed = .ok () ∨ removed = .error .notFound ∨
        attempt = ATTEMPTS ∧ ∃ e, removed = .error (.other e)) ∨
      attempt < ATTEMPTS ∧ (∃ e, removed = .error (.other e)) ∧
        Has f r' (.directory dirs.root :: xs)) r := by
  apply minds_ask
  · intro n hn
    cases List.mem_singleton.1 hn
    exact h.root_own List.mem_cons_self
  · intro removed r' heffect
    cases heffect with
    | removed =>
      refine .inl ⟨h.gone ?_, .inl rfl⟩
      rintro _ ⟨id, hk, _⟩
      cases hk
    | notFound habsent => exact .inl ⟨h.absent habsent, .inr (.inl rfl)⟩
    | notRemoved hless => exact .inr ⟨hless, ⟨_, rfl⟩, h⟩
    | neverRemoved => exact .inl ⟨h.leave (.inl rfl), .inr (.inr ⟨rfl, _, rfl⟩)⟩
    | settled hop => cases hop

/-- Whatever becomes of the attempts, the directory is not a life's any more: it is gone, or the
last attempt was refused. -/
theorem minds_teardownFrom {lastErr : Option RemoveError} {n : Nat} (hn : n ≤ ATTEMPTS)
    (h : if n = 0 then Has f r xs else Has f r (.directory dirs.root :: xs)) :
    Minds f (dirs.teardownFrom lastErr (List.range' (ATTEMPTS + 1 - n) n))
      (fun _ r' => Has f r' xs) r := by
  induction n generalizing r lastErr with
  | zero => exact h
  | succ n ih =>
    rw [if_neg n.succ_ne_zero] at h
    have hlater : ATTEMPTS + 1 - (n + 1) + 1 = ATTEMPTS + 1 - n := by omega
    rw [List.range'_succ, hlater]
    apply (minds_removeDirAll h).bind
    rintro removed r' (⟨hr', rfl | rfl | ⟨hlast, e, rfl⟩⟩ | ⟨hless, ⟨e, rfl⟩, hr'⟩)
    · exact hr'
    · exact hr'
    · have hzero : n = 0 := by omega
      subst hzero
      dsimp only
      rw [if_neg (by omega)]
      exact hr'
    · have hmore : n ≠ 0 := by omega
      dsimp only
      rw [if_pos hless]
      apply (minds_settled rfl fun _ hn => absurd hn List.not_mem_nil).bind
      rintro _ _ rfl
      refine ih (by omega) ?_
      rw [if_neg hmore]
      exact hr'

theorem minds_teardown (h : Has f r (.directory dirs.root :: xs)) :
    Minds f dirs.teardown (fun _ r' => Has f r' xs) r :=
  minds_teardownFrom (Nat.le_refl ATTEMPTS) h

theorem minds_removeLeaf {leaf : Text} {attempt : Nat} (h : Has f r (.leaf leaf :: xs)) :
    Minds f (ask (.removeLeaf leaf attempt)) (fun removed r' =>
      Has f r' xs ∧ (removed = true ∨ attempt = REMOVE_ATTEMPTS ∧ removed = false) ∨
        attempt < REMOVE_ATTEMPTS ∧ removed = false ∧ Has f r' (.leaf leaf :: xs)) r := by
  apply minds_ask
  · intro n hn
    cases List.mem_singleton.1 hn
    exact h.leaf_own List.mem_cons_self
  · intro removed r' heffect
    cases heffect with
    | leafRemoved =>
      refine .inl ⟨h.gone ?_, .inl rfl⟩
      rintro _ ⟨base, n, _, hk, _⟩
      cases hk
    | leafNotRemoved hless => exact .inr ⟨hless, rfl, h⟩
    | leafNeverRemoved => exact .inl ⟨h.leave (.inl rfl), .inr ⟨rfl, rfl⟩⟩
    | settled hop => cases hop

theorem minds_removeLeafFrom {leaf : Text} {n : Nat} (hn : n ≤ REMOVE_ATTEMPTS)
    (h : if n = 0 then Has f r xs else Has f r (.leaf leaf :: xs)) :
    Minds f (removeLeafFrom leaf (List.range' (REMOVE_ATTEMPTS + 1 - n) n))
      (fun _ r' => Has f r' xs) r := by
  induction n generalizing r with
  | zero => exact h
  | succ n ih =>
    rw [if_neg n.succ_ne_zero] at h
    have hlater : REMOVE_ATTEMPTS + 1 - (n + 1) + 1 = REMOVE_ATTEMPTS + 1 - n := by omega
    rw [List.range'_succ, hlater]
    apply (minds_removeLeaf h).bind
    rintro removed r' (⟨hr', rfl | ⟨hlast, rfl⟩⟩ | ⟨hless, rfl, hr'⟩)
    · exact hr'
    · have hzero : n = 0 := by omega
      subst hzero
      rw [if_neg Bool.false_ne_true, if_neg (by omega)]
      exact hr'
    · have hmore : n ≠ 0 := by omega
      rw [if_neg Bool.false_ne_true, if_pos hless]
      apply (minds_settled rfl fun _ hn => absurd hn List.not_mem_nil).bind
      rintro _ _ rfl
      refine ih (by omega) ?_
      rw [if_neg hmore]
      exact hr'

/-- The leaf of a session, if it has one, before the rest of what it has. -/
def leafOf (cgroup : Option Text) : List Resource := cgroup.toList.map .leaf

theorem minds_destroyCgroup {cgroup : Option Text} (h : Has f r (leafOf cgroup ++ xs)) :
    Minds f (destroyCgroup cgroup) (fun _ r' => Has f r' xs) r := by
  cases cgroup with
  | none => exact h
  | some leaf =>
    have hleaf : Has f r (.leaf leaf :: xs) := h
    apply Program.Owns.bind (Q := fun _ r' => Has f r' xs)
    · apply (minds_settled rfl ?_).bind
      · rintro _ _ rfl
        apply (minds_removeLeafFrom (Nat.le_refl REMOVE_ATTEMPTS) hleaf).bind
        exact fun _ _ hr' => hr'
      · intro n hn
        cases List.mem_singleton.1 hn
        exact hleaf.leaf_own List.mem_cons_self
    · exact fun _ _ hr' => hr'

/-- The browser of a launch, if it came to one. -/
def browserOf : Except Chrome.LaunchError Chrome.Browser → List Resource
  | .ok browser => [.browser browser.pid]
  | .error _ => []

def monitorOf (monitor : Option AbortHandle) : List Resource := monitor.toList.map .monitor

/-- What a session has, in the order in which it is given up; its relay goes before its
directory. -/
def ChromeSession.resources (session : ChromeSession) : List Resource :=
  monitorOf session.monitor ++ (leafOf session.cgroup ++
    [.browser session.browser.pid, .directory session.dirs.root])

theorem formed_new (dataDir id : Text) : (SessionDirs.new dataDir id).Formed := rfl

theorem minds_newId (h : Has f r xs) : Minds f (ask .newId) (fun id r' =>
    Has f r' (.directory (SessionDirs.new f.dataDir id).root :: xs)) r := by
  apply minds_ask
  · exact fun _ hn => absurd hn List.not_mem_nil
  · intro id r' heffect
    cases heffect with
    | newId huuid hfresh =>
      have hname : Has f (insert (.name id) r) xs := h.insert_name fun _ heq => nomatch heq
      refine hname.mono (fun _ => List.mem_cons_of_mem _) fun y hy => ?_
      rcases List.mem_cons.1 hy with rfl | hin
      · exact .inr ⟨.name id, Finset.mem_insert_self _ _, id, rfl, rfl⟩
      · exact .inl hin
    | settled hop => cases hop

theorem dirs_own (h : Has f r xs) (hmem : .directory dirs.root ∈ xs) (hdirs : dirs.Formed) :
    ∀ n ∈ [Name.root dirs.root, .userDataDir dirs.userDataDir], n.Own f r := by
  intro n hn
  rcases List.mem_cons.1 hn with rfl | hn
  · exact h.root_own hmem
  · cases List.mem_singleton.1 hn
    exact h.userDataDir_own hmem hdirs

theorem minds_provisionPlain {dataDir id : Text}
    (h : Has f r (.directory (SessionDirs.new dataDir id).root :: xs)) :
    Minds f (SessionDirs.provisionPlain dataDir id) (fun made r' =>
      (∃ dirs, made = .ok dirs ∧ dirs.Formed ∧ Has f r' (.directory dirs.root :: xs)) ∨
        ∃ e, made = .error e ∧ Has f r' xs) r := by
  apply Program.Owns.bind (Q := fun made r' =>
    (made = .ok () ∧ Has f r' (.directory (SessionDirs.new dataDir id).root :: xs)) ∨
      ∃ e, made = .error e ∧ Has f r' xs)
  · apply minds_ask
    · exact dirs_own h List.mem_cons_self (formed_new _ _)
    · intro made r' heffect
      cases heffect with
      | dirMade => exact .inl ⟨rfl, h.insert_again⟩
      | dirFailed habsent => exact .inr ⟨_, rfl, h.absent habsent⟩
      | dirBegun => exact .inr ⟨_, rfl, h.insert_again.leave (.inr rfl)⟩
      | settled hop => cases hop
  · rintro made r' (⟨rfl, hr'⟩ | ⟨e, rfl, hr'⟩)
    · exact .inl ⟨_, rfl, formed_new _ _, hr'⟩
    · exact .inr ⟨e, rfl, hr'⟩

theorem minds_cloneTemplate {template : Text} (h : Has f r (.directory dirs.root :: xs))
    (hdirs : dirs.Formed) : Minds f (ask (.cloneTemplate template dirs))
      (fun _ r' => Has f r' (.directory dirs.root :: xs)) r := by
  apply minds_ask
  · exact dirs_own h List.mem_cons_self hdirs
  · intro cloned r' heffect
    cases heffect with
    | cloned => exact h.insert_again
    | cloneFailed _ => exact h
    | cloneBegun _ => exact h.insert_again
    | settled hop => cases hop

theorem minds_templateDir : Minds f (ask .templateDir) (fun _ r' => r = r') r :=
  minds_settled rfl fun _ hn => absurd hn List.not_mem_nil

namespace ChromeFactory

theorem minds_provisionDirs (h : Has f r xs) : Minds f f.provisionDirs (fun made r' =>
    (∃ dirs, made = .ok dirs ∧ dirs.Formed ∧ Has f r' (.directory dirs.root :: xs)) ∨
      ∃ e, made = .error e ∧ Has f r' xs) r := by
  apply (minds_newId h).bind
  intro id r' hr'
  apply minds_templateDir.bind
  rintro template _ rfl
  cases template with
  | none => exact minds_provisionPlain hr'
  | some template =>
    apply (minds_cloneTemplate hr' (formed_new _ _)).bind
    intro cloned r'' hr''
    rcases cloned with e | copied
    · exact minds_provisionPlain hr''
    · rcases copied with e | _
      · exact minds_provisionPlain hr''
      · exact .inl ⟨_, rfl, formed_new _ _, hr''⟩

theorem minds_launch {spec : Chrome.LaunchSpec} (h : Has f r xs)
    (hmem : .directory dirs.root ∈ xs) (hdirs : dirs.Formed)
    (hspec : spec.userDataDir = dirs.userDataDir)
    (hleaf : ∀ l, spec.cgroupLeaf = some l → .leaf l ∈ xs) :
    Minds f (ask (.launch spec)) (fun launched r' => Has f r' (browserOf launched ++ xs)) r := by
  apply minds_ask
  · intro n hn
    rcases List.mem_cons.1 hn with rfl | hn
    · rw [hspec]
      exact h.userDataDir_own hmem hdirs
    · obtain ⟨l, hl, rfl⟩ := List.mem_map.1 hn
      exact h.leaf_own (hleaf l (Option.mem_toList.1 hl))
  · intro launched r' heffect
    cases heffect with
    | launched hfresh => exact h.insert_there ⟨_, Finset.mem_insert_self _ _, rfl⟩
    | launchFailed => exact h
    | settled hop => cases hop

theorem minds_cell {op : FactoryOp} (hop : op.settled = true) (hnames : op.names = []) :
    Minds f (ask op) (fun _ r' => r = r') r := by
  apply minds_settled hop
  rw [hnames]
  exact fun _ hn => absurd hn List.not_mem_nil

theorem minds_launchBrowser {cgroupLeaf : Option Text} {extraFlags : List Text} (h : Has f r xs)
    (hmem : .directory dirs.root ∈ xs) (hdirs : dirs.Formed)
    (hleaf : ∀ l, cgroupLeaf = some l → .leaf l ∈ xs) :
    Minds f (f.launchBrowser dirs.userDataDir cgroupLeaf extraFlags)
      (fun launched r' => Has f r' (browserOf launched ++ xs)) r := by
  apply (minds_cell rfl rfl).bind
  rintro disabled _ rfl
  apply Program.Owns.bind (Q := fun spec r' => r = r' ∧ spec.userDataDir = dirs.userDataDir ∧
    spec.cgroupLeaf = cgroupLeaf)
  · apply (minds_cell rfl rfl).bind
    rintro noSandbox _ rfl
    exact ⟨rfl, rfl, rfl⟩
  rintro spec _ ⟨rfl, hspec, hcgroup⟩
  apply (minds_launch h hmem hdirs hspec (hcgroup ▸ hleaf)).bind
  intro launched r' hr'
  cases launched with
  | ok browser => exact hr'
  | error e =>
    dsimp only
    split
    · apply (minds_cell rfl rfl).bind
      rintro _ _ rfl
      split
      · exact hr'
      · apply (minds_cell rfl rfl).bind
        rintro _ _ rfl
        apply Program.Owns.bind (Q := fun spec t => r' = t ∧
          spec.userDataDir = dirs.userDataDir ∧ spec.cgroupLeaf = cgroupLeaf)
        · apply (minds_cell rfl rfl).bind
          rintro noSandbox _ rfl
          exact ⟨rfl, rfl, rfl⟩
        rintro again _ ⟨rfl, hagain, hcgroup⟩
        exact minds_launch hr' hmem hdirs hagain (hcgroup ▸ hleaf)
    · exact hr'

theorem minds_limit {leaf : Text} {op : FactoryOp} (hleaf : Name.Own f r (.leaf leaf))
    (hop : op.limits = true) (hnames : op.names = [.leaf leaf]) :
    Minds f (ask op) (fun _ r' => r = r') r := by
  apply minds_settled
  · cases op <;> trivial
  · rw [hnames]
    intro n hn
    cases List.mem_singleton.1 hn
    exact hleaf

theorem minds_writeLimit {limit : Nat} {write : FactoryM (Except String Unit)}
    (h : Minds f write (fun _ r' => r = r') r) :
    Minds f (writeLimit limit write) (fun _ r' => r = r') r := by
  unfold writeLimit
  split
  · exact h.bind fun _ _ hr' => hr'
  · exact minds_pure rfl

theorem minds_limitLeaf {leaf : Text} (hleaf : Name.Own f r (.leaf leaf)) :
    Minds f (f.limitLeaf leaf) (fun _ r' => r = r') r := by
  apply (minds_writeLimit (minds_limit hleaf rfl rfl)).bind
  rintro _ _ rfl
  apply (minds_writeLimit (minds_limit hleaf rfl rfl)).bind
  rintro _ _ rfl
  exact minds_writeLimit (minds_limit hleaf rfl rfl)

theorem minds_prepareLeaf (h : Has f r xs) :
    Minds f f.prepareLeaf (fun cgroup r' => Has f r' (leafOf cgroup ++ xs)) r := by
  apply (minds_cell rfl rfl).bind
  rintro blocked _ rfl
  cases blocked with
  | true => exact h
  | false =>
    cases hbase : f.cgroupBase with
    | none => exact h
    | some base =>
      apply Program.Owns.bind (Q := fun n r' => Has f r' xs ∧ .seq n ∈ r')
      · apply minds_ask (fun _ hn => absurd hn List.not_mem_nil)
        intro n r' heffect
        cases heffect with
        | nextSeq => exact ⟨h.insert_name (fun _ heq => nomatch heq), Finset.mem_insert_self _ _⟩
        | settled hop => cases hop
      rintro n r' ⟨hr', hn⟩
      have hown : ∀ {t : Finset Thing}, .seq n ∈ t → Name.Own f t (.leaf (f.newLeaf base n)) :=
        fun ht => ⟨base, n, hbase, ht, rfl⟩
      apply Program.Owns.bind (Q := fun made t => .seq n ∈ t ∧
        ((made = .ok () ∧ Has f t (.leaf (f.newLeaf base n) :: xs)) ∨
          ∃ e, made = .error e ∧ Has f t xs))
      · apply minds_ask
        · intro name hname
          cases List.mem_singleton.1 hname
          exact hown hn
        · intro made t heffect
          cases heffect with
          | leafMade =>
            have hseq := Finset.mem_insert_of_mem (b := .there (.leaf (f.newLeaf base n))) hn
            exact ⟨hseq, .inl ⟨rfl, hr'.insert_there ⟨.seq n, hseq, base, n, hbase, rfl, rfl⟩⟩⟩
          | leafFailed => exact ⟨hn, .inr ⟨_, rfl, hr'⟩⟩
          | settled hop => cases hop
      rintro made t ⟨hseq, ⟨rfl, ht⟩ | ⟨e, rfl, ht⟩⟩
      · apply (minds_limitLeaf (hown hseq)).bind
        rintro _ _ rfl
        exact ht
      · exact ht

/-- A launch that could not join its leaf came to no browser. -/
theorem browserOf_enterFailed {launched : Except Chrome.LaunchError Chrome.Browser}
    (h : cgroupEnterFailed launched = true) : browserOf launched = [] := by
  cases launched with
  | ok browser => cases h
  | error e => rfl

theorem minds_retryWithoutLeaf {extraFlags : List Text} {cgroup : Option Text}
    {launched : Except Chrome.LaunchError Chrome.Browser}
    (h : Has f r (browserOf launched ++ (leafOf cgroup ++ xs)))
    (hmem : .directory dirs.root ∈ xs) (hdirs : dirs.Formed) :
    Minds f (f.retryWithoutLeaf dirs extraFlags cgroup launched)
      (fun kept r' => Has f r' (browserOf kept.2 ++ (leafOf kept.1 ++ xs))) r := by
  unfold retryWithoutLeaf
  split
  · rename_i hretry
    rw [browserOf_enterFailed hretry.2] at h
    apply (minds_cell rfl rfl).bind
    rintro _ _ rfl
    apply (minds_destroyCgroup h).bind
    intro _ r' hr'
    apply (minds_launchBrowser hr' hmem hdirs ?_).bind
    · exact fun _ _ ht => ht
    · rintro l ⟨⟩
  · exact minds_pure h

theorem minds_spawnSoftCap {hasCgroup : Bool} {pid : Int} (h : Has f r xs)
    (hpid : .browser pid ∈ xs) : Minds f (f.spawnSoftCap hasCgroup pid)
      (fun monitor r' => Has f r' (monitorOf monitor ++ xs)) r := by
  unfold spawnSoftCap
  split
  · exact minds_pure h
  · apply Program.Owns.bind (Q := fun monitor r' => Has f r' (.monitor monitor :: xs))
    · apply minds_ask
      · intro n hn
        cases List.mem_singleton.1 hn
        exact h.known hpid fun _ hk => hk
      · intro monitor r' heffect
        cases heffect with
        | monitored hfresh => exact h.insert_there ⟨_, Finset.mem_insert_self _ _, rfl⟩
        | settled hop => cases hop
    · exact fun _ _ hr' => hr'

/-- What is had when a launch has come to an end: the session's, or what was had before. -/
def Launched (f : ChromeFactory) (xs : List Resource) (relay : Option Relay)
    (created : Except CreateError ChromeSession) (r : Finset Thing) : Prop :=
  (∃ session, created = .ok session ∧ session.dirs.Formed ∧ session.relay = relay ∧
    Has f r (session.resources ++ xs)) ∨ ∃ e, created = .error e ∧ Has f r xs

theorem minds_finishLaunch {relay : Option Relay} {cgroup : Option Text}
    {launched : Except Chrome.LaunchError Chrome.Browser} (hdirs : dirs.Formed)
    (h : Has f r (browserOf launched ++ (leafOf cgroup ++ .directory dirs.root :: xs))) :
    Minds f (f.finishLaunch dirs relay cgroup launched) (Launched f xs relay) r := by
  cases launched with
  | ok browser =>
    apply (minds_cell rfl rfl).bind
    rintro _ _ rfl
    apply (minds_spawnSoftCap h List.mem_cons_self).bind
    intro monitor r' hr'
    refine .inl ⟨_, rfl, hdirs, rfl, hr'.perm fun x => ?_⟩
    simp only [browserOf, ChromeSession.resources, List.mem_append, List.mem_cons, List.not_mem_nil]
    tauto
  | error e =>
    apply (minds_destroyCgroup h).bind
    intro _ r' hr'
    apply (minds_teardown hr').bind
    exact fun _ t ht => .inr ⟨_, rfl, ht⟩

theorem minds_launchSession {relay : Option Relay} (hdirs : dirs.Formed)
    (h : Has f r (.directory dirs.root :: xs)) :
    Minds f (f.launchSession dirs relay) (Launched f xs relay) r := by
  apply (minds_prepareLeaf h).bind
  intro cgroup r' hr'
  have hmem : .directory dirs.root ∈ leafOf cgroup ++ .directory dirs.root :: xs :=
    List.mem_append_right _ List.mem_cons_self
  apply (minds_launchBrowser hr' hmem hdirs ?_).bind
  · intro launched t ht
    apply (minds_retryWithoutLeaf ht List.mem_cons_self hdirs).bind
    exact fun kept u hu => minds_finishLaunch hdirs hu
  · rintro l rfl
    exact List.mem_append_left _ List.mem_cons_self

theorem minds_withDirs {run : SessionDirs → FactoryM (Except CreateError ChromeSession)}
    {relay : Option Relay} (h : Has f r xs)
    (hrun : ∀ dirs r', dirs.Formed → Has f r' (.directory dirs.root :: xs) →
      Minds f (run dirs) (Launched f xs relay) r') :
    Minds f (f.withDirs run) (Launched f xs relay) r := by
  apply (minds_provisionDirs h).bind
  rintro made r' (⟨dirs, rfl, hdirs, hr'⟩ | ⟨e, rfl, hr'⟩)
  · exact hrun dirs r' hdirs hr'
  · exact .inr ⟨_, rfl, hr'⟩

theorem minds_refuseSeed {relay : Option Relay} {e : CreateError}
    (h : Has f r (.directory dirs.root :: xs)) :
    Minds f (dirs.teardown >>= fun _ => pure (.error e)) (Launched f xs relay) r := by
  apply (minds_teardown h).bind
  exact fun _ r' hr' => .inr ⟨e, rfl, hr'⟩

theorem minds_createSeeded {indexeddb : List ManifestEntry} {relay : Option Relay}
    (h : Has f r xs) : Minds f (f.createSeeded indexeddb relay) (Launched f xs relay) r := by
  apply minds_withDirs h
  intro dirs r' hdirs hr'
  split
  · exact minds_launchSession hdirs hr'
  · apply (minds_settled rfl ?_).bind
    · rintro extracted _ rfl
      rcases extracted with e | written
      · exact minds_refuseSeed hr'
      · rcases written with e | _
        · exact minds_refuseSeed hr'
        · exact minds_launchSession hdirs hr'
    · intro n hn
      cases List.mem_singleton.1 hn
      exact hr'.userDataDir_own List.mem_cons_self hdirs

/-- The relay that a call was given, which is its session's. -/
theorem minds_call {life : Life} {relay : Option Relay} (h : Has f r xs) :
    Minds f ((life.call relay).program f) (Launched f xs relay) r := by
  cases life with
  | profile indexeddb proxied capture => exact minds_createSeeded h
  | pooled proxied =>
    cases relay with
    | none => exact minds_withDirs h fun dirs _ => minds_launchSession
    | some relay => exact minds_withDirs h fun dirs _ => minds_launchSession
  | template =>
    cases relay with
    | none => exact minds_withDirs h fun dirs _ => minds_launchSession
    | some relay => exact minds_withDirs h fun dirs _ => minds_launchSession

end ChromeFactory

end BrowserServe
