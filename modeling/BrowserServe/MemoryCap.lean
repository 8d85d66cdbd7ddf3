import BrowserServe.SessionHost

namespace BrowserServe
open Library
set_option autoImplicit true

namespace SessionHost

/-- A write of a leaf's `memory.max` failed. -/
def WriteFailed (s : SessionHost) (leaf : Text) : Prop :=
  ∃ bytes e roots leaves, .answered (.setMemoryMax leaf bytes) (.error e) roots leaves ∈ s.log

/-- A browser was launched in a leaf, or in none. -/
def Launched (s : SessionHost) (cgroup : Option Text) (browser : Chrome.Browser) : Prop :=
  ∃ spec roots leaves, spec.cgroupLeaf = cgroup ∧
    .answered (.launch spec) (.ok browser) roots leaves ∈ s.log

/-- A memory cap is enforced on a session: by the leaf that its browser runs in, or by a monitor
that watches its process tree. -/
def Capped (s : SessionHost) (cap : Nat) (session : ChromeSession) : Prop :=
  (∃ leaf, session.cgroup = some leaf ∧ s.Launched (some leaf) session.browser ∧
    s.memoryMax.lookup leaf = some cap) ∨
  ∃ handle, session.monitor = some handle ∧ (handle, session.browser.pid, cap) ∈ s.monitors

/-- What has come of the limits and of the launches so far. -/
structure Shows (s : SessionHost) (memoryMax : List (Text × Nat)) (failed : Text → Prop)
    (launched : Option Text → Chrome.Browser → Prop) : Prop where
  memoryMax : s.memoryMax = memoryMax
  failed : ∀ leaf, s.WriteFailed leaf ↔ failed leaf
  launched : ∀ cgroup browser, s.Launched cgroup browser ↔ launched cgroup browser

end SessionHost

/-- The operations that neither set a memory limit nor launch a browser. -/
def FactoryOp.besides : FactoryOp → Bool
  | setMemoryMax _ _ | launch _ => false
  | _ => true

namespace SessionHost
variable {s t : SessionHost}

theorem Effect.log {op : FactoryOp} {answer : op.Answer} (h : s.Effect op answer t) :
    t.log = s.log := by
  cases h <;> rfl

theorem Effect.memoryMax {op : FactoryOp} {answer : op.Answer} (h : s.Effect op answer t)
    (hop : op.besides = true) : t.memoryMax = s.memoryMax := by
  cases h with
  | limited => cases hop
  | _ => rfl

theorem mem_record {op : FactoryOp} {answer : op.Answer} {event : SessionEvent} :
    event ∈ (t.record op answer).log ↔
      event ∈ t.log ∨ event = .answered op answer t.roots t.leaves := by
  simp [record]

theorem WriteFailed.record_iff {op : FactoryOp} {answer : op.Answer} {leaf : Text} :
    (t.record op answer).WriteFailed leaf ↔ t.WriteFailed leaf ∨
      ∃ bytes e, (⟨op, answer⟩ : (op : FactoryOp) × op.Answer) =
        ⟨.setMemoryMax leaf bytes, .error e⟩ := by
  constructor
  · rintro ⟨bytes, e, roots, leaves, hmem⟩
    obtain hold | hnew := mem_record.1 hmem
    · exact .inl ⟨bytes, e, roots, leaves, hold⟩
    · cases hnew
      exact .inr ⟨bytes, e, rfl⟩
  · rintro (⟨bytes, e, roots, leaves, hmem⟩ | ⟨bytes, e, hnew⟩)
    · exact ⟨bytes, e, roots, leaves, mem_record.2 (.inl hmem)⟩
    · cases hnew
      exact ⟨bytes, e, t.roots, t.leaves, mem_record.2 (.inr rfl)⟩

theorem Launched.record_iff {op : FactoryOp} {answer : op.Answer} {cgroup : Option Text}
    {browser : Chrome.Browser} :
    (t.record op answer).Launched cgroup browser ↔ t.Launched cgroup browser ∨
      ∃ spec, spec.cgroupLeaf = cgroup ∧
        (⟨op, answer⟩ : (op : FactoryOp) × op.Answer) = ⟨.launch spec, .ok browser⟩ := by
  constructor
  · rintro ⟨spec, roots, leaves, hleaf, hmem⟩
    obtain hold | hnew := mem_record.1 hmem
    · exact .inl ⟨spec, roots, leaves, hleaf, hold⟩
    · cases hnew
      exact .inr ⟨spec, hleaf, rfl⟩
  · rintro (⟨spec, roots, leaves, hleaf, hmem⟩ | ⟨spec, hleaf, hnew⟩)
    · exact ⟨spec, roots, leaves, hleaf, mem_record.2 (.inl hmem)⟩
    · cases hnew
      exact ⟨spec, t.roots, t.leaves, hleaf, mem_record.2 (.inr rfl)⟩

variable {m : List (Text × Nat)} {failures : Text → Prop}
  {launches : Option Text → Chrome.Browser → Prop}

theorem Shows.of_log (h : s.Shows m failures launches) (hlog : t.log = s.log)
    (hmemory : t.memoryMax = m') : t.Shows m' failures launches := by
  refine ⟨hmemory, ?_, ?_⟩
  · intro leaf
    rw [← h.failed leaf]
    simp only [WriteFailed, hlog]
  · intro cgroup browser
    rw [← h.launched cgroup browser]
    simp only [Launched, hlog]

theorem Shows.congr {launches' : Option Text → Chrome.Browser → Prop}
    (h : s.Shows m failures launches)
    (heq : ∀ cgroup browser, launches cgroup browser ↔ launches' cgroup browser) :
    s.Shows m failures launches' :=
  ⟨h.memoryMax, h.failed, fun cgroup browser =>
    (h.launched cgroup browser).trans (heq cgroup browser)⟩

/-- An operation of another kind changes nothing of what is shown. -/
theorem Shows.besides {op : FactoryOp} {answer : op.Answer} (h : s.Shows m failures launches)
    (hop : op.besides = true) (hdo : sessionHost.does s op answer t) :
    t.Shows m failures launches := by
  obtain ⟨u, heffect, rfl⟩ := hdo
  have hu := h.of_log heffect.log ((heffect.memoryMax hop).trans h.memoryMax)
  refine ⟨hu.memoryMax, ?_, ?_⟩
  · intro leaf
    rw [WriteFailed.record_iff, hu.failed leaf]
    apply or_iff_left
    rintro ⟨bytes, e, hnew⟩
    cases hnew
    cases hop
  · intro cgroup browser
    rw [Launched.record_iff, hu.launched cgroup browser]
    apply or_iff_left
    rintro ⟨spec, _, hnew⟩
    cases hnew
    cases hop

/-- The write of the limit either holds, or is shown as failed. -/
theorem Shows.limit {leaf : Text} {bytes : Nat} {answer : Except String Unit}
    (h : s.Shows [] (fun _ => False) launches)
    (hdo : sessionHost.does s (.setMemoryMax leaf bytes) answer t) :
    t.Shows [(leaf, bytes)] (fun _ => False) launches ∨ t.Shows [] (· = leaf) launches := by
  obtain ⟨u, heffect, rfl⟩ := hdo
  have hlaunched : ∀ cgroup browser,
      (u.record (.setMemoryMax leaf bytes) answer).Launched cgroup browser ↔
        launches cgroup browser := by
    intro cgroup browser
    rw [Launched.record_iff, ← h.launched cgroup browser]
    simp only [Launched, heffect.log]
    apply or_iff_left
    rintro ⟨spec, _, hnew⟩
    cases hnew
  cases heffect with
  | limited =>
    refine .inl ⟨congrArg _ h.memoryMax, ?_, hlaunched⟩
    intro other
    rw [WriteFailed.record_iff]
    refine iff_of_false ?_ id
    rintro (hold | ⟨_, _, hnew⟩)
    · exact (h.failed other).1 hold
    · cases hnew
  | limitFailed =>
    refine .inr ⟨h.memoryMax, ?_, hlaunched⟩
    intro other
    rw [WriteFailed.record_iff, h.failed other]
    constructor
    · rintro (hold | ⟨_, _, hnew⟩)
      · exact hold.elim
      · cases hnew
        rfl
    · rintro rfl
      exact .inr ⟨_, _, rfl⟩
  | idle hidle => cases hidle

/-- A launch that succeeds is shown with the leaf it was made in. -/
theorem Shows.launch {spec : Chrome.LaunchSpec} {answer : Except Chrome.LaunchError Chrome.Browser}
    (h : s.Shows m failures fun _ _ => False) (hdo : sessionHost.does s (.launch spec) answer t) :
    t.Shows m failures fun cgroup browser => spec.cgroupLeaf = cgroup ∧ answer = .ok browser := by
  obtain ⟨u, heffect, rfl⟩ := hdo
  have hu : u = s := by
    cases heffect
    rfl
  subst hu
  refine ⟨h.memoryMax, ?_, ?_⟩
  · intro leaf
    rw [WriteFailed.record_iff, h.failed leaf]
    apply or_iff_left
    rintro ⟨_, _, hnew⟩
    cases hnew
  · intro cgroup browser
    rw [Launched.record_iff, h.launched cgroup browser, false_or]
    constructor
    · rintro ⟨_, hleaf, hnew⟩
      cases hnew
      exact ⟨hleaf, rfl⟩
    · rintro ⟨hleaf, rfl⟩
      exact ⟨spec, hleaf, rfl⟩

/-- Code that does other things changes nothing of what is shown. -/
theorem Shows.ends {p : FactoryM α} (h : s.Shows m failures launches)
    (hp : p.Asks (FactoryOp.besides · = true) fun _ _ => True) :
    p.Ends sessionHost (fun _ => True) (fun _ t => t.Shows m failures launches) s := by
  have hdoes : ∀ s op answer t, s.Shows m failures launches → op.besides = true →
      sessionHost.does s op answer t → t.Shows m failures launches ∧ True :=
    fun _ _ _ _ hs hop hdo => ⟨hs.besides hop hdo, trivial⟩
  exact Program.Asks.ends hp h hdoes fun _ _ _ _ _ _ => trivial

theorem Shows.ends_ask {op : FactoryOp} (h : s.Shows m failures launches)
    (hop : op.besides = true) :
    (ask op).Ends sessionHost (fun _ => True) (fun _ t => t.Shows m failures launches) s :=
  h.ends (Program.asks_ask hop)

end SessionHost

namespace ChromeFactory
open SessionHost
variable {f : ChromeFactory} {s : SessionHost} {m : List (Text × Nat)} {failures : Text → Prop}
  {launches : Option Text → Chrome.Browser → Prop}

/-- The cap of a new leaf either holds, or is shown as failed. -/
theorem limitLeaf_shows (hcap : 0 < f.memoryMaxBytes) (leaf : Text)
    (h : s.Shows [] (fun _ => False) launches) :
    (f.limitLeaf leaf).Ends sessionHost (fun _ => True) (fun _ t =>
      t.Shows [(leaf, f.memoryMaxBytes)] (fun _ => False) launches ∨
        t.Shows [] (· = leaf) launches) s := by
  have hrest : Program.Asks (FactoryOp.besides · = true) (fun _ _ => True) (do
      writeLimit f.cpuPercent (ask (.setCpuPercent leaf f.cpuPercent))
      writeLimit f.pidsMax (ask (.setPidsMax leaf f.pidsMax))) := by
    apply Program.asks_bind
    · apply writeLimit_asks
      exact Program.asks_ask rfl
    · intro _
      apply writeLimit_asks
      exact Program.asks_ask rfl
  apply Program.Ends.bind (Q := fun _ t =>
    t.Shows [(leaf, f.memoryMaxBytes)] (fun _ => False) launches ∨ t.Shows [] (· = leaf) launches)
  · rw [writeLimit, if_pos hcap]
    exact ⟨fun _ _ => trivial, fun answer t hdo => h.limit hdo⟩
  · intro _ t ht
    cases ht with
    | inl hheld => exact (hheld.ends hrest).imp fun _ _ => .inl
    | inr hfailed => exact (hfailed.ends hrest).imp fun _ _ => .inr

/-- What is shown of a leaf once it is prepared, before anything is launched. -/
def Prepared (cap : Nat) (s : SessionHost) (cgroup : Option Text) : Prop :=
  ∃ m failures, s.Shows m failures (fun _ _ => False) ∧
    ∀ leaf, cgroup = some leaf → (m.lookup leaf = some cap ↔ ¬ failures leaf)

theorem prepareLeaf_prepared (hcap : 0 < f.memoryMaxBytes)
    (h : s.Shows [] (fun _ => False) fun _ _ => False) :
    f.prepareLeaf.Ends sessionHost (fun _ => True)
      (fun cgroup t => Prepared f.memoryMaxBytes t cgroup) s := by
  have hnone : ∀ {t : SessionHost}, (t.Shows [] (fun _ => False) fun _ _ => False) →
      Prepared f.memoryMaxBytes t none := fun ht => ⟨_, _, ht, fun _ => nofun⟩
  apply (h.ends_ask rfl).bind
  intro blocked t ht
  cases blocked with
  | true => exact hnone ht
  | false =>
    cases f.cgroupBase with
    | none => exact hnone ht
    | some base =>
      apply (ht.ends_ask rfl).bind
      intro seq u hu
      apply (hu.ends_ask rfl).bind
      intro made v hv
      cases made with
      | error e => exact hnone hv
      | ok _ =>
        apply (limitLeaf_shows hcap _ hv).bind
        intro _ w hw
        cases hw with
        | inl hheld =>
          refine ⟨_, _, hheld, ?_⟩
          rintro leaf ⟨⟩
          simp
        | inr hfailed =>
          refine ⟨_, _, hfailed, ?_⟩
          rintro leaf ⟨⟩
          simp

theorem launchSpec_shows {userDataDir : Text} {cgroup : Option Text} {extraFlags : List Text}
    (h : s.Shows m failures launches) :
    (f.launchSpec userDataDir cgroup extraFlags).Ends sessionHost (fun _ => True)
      (fun spec t => spec.cgroupLeaf = cgroup ∧ t.Shows m failures launches) s := by
  apply (h.ends_ask rfl).bind
  intro _ t ht
  exact ⟨rfl, ht⟩

theorem launch_shows {spec : Chrome.LaunchSpec} (h : s.Shows m failures fun _ _ => False) :
    (ask (.launch spec)).Ends sessionHost (fun _ => True)
      (fun launched t => t.Shows m failures fun cgroup browser =>
        spec.cgroupLeaf = cgroup ∧ launched = .ok browser) s :=
  ⟨fun _ _ => trivial, fun _ _ hdo => h.launch hdo⟩

/-- A launch that is tried again without the sandbox is made in the same leaf. -/
theorem launchBrowser_shows {userDataDir : Text} {cgroup : Option Text} {extraFlags : List Text}
    (h : s.Shows m failures fun _ _ => False) :
    (f.launchBrowser userDataDir cgroup extraFlags).Ends sessionHost (fun _ => True)
      (fun launched t => t.Shows m failures fun cgroup' browser =>
        cgroup = cgroup' ∧ launched = .ok browser) s := by
  apply (h.ends_ask rfl).bind
  intro disabled t ht
  apply (launchSpec_shows ht).bind
  rintro spec u ⟨rfl, hu⟩
  apply (launch_shows hu).bind
  intro launched v hv
  cases launched with
  | ok browser => exact hv
  | error e =>
    dsimp only
    split
    · apply (hv.ends_ask rfl).bind
      intro _ w hw
      split
      · exact hw
      · have hnone : w.Shows m failures fun _ _ => False :=
          hw.congr fun _ _ => iff_of_false (fun h => nomatch h.2) id
        apply (hnone.ends_ask rfl).bind
        intro _ x hx
        apply (launchSpec_shows hx).bind
        rintro again y ⟨hleaf, hy⟩
        rw [← hleaf]
        exact launch_shows hy
    · exact hv

theorem retryWithoutLeaf_shows {dirs : SessionDirs} {extraFlags : List Text}
    {cgroup : Option Text} {launched : Except Chrome.LaunchError Chrome.Browser}
    (h : s.Shows m failures fun cgroup' browser => cgroup = cgroup' ∧ launched = .ok browser) :
    (f.retryWithoutLeaf dirs extraFlags cgroup launched).Ends sessionHost (fun _ => True)
      (fun kept t => (kept.1 = none ∨ kept.1 = cgroup) ∧
        t.Shows m failures fun cgroup' browser => kept.1 = cgroup' ∧ kept.2 = .ok browser) s := by
  unfold retryWithoutLeaf
  split
  · rename_i hrefused
    have hnone : s.Shows m failures fun _ _ => False := by
      apply h.congr
      intro _ browser
      refine iff_of_false ?_ id
      rintro ⟨_, rfl⟩
      exact absurd hrefused.2 (by simp [cgroupEnterFailed])
    apply (hnone.ends_ask rfl).bind
    intro _ t ht
    have hdestroy : (destroyCgroup cgroup).Asks (FactoryOp.besides · = true) fun _ _ => True := by
      apply destroyCgroup_asks
      intro op hop
      cases op <;> first | rfl | cases hop
    apply (ht.ends hdestroy).bind
    intro _ u hu
    apply (launchBrowser_shows hu).bind
    intro again v hv
    exact ⟨.inl rfl, hv⟩
  · exact ⟨.inr rfl, h⟩

theorem capped_in_leaf_iff {cap : Nat} {leaf : Text} {session : ChromeSession}
    (hleaf : session.cgroup = some leaf) (hmonitor : session.monitor = none)
    (h : s.Shows m failures fun cgroup browser => some leaf = cgroup ∧ session.browser = browser)
    (hlimit : m.lookup leaf = some cap ↔ ¬ failures leaf) :
    s.Capped cap session ↔
      ∀ leaf browser, s.WriteFailed leaf → ¬ s.Launched (some leaf) browser := by
  constructor
  · rintro (⟨leaf', hsome, _, hheld⟩ | ⟨_, hsome, _⟩) other browser hfailed hlaunched
    · cases hleaf.symm.trans hsome
      cases ((h.launched _ _).1 hlaunched).1
      rw [h.memoryMax] at hheld
      exact hlimit.1 hheld ((h.failed leaf).1 hfailed)
    · rw [hmonitor] at hsome
      cases hsome
  · intro hnever
    have hlaunched := (h.launched (some leaf) session.browser).2 ⟨rfl, rfl⟩
    refine .inl ⟨leaf, hleaf, hlaunched, ?_⟩
    rw [h.memoryMax, hlimit]
    intro hfailed
    exact hnever leaf _ ((h.failed leaf).2 hfailed) hlaunched

/-- Without a leaf there is a monitor; with one, its limit has to hold. -/
theorem finishLaunch_capped {dirs : SessionDirs} {relay : Option Relay} {cgroup : Option Text}
    {launched : Except Chrome.LaunchError Chrome.Browser} (hcap : 0 < f.memoryMaxBytes)
    (h : s.Shows m failures fun cgroup' browser => cgroup = cgroup' ∧ launched = .ok browser)
    (hlimit : ∀ leaf, cgroup = some leaf →
        (m.lookup leaf = some f.memoryMaxBytes ↔ ¬ failures leaf)) :
    (f.finishLaunch dirs relay cgroup launched).Ends sessionHost (fun _ => True)
      (fun created t => ∀ session, created = .ok session →
        (t.Capped f.memoryMaxBytes session ↔
          ∀ leaf browser, t.WriteFailed leaf → ¬ t.Launched (some leaf) browser)) s := by
  cases launched with
  | ok browser =>
    have hbrowser : s.Shows m failures fun cgroup' other => cgroup = cgroup' ∧ browser = other :=
      h.congr fun _ _ => and_congr_right fun _ => ⟨Except.ok.inj, congrArg _⟩
    apply (hbrowser.ends_ask rfl).bind
    intro _ t ht
    cases cgroup with
    | some leaf =>
      have hnone : f.spawnSoftCap true browser.pid = pure none := if_pos (.inr rfl)
      show Program.Ends _ _ (f.spawnSoftCap true browser.pid >>= _) _ t
      rw [hnone]
      rintro session ⟨⟩
      exact capped_in_leaf_iff rfl rfl ht (hlimit leaf rfl)
    | none =>
      have hspawn : ¬ (f.memoryMaxBytes = 0 ∨ false = true) := by
        rintro (hzero | hfalse)
        · omega
        · cases hfalse
      show Program.Ends _ _ (f.spawnSoftCap false browser.pid >>= _) _ t
      rw [spawnSoftCap, if_neg hspawn]
      refine ⟨fun _ _ => trivial, ?_⟩
      rintro handle u hdo session ⟨⟩
      have hu := ht.besides rfl hdo
      constructor
      · intro _ leaf other _ hlaunched
        cases ((hu.launched _ _).1 hlaunched).1
      · intro _
        obtain ⟨v, heffect, rfl⟩ := hdo
        refine .inr ⟨handle, rfl, ?_⟩
        cases heffect with
        | monitored => exact List.mem_cons_self
        | idle hidle => cases hidle
  | error e =>
    apply (Program.ends_of_forall (fun _ => trivial) fun _ _ => trivial).bind (Q := fun _ _ => True)
    intro _ t _
    apply (Program.ends_of_forall (fun _ => trivial) fun _ _ => trivial).bind (Q := fun _ _ => True)
    intro _ u _ session hcreated
    cases hcreated

theorem launchSession_capped {dirs : SessionDirs} {relay : Option Relay}
    (hcap : 0 < f.memoryMaxBytes) (h : s.Shows [] (fun _ => False) fun _ _ => False) :
    (f.launchSession dirs relay).Ends sessionHost (fun _ => True)
      (fun created t => ∀ session, created = .ok session →
        (t.Capped f.memoryMaxBytes session ↔
          ∀ leaf browser, t.WriteFailed leaf → ¬ t.Launched (some leaf) browser)) s := by
  apply (prepareLeaf_prepared hcap h).bind
  rintro cgroup t ⟨m, failures, ht, hlimit⟩
  apply (launchBrowser_shows ht).bind
  intro launched u hu
  apply (retryWithoutLeaf_shows hu).bind
  rintro ⟨kept, again⟩ v ⟨hkept, hv⟩
  apply finishLaunch_capped hcap hv
  intro leaf hleaf
  cases hkept with
  | inl hnone => cases hleaf.symm.trans hnone
  | inr hsame => exact hlimit leaf (hsame.symm.trans hleaf)

end ChromeFactory

/-- A session's memory cap is enforced unless its browser runs in a leaf that refused the
limit. -/
theorem memory_cap_enforced_iff (config : LoadedConfig) (host : FactoryHost) (dirs : SessionDirs)
    (relay : Option Relay) (session : ChromeSession) (s : SessionHost)
    (hcap : 0 < config.memoryMaxMb)
    (hrun : ((ChromeFactory.new config host).launchSession dirs relay).Runs sessionHost
      (SessionHost.new.addRoot dirs.root) (some (.ok session)) s) :
    s.Capped (ChromeFactory.new config host).memoryMaxBytes session ↔
      ∀ leaf browser, s.WriteFailed leaf → ¬ s.Launched (some leaf) browser := by
  have hbytes : 0 < (ChromeFactory.new config host).memoryMaxBytes := by
    simp only [ChromeFactory.new]
    omega
  have hnew : (SessionHost.new.addRoot dirs.root).Shows [] (fun _ => False) fun _ _ => False := by
    refine ⟨rfl, ?_, ?_⟩
    · intro leaf
      refine iff_of_false ?_ id
      rintro ⟨_, _, _, _, hmem⟩
      cases hmem
    · intro cgroup browser
      refine iff_of_false ?_ id
      rintro ⟨_, _, _, _, hmem⟩
      cases hmem
  exact hrun.ends (ChromeFactory.launchSession_capped hbytes hnew) session rfl

/-- A configuration that asks for a cap of one mebibyte. -/
def cappedConfig : LoadedConfig :=
  { LoadedConfig.default 4 with memoryMaxMb := 1, stealth := false }

def cgroupHost : FactoryHost :=
  { FactoryHost.plain with cgroupBase := some (text "/sys/fs/cgroup/browserserve") }

def sampleDirs : SessionDirs := .new (text "/data") (text "id")

def sampleBrowser : Chrome.Browser := ⟨42, ⟨"Chrome/149", "1.3", "Mozilla/5.0", "14.9"⟩⟩

def cappedFactory : ChromeFactory := .new cappedConfig cgroupHost

def sampleLeaf : Text := cappedFactory.newLeaf (text "/sys/fs/cgroup/browserserve") 0

def sampleSpec : Chrome.LaunchSpec :=
  ⟨text "/usr/bin/chrome", sampleDirs.userDataDir, false, false, [], 30000, 268435456,
    some sampleLeaf⟩

def cappedSession : ChromeSession := ⟨sampleBrowser, sampleDirs, some sampleLeaf, none, none⟩

/-- The limit of a new leaf cannot be written, and the browser is launched in it. -/
def refusedHost : SessionHost :=
  let made := (((SessionHost.new.addRoot sampleDirs.root).record .leafEnterBlocked false).record
    .nextLeafSeq (0 : Nat))
  let leaf := { made with leaves := made.leaves.insert sampleLeaf }.record (.createLeaf sampleLeaf)
    (.ok ())
  let limited := leaf.record (.setMemoryMax sampleLeaf cappedFactory.memoryMaxBytes)
    (.error "Operation not permitted")
  (((limited.record .sandboxDisabled false).record .sandboxDisabled false).record
    (.launch sampleSpec) (.ok sampleBrowser)).record (.noteVersion sampleBrowser.version) ()

theorem refusedHost_run :
    (cappedFactory.launchSession sampleDirs none).Runs sessionHost
      (SessionHost.new.addRoot sampleDirs.root) (some (.ok cappedSession)) refusedHost :=
  .goesOn false ⟨_, .idle rfl, rfl⟩ <|
  .goesOn (0 : Nat) ⟨_, .idle rfl, rfl⟩ <|
  .goesOn (.ok ()) ⟨_, .leafMade, rfl⟩ <|
  .goesOn (.error "Operation not permitted") ⟨_, .limitFailed, rfl⟩ <|
  .goesOn false ⟨_, .idle rfl, rfl⟩ <|
  .goesOn false ⟨_, .idle rfl, rfl⟩ <|
  .goesOn (.ok sampleBrowser) ⟨_, .idle rfl, rfl⟩ <|
  .goesOn () ⟨_, .idle rfl, rfl⟩ .done

theorem memory_cap_enforced_iff_refused :
    refusedHost.Capped cappedFactory.memoryMaxBytes cappedSession ↔
      ∀ leaf browser, refusedHost.WriteFailed leaf → ¬ refusedHost.Launched (some leaf) browser :=
  memory_cap_enforced_iff cappedConfig cgroupHost sampleDirs none cappedSession refusedHost
    (by decide) refusedHost_run

/-- A session whose cap nothing enforces. -/
theorem memory_cap_unenforced :
    ¬ ∀ (config : LoadedConfig) (host : FactoryHost) (dirs : SessionDirs) (relay : Option Relay)
      (session : ChromeSession) (s : SessionHost), 0 < config.memoryMaxMb →
      ((ChromeFactory.new config host).launchSession dirs relay).Runs sessionHost
        (SessionHost.new.addRoot dirs.root) (some (.ok session)) s →
      s.Capped (ChromeFactory.new config host).memoryMaxBytes session := by
  intro hall
  obtain ⟨leaf, _, _, hheld⟩ | ⟨_, hmonitor, _⟩ :=
    hall cappedConfig cgroupHost sampleDirs none cappedSession refusedHost (by decide)
      refusedHost_run
  · have hempty : refusedHost.memoryMax = [] := rfl
    rw [hempty] at hheld
    cases hheld
  · cases hmonitor

end BrowserServe
