import BrowserServe.LaunchCleanup
import BrowserServe.ServerHttp

namespace BrowserServe
open Library
set_option autoImplicit true

/-- What the factory's clones share of the sandbox, and the argument lists that browsers were
started with. -/
structure SharedHost where
  cells : SandboxCells
  started : List (List Text)

def SharedHost.new (config : LoadedConfig) : SharedHost := ⟨⟨config.noSandbox, false⟩, []⟩

namespace SharedHost

def start (s : SharedHost) (spec : Chrome.LaunchSpec) : SharedHost :=
  { s with started := spec.args :: s.started }

/-- What an operation does to the cells and the browsers. A launch may end in any way, and one that
fails may do so before there is a process. -/
inductive Effect (s : SharedHost) : (op : FactoryOp) → op.Answer → SharedHost → Prop
  | sandboxDisabled : Effect s .sandboxDisabled s.cells.disabled s
  | disableSandbox : Effect s .disableSandbox ()
      { s with cells := { s.cells with disabled := true } }
  | blockSandbox :
      Effect s .blockSandbox s.cells.blocked { s with cells := { s.cells with blocked := true } }
  | launched : Effect s (.launch spec) (.ok browser) (s.start spec)
  | launchFailed : Effect s (.launch spec) (.error e) (s.start spec)
  | unstarted : Effect s (.launch spec) (.error e) s
  | other (h : op.launches = false) : Effect s op answer s

end SharedHost

/-- The host of all calls. One that is dropped while it launches may have started its browser. -/
def sharedHost : Host FactoryOp FactoryOp.Answer SharedHost where
  does := SharedHost.Effect
  drops s op t := op.awaits = true ∧ (t = s ∨ ∃ spec, op = .launch spec ∧ t = s.start spec)

/-- Whatever an instance launches browsers for. -/
inductive InstanceCall where
  | session (call : CreateCall)
  | prepareTemplate

def InstanceCall.program (f : ChromeFactory) : InstanceCall → FactoryM Unit
  | session call => do
    let _ ← call.program f
    pure ()
  | prepareTemplate => f.prepareTemplate

/-- Any number of calls, side by side. -/
def ChromeFactory.launching (f : ChromeFactory) (config : LoadedConfig) :
    System (Calls FactoryOp FactoryOp.Answer Unit SharedHost) Nat :=
  Calls.system sharedHost (fun p => ∃ call : InstanceCall, p = call.program f)
    fun s => s = .new config

/-- What may be asked where the sandbox is required. -/
def KeepsSandbox (extraFlags : List Text) : FactoryOp → Prop
  | .disableSandbox => False
  | .launch spec => spec.noSandbox = false ∧
    (Chrome.NO_SANDBOX ∉ extraFlags → Chrome.NO_SANDBOX ∉ spec.extraFlags)
  | _ => True

/-- What the factory is told there. -/
def SandboxOn : (op : FactoryOp) → op.Answer → Prop
  | .sandboxDisabled, disabled => disabled = false
  | _, _ => True

/-- A sandbox failure is to be noted next. -/
def notesFailure : (op : FactoryOp) → op.Answer → Option FactoryOp
  | .launch _, .error e => if e.isSandboxFailure then some .blockSandbox else none
  | _, _ => none

/-- Code of a factory that keeps the sandbox and notes its failures. -/
abbrev Sandboxed (extraFlags : List Text) (p : FactoryM α) : Prop :=
  p.Heeds (KeepsSandbox extraFlags) SandboxOn notesFailure

section
variable {f : ChromeFactory} {extraFlags flags : List Text} {dirs : SessionDirs}

/-- Code that has nothing to do with launches. -/
theorem sandboxed_of_asks {p : FactoryM α}
    (h : p.Asks (FactoryOp.launches · = false) SandboxOn) : Sandboxed extraFlags p := by
  apply h.heeds
  intro op hop
  cases op with
  | sandboxDisabled => cases hop
  | disableSandbox => cases hop
  | launch spec => cases hop
  | _ => exact ⟨trivial, fun _ => rfl⟩

theorem sandboxed_ask {op : FactoryOp} (h : op.launches = false) :
    Sandboxed extraFlags (ask op) :=
  sandboxed_of_asks (Program.asks_ask h)

theorem removes_not_launches {op : FactoryOp} (h : op.removes = true) : op.launches = false := by
  cases op <;> first | rfl | cases h

theorem sandboxed_destroyCgroup (cgroup : Option Text) :
    Sandboxed extraFlags (destroyCgroup cgroup) :=
  sandboxed_of_asks (destroyCgroup_asks cgroup fun _ => removes_not_launches)

theorem sandboxed_teardown (dirs : SessionDirs) : Sandboxed extraFlags dirs.teardown :=
  sandboxed_of_asks (dirs.teardown_asks fun _ => removes_not_launches)

theorem calls_nothing {op' : FactoryOp} {p : FactoryM α} (h : none = some op') :
    p.next = some op' := by
  cases h

/-- Where the sandbox is required, a launch keeps it, and a sandbox failure is noted. -/
theorem sandboxed_launchBrowser {userDataDir : Text} {cgroupLeaf : Option Text}
    (hrequire : f.requireSandbox = true)
    (hflags : Chrome.NO_SANDBOX ∉ extraFlags → Chrome.NO_SANDBOX ∉ flags) :
    Sandboxed extraFlags (f.launchBrowser userDataDir cgroupLeaf flags) := by
  refine ⟨trivial, fun disabled hdisabled => ⟨fun _ => calls_nothing, ?_⟩⟩
  refine ⟨trivial, fun noSandbox hnoSandbox => ⟨fun _ => calls_nothing, ?_⟩⟩
  refine ⟨⟨hnoSandbox, hflags⟩, fun launched _ => ?_⟩
  have hon : disabled = false := hdisabled
  subst hon
  cases launched with
  | ok browser => exact ⟨fun _ => calls_nothing, trivial⟩
  | error e =>
    dsimp only [notesFailure, Program.bind]
    by_cases hfailure : e.isSandboxFailure = true
    · have hnotes : (!false) = true ∧ e.isSandboxFailure = true := ⟨rfl, hfailure⟩
      rw [if_pos hfailure, if_pos hnotes]
      constructor
      · rintro op' ⟨⟩
        rfl
      · refine ⟨trivial, fun _ _ => ⟨fun _ => calls_nothing, ?_⟩⟩
        rw [if_pos hrequire]
        trivial
    · have hkeeps : ¬((!false) = true ∧ e.isSandboxFailure = true) := fun h => hfailure h.2
      rw [if_neg hfailure, if_neg hkeeps]
      exact ⟨fun _ => calls_nothing, trivial⟩

theorem sandboxed_provisionPlain (dataDir id : Text) :
    Sandboxed extraFlags (SessionDirs.provisionPlain dataDir id) := by
  apply Program.heeds_bind (sandboxed_ask rfl)
  intro made
  cases made with
  | error e => exact Program.heeds_pure
  | ok _ => exact Program.heeds_pure

theorem sandboxed_provisionDirs : Sandboxed extraFlags f.provisionDirs := by
  apply Program.heeds_bind (sandboxed_ask rfl)
  intro id
  apply Program.heeds_bind (sandboxed_ask rfl)
  intro template
  cases template with
  | none => exact sandboxed_provisionPlain _ _
  | some template =>
    apply Program.heeds_bind (sandboxed_ask rfl)
    intro cloned
    split
    · exact Program.heeds_pure
    · exact sandboxed_provisionPlain _ _

theorem limits_not_launches {op : FactoryOp} (h : op.limits = true) : op.launches = false := by
  cases op <;> first | rfl | cases h

theorem sandboxed_prepareLeaf : Sandboxed extraFlags f.prepareLeaf := by
  apply Program.heeds_bind (sandboxed_ask rfl)
  intro blocked
  split
  · exact Program.heeds_pure
  · split
    · exact Program.heeds_pure
    · apply Program.heeds_bind (sandboxed_ask rfl)
      intro seq
      apply Program.heeds_bind (sandboxed_ask rfl)
      intro made
      cases made with
      | error e => exact Program.heeds_pure
      | ok _ =>
        have hlimits : ∀ leaf, Sandboxed extraFlags (f.limitLeaf leaf) := fun leaf =>
          sandboxed_of_asks (f.limitLeaf_asks leaf fun _ => limits_not_launches)
        exact Program.heeds_bind (hlimits _) fun _ => Program.heeds_pure

theorem sandboxed_retryWithoutLeaf {cgroup : Option Text}
    {launched : Except Chrome.LaunchError Chrome.Browser} (hrequire : f.requireSandbox = true)
    (hflags : Chrome.NO_SANDBOX ∉ extraFlags → Chrome.NO_SANDBOX ∉ flags) :
    Sandboxed extraFlags (f.retryWithoutLeaf dirs flags cgroup launched) := by
  unfold ChromeFactory.retryWithoutLeaf
  split
  · apply Program.heeds_bind (sandboxed_ask rfl)
    intro _
    apply Program.heeds_bind (sandboxed_destroyCgroup cgroup)
    intro _
    apply Program.heeds_bind (sandboxed_launchBrowser hrequire hflags)
    intro _
    exact Program.heeds_pure
  · exact Program.heeds_pure

theorem sandboxed_spawnSoftCap {hasCgroup : Bool} {pid : Int} :
    Sandboxed extraFlags (f.spawnSoftCap hasCgroup pid) := by
  unfold ChromeFactory.spawnSoftCap
  split
  · exact Program.heeds_pure
  · exact Program.heeds_bind (sandboxed_ask rfl) fun _ => Program.heeds_pure

theorem sandboxed_finishLaunch {relay : Option Relay} {cgroup : Option Text}
    {launched : Except Chrome.LaunchError Chrome.Browser} :
    Sandboxed extraFlags (f.finishLaunch dirs relay cgroup launched) := by
  cases launched with
  | ok browser =>
    apply Program.heeds_bind (sandboxed_ask rfl)
    intro _
    exact Program.heeds_bind sandboxed_spawnSoftCap fun _ => Program.heeds_pure
  | error e =>
    apply Program.heeds_bind (sandboxed_destroyCgroup cgroup)
    intro _
    exact Program.heeds_bind (sandboxed_teardown dirs) fun _ => Program.heeds_pure

/-- A factory that requires the sandbox, and whose own flags leave it on if the operator's do. -/
structure ChromeFactory.Requires (f : ChromeFactory) (extraFlags : List Text) : Prop where
  required : f.requireSandbox = true
  flags : ∀ relay, Chrome.NO_SANDBOX ∉ extraFlags → Chrome.NO_SANDBOX ∉ f.sessionFlags relay

theorem sandboxed_launchSession (h : f.Requires extraFlags) (relay : Option Relay) :
    Sandboxed extraFlags (f.launchSession dirs relay) := by
  apply Program.heeds_bind sandboxed_prepareLeaf
  intro cgroup
  apply Program.heeds_bind (sandboxed_launchBrowser h.required (h.flags relay))
  intro launched
  apply Program.heeds_bind (sandboxed_retryWithoutLeaf h.required (h.flags relay))
  intro retried
  exact sandboxed_finishLaunch

theorem sandboxed_createCall (h : f.Requires extraFlags) (call : CreateCall) :
    Sandboxed extraFlags (call.program f) := by
  have hwithDirs : ∀ run : SessionDirs → FactoryM (Except CreateError ChromeSession),
      (∀ dirs, Sandboxed extraFlags (run dirs)) → Sandboxed extraFlags (f.withDirs run) := by
    intro run hrun
    apply Program.heeds_bind sandboxed_provisionDirs
    intro made
    cases made with
    | error e => exact Program.heeds_pure
    | ok dirs => exact hrun dirs
  cases call with
  | create => exact hwithDirs _ fun dirs => sandboxed_launchSession h none
  | createProxied relay =>
    exact hwithDirs _ fun dirs => sandboxed_launchSession h (some relay)
  | createSeeded indexeddb relay =>
    apply hwithDirs
    intro dirs
    split
    · exact sandboxed_launchSession h relay
    · apply Program.heeds_bind (sandboxed_ask rfl)
      intro extracted
      split
      · exact sandboxed_launchSession h relay
      · exact Program.heeds_bind (sandboxed_teardown dirs) fun _ => Program.heeds_pure
      · exact Program.heeds_bind (sandboxed_teardown dirs) fun _ => Program.heeds_pure

theorem sandboxed_sealTemplate (browser : Chrome.Browser) :
    Sandboxed extraFlags (f.sealTemplate dirs browser) := by
  have hmeasure : Sandboxed extraFlags (ChromeFactory.measureFootprint browser.pid) := by
    apply Program.heeds_bind (sandboxed_ask rfl)
    intro bytes
    apply Program.heeds_bind (sandboxed_ask rfl)
    intro threads
    dsimp only
    split
    · exact sandboxed_ask rfl
    · exact Program.heeds_pure
  have hmove : ∀ template, Sandboxed extraFlags
      (ChromeFactory.moveTemplate dirs.userDataDir template) := by
    intro template
    apply Program.heeds_bind (sandboxed_ask rfl)
    intro stripped
    split
    · exact sandboxed_ask rfl
    · exact Program.heeds_pure
  have hkeep : ∀ moved template, Sandboxed extraFlags
      (ChromeFactory.keepTemplate moved template) := by
    intro moved template
    cases moved with
    | true => exact sandboxed_ask rfl
    | false => exact Program.heeds_pure
  apply Program.heeds_bind (sandboxed_ask rfl)
  intro _
  apply Program.heeds_bind hmeasure
  intro _
  apply Program.heeds_bind (sandboxed_ask rfl)
  intro _
  apply Program.heeds_bind (sandboxed_ask rfl)
  intro _
  apply Program.heeds_bind (sandboxed_ask rfl)
  intro _
  apply Program.heeds_bind (hmove _)
  intro moved
  apply Program.heeds_bind (hkeep moved _)
  intro _
  exact Program.heeds_bind (sandboxed_teardown dirs) fun _ => Program.heeds_pure

theorem sandboxed_prepareTemplate (h : f.Requires extraFlags) :
    Sandboxed extraFlags f.prepareTemplate := by
  have hflags : Chrome.NO_SANDBOX ∉ extraFlags → Chrome.NO_SANDBOX ∉ f.extraFlags := by
    intro hextra hmem
    exact h.flags none hextra (List.mem_append_left _ hmem)
  apply Program.heeds_bind (sandboxed_ask rfl)
  intro template
  cases template with
  | some template => exact Program.heeds_pure
  | none =>
    apply Program.heeds_bind (sandboxed_ask rfl)
    intro id
    apply Program.heeds_bind (sandboxed_provisionPlain _ _)
    intro made
    cases made with
    | error e => exact Program.heeds_pure
    | ok scratch =>
      apply Program.heeds_bind (sandboxed_launchBrowser h.required hflags)
      intro launched
      cases launched with
      | error e => exact Program.heeds_bind (sandboxed_teardown scratch) fun _ => Program.heeds_pure
      | ok browser => exact sandboxed_sealTemplate browser

/-- Whatever launches browsers keeps the sandbox. -/
theorem sandboxed_call (h : f.Requires extraFlags) (call : InstanceCall) :
    Sandboxed extraFlags (call.program f) := by
  cases call with
  | session call => exact Program.heeds_bind (sandboxed_createCall h call) fun _ =>
    Program.heeds_pure
  | prepareTemplate => exact sandboxed_prepareTemplate h

theorem ChromeFactory.requires_new {config : LoadedConfig} (host : FactoryHost)
    (h : config.requireSandbox = true) :
    (ChromeFactory.new config host).Requires config.extraFlags := by
  refine ⟨h, ?_⟩
  intro relay hextra hmem
  cases List.mem_append.1 hmem with
  | inl hown => exact hextra (Chrome.noSandbox_mem_launchExtraFlags.1 hown)
  | inr hproxy =>
    cases relay with
    | none => cases hproxy
    | some relay => exact Chrome.noSandbox_not_proxy _ hproxy

end

namespace SharedHost
variable {s t : SharedHost} {extraFlags : List Text}

/-- The sandbox is on, and no browser has been started without it, unless the operator's flags say
so. -/
structure Safe (extraFlags : List Text) (s : SharedHost) : Prop where
  disabled : s.cells.disabled = false
  started : Chrome.NO_SANDBOX ∉ extraFlags → ∀ args ∈ s.started, Chrome.NO_SANDBOX ∉ args

theorem Safe.start (h : s.Safe extraFlags) {spec : Chrome.LaunchSpec}
    (hspec : KeepsSandbox extraFlags (.launch spec)) : (s.start spec).Safe extraFlags := by
  refine ⟨h.disabled, ?_⟩
  intro hextra args hargs
  cases List.mem_cons.1 hargs with
  | inr hargs => exact h.started hextra args hargs
  | inl heq =>
    subst heq
    intro hmem
    cases Chrome.noSandbox_mem_args.1 hmem with
    | inl hoff => rw [hspec.1] at hoff; cases hoff
    | inr hflag => exact hspec.2 hextra hflag

theorem Safe.effect {op : FactoryOp} {answer : op.Answer} (h : s.Safe extraFlags)
    (hop : KeepsSandbox extraFlags op) (heffect : s.Effect op answer t) :
    t.Safe extraFlags ∧ SandboxOn op answer := by
  cases heffect with
  | sandboxDisabled => exact ⟨h, h.disabled⟩
  | disableSandbox => cases hop
  | blockSandbox => exact ⟨⟨h.disabled, h.started⟩, trivial⟩
  | launched => exact ⟨h.start hop, trivial⟩
  | launchFailed => exact ⟨h.start hop, trivial⟩
  | unstarted => exact ⟨h, trivial⟩
  | other hother =>
    refine ⟨h, ?_⟩
    cases op with
    | sandboxDisabled => cases hother
    | _ => trivial

theorem Safe.dropped {op : FactoryOp} (h : s.Safe extraFlags) (hop : KeepsSandbox extraFlags op)
    (hdrops : sharedHost.drops s op t) : t.Safe extraFlags := by
  obtain ⟨_, rfl | ⟨spec, rfl, rfl⟩⟩ := hdrops
  · exact h
  · exact h.start hop

/-- What has been blocked stays so. -/
theorem Effect.blocked {op : FactoryOp} {answer : op.Answer} (heffect : s.Effect op answer t)
    (h : s.cells.blocked = true) : t.cells.blocked = true := by
  cases heffect with
  | blockSandbox => rfl
  | _ => exact h

end SharedHost

abbrev Launches := Calls FactoryOp FactoryOp.Answer Unit SharedHost

/-- A launch of call `i` is answered with a sandbox failure. -/
def FailsAt (s : Launches) (i : Nat) (t : Launches) : Prop :=
  ∃ spec e resume host, s.tasks[i]? = some (some (.perform (.launch spec) resume)) ∧
    e.isSandboxFailure = true ∧ sharedHost.does s.host (.launch spec) (.error e) host ∧
    t = ⟨host, s.tasks.set i (some (resume (.error e)))⟩

/-- By now, a launch has reported a sandbox failure: the call that was answered with it has gone
on from there. -/
def Reported (f : ChromeFactory) (config : LoadedConfig) (w : Launches) : Prop :=
  ∃ i s t u v as bs, (f.launching config).Reachable s ∧ FailsAt s i t ∧
    (f.launching config).Run t as u ∧ (f.launching config).step u i v ∧
    (f.launching config).Run v bs w

/-- What is asked of an instance that requires the sandbox, in every run of it. -/
structure KeepsRequired (f : ChromeFactory) (config : LoadedConfig) : Prop where
  started : ∀ s, (f.launching config).Reachable s →
    ∀ args ∈ s.host.started, Chrome.NO_SANDBOX ∉ args
  refuses : ∀ w, Reported f config w → ∀ options state,
    (ready options f w.host.cells state).ready = false

section
variable {config : LoadedConfig} {host : FactoryHost} {f : ChromeFactory} {s t u v w : Launches}

/-- Every instance that requires the sandbox is safe, and its calls keep it so. -/
theorem launching_safe (hf : f.Requires config.extraFlags) (hon : config.noSandbox = false)
    (h : (f.launching config).Reachable s) :
    s.host.Safe config.extraFlags ∧ s.Each (Sandboxed config.extraFlags) := by
  apply Calls.invariant h
  · rintro s rfl
    exact ⟨hon, fun _ args hargs => by cases hargs⟩
  · rintro p ⟨call, rfl⟩
    exact sandboxed_call hf call
  · intro s op resume answer t hs hp hdoes
    obtain ⟨ht, htold⟩ := hs.effect hp.1 hdoes
    exact ⟨ht, (hp.2 answer htold).2⟩
  · intro s op resume t hs hp hdrops
    exact hs.dropped hp.1 hdrops

theorem blocked_step (h : (f.launching config).step s i t) (hs : s.host.cells.blocked = true) :
    t.host.cells.blocked = true := by
  cases h with
  | call => exact hs
  | goesOn _ heffect => exact heffect.blocked hs
  | dropped _ hdrops =>
    obtain ⟨_, heq | ⟨spec, _, heq⟩⟩ := hdrops
    · rw [heq]
      exact hs
    · rw [heq]
      exact hs

theorem not_dropped_blockSandbox (s t : SharedHost) : ¬sharedHost.drops s .blockSandbox t := by
  rintro ⟨hawaits, _⟩
  cases hawaits

theorem blocked_of_effect {s t : SharedHost} {answer : Bool} (h : s.Effect .blockSandbox answer t) :
    t.cells.blocked = true := by
  cases h with
  | blockSandbox => rfl
  | other h => cases h

/-- Call `i` is about to note a sandbox failure, or one has been noted. -/
def Notes (i : Nat) (s : Launches) : Prop :=
  s.next i = some .blockSandbox ∨ s.host.cells.blocked = true

theorem Notes.step {j : Nat} (h : Notes i s) (hstep : (f.launching config).step s j t) :
    Notes i t := by
  cases h with
  | inr hblocked => exact .inr (blocked_step hstep hblocked)
  | inl hnext =>
    cases Calls.Step.next hstep hnext not_dropped_blockSandbox with
    | inl hdone =>
      obtain ⟨_, answer, heffect⟩ := hdone
      exact .inr (blocked_of_effect heffect)
    | inr hother => exact .inl hother.2

theorem Notes.goesOn (h : Notes i s) (hstep : (f.launching config).step s i t) :
    t.host.cells.blocked = true := by
  cases h with
  | inr hblocked => exact blocked_step hstep hblocked
  | inl hnext =>
    cases Calls.Step.next hstep hnext not_dropped_blockSandbox with
    | inl hdone =>
      obtain ⟨_, answer, heffect⟩ := hdone
      exact blocked_of_effect heffect
    | inr hother => exact absurd rfl hother.1

/-- The call that is answered with a sandbox failure notes it next. -/
theorem FailsAt.notes (h : FailsAt s i t) (hs : s.Each (Sandboxed config.extraFlags)) :
    Notes i t := by
  obtain ⟨spec, e, resume, host, htask, hfailure, _, rfl⟩ := h
  have hlt := (List.getElem?_eq_some_iff.1 htask).1
  have hcalls : notesFailure (.launch spec) (.error e) = some .blockSandbox := if_pos hfailure
  have hnext := ((hs i _ htask).2 (.error e) trivial).1 _ hcalls
  left
  rw [Calls.next, List.getElem?_set_self hlt]
  exact hnext

theorem Reported.blocked (h : Reported f config w) (hf : f.Requires config.extraFlags)
    (hon : config.noSandbox = false) : w.host.cells.blocked = true := by
  obtain ⟨i, s, t, u, v, as, bs, hs, hfails, hrun, hstep, hrest⟩ := h
  have ht : Notes i t := hfails.notes (launching_safe hf hon hs).2
  have hu : Notes i u := hrun.preserves ht fun _ _ _ hnotes hstep => hnotes.step hstep
  exact hrest.preserves (hu.goesOn hstep) fun _ _ _ hblocked hstep => blocked_step hstep hblocked

theorem not_ready {options : PoolOptions} {state : AppState} {cells : SandboxCells}
    (hrequire : f.requireSandbox = true) (hblocked : cells.blocked = true) :
    (ready options f cells state).ready = false := by
  have hunavailable : f.sandboxRequiredButUnavailable cells = true := by
    rw [ChromeFactory.sandboxRequiredButUnavailable, hrequire, hblocked]
    rfl
  simp only [ready, hunavailable, Bool.not_true, Bool.and_false, Bool.false_and]

/-- The launch for the template, where all goes well: it is started with the factory's flags. -/
theorem prepareTemplate_goes (f : ChromeFactory) (browser : Chrome.Browser) (s : SharedHost) :
    ∃ spec rest, spec.extraFlags = f.extraFlags ∧
      f.prepareTemplate.Goes sharedHost s rest (s.start spec) := by
  let dirs := SessionDirs.new f.dataDir (text "a")
  let spec : Chrome.LaunchSpec := ⟨f.executable, dirs.userDataDir, s.cells.disabled,
    f.disableDevShm, f.extraFlags, f.launchTimeout, f.maxFrameBytes, none⟩
  refine ⟨spec, f.sealTemplate dirs browser, rfl, ?_⟩
  refine Program.Goes.goesOn none (SharedHost.Effect.other rfl) ?_
  refine Program.Goes.goesOn (text "a") (SharedHost.Effect.other rfl) ?_
  refine Program.Goes.goesOn (.ok ()) (SharedHost.Effect.other rfl) ?_
  refine Program.Goes.goesOn s.cells.disabled SharedHost.Effect.sandboxDisabled ?_
  refine Program.Goes.goesOn s.cells.disabled SharedHost.Effect.sandboxDisabled ?_
  exact Program.Goes.goesOn (.ok browser) SharedHost.Effect.launched .refl

/-- The operator's flags are those of a browser that is started. -/
theorem started_with_extraFlags (config : LoadedConfig) (host : FactoryHost)
    (hextra : Chrome.NO_SANDBOX ∈ config.extraFlags) :
    ∃ s, ((ChromeFactory.new config host).launching config).Reachable s ∧
      ∃ args ∈ s.host.started, Chrome.NO_SANDBOX ∈ args := by
  obtain ⟨spec, rest, hspec, hgoes⟩ := prepareTemplate_goes (.new config host)
    ⟨4211, ⟨"Chrome/149.0.0.0", "1.3", "", ""⟩⟩ (.new config)
  have hflags : Chrome.NO_SANDBOX ∈ spec.extraFlags :=
    hspec ▸ Chrome.noSandbox_mem_launchExtraFlags.2 hextra
  exact ⟨_, Calls.reachable_goes ⟨.prepareTemplate, rfl⟩ rfl hgoes, spec.args, List.mem_cons_self,
    Chrome.noSandbox_mem_args.2 (.inr hflags)⟩

/-- An instance that requires the sandbox keeps it, whatever its launches come to, exactly when
the operator's own flags do not take it off. -/
theorem requireSandbox_kept_iff (config : LoadedConfig) (host : FactoryHost)
    (hvalid : validate config = .ok ()) (hrequire : config.requireSandbox = true) :
    KeepsRequired (.new config host) config ↔ Chrome.NO_SANDBOX ∉ config.extraFlags := by
  have hf : (ChromeFactory.new config host).Requires config.extraFlags :=
    ChromeFactory.requires_new host hrequire
  have hon : config.noSandbox = false := by
    apply Bool.eq_false_iff.2
    intro hoff
    exact (validate_ok_iff.1 hvalid).sandbox ⟨hrequire, hoff⟩
  constructor
  · intro h hextra
    obtain ⟨s, hs, args, hargs, hmem⟩ := started_with_extraFlags config host hextra
    exact h.started s hs args hargs hmem
  · intro hextra
    refine ⟨fun s hs => (launching_safe hf hon hs).1.started hextra, fun w hw options state => ?_⟩
    exact not_ready hrequire (hw.blocked hf hon)

end

/-- The sandbox is required, and an extra flag of the operator takes it off. -/
def requiredWithoutSandbox : LoadedConfig :=
  { LoadedConfig.default 4 with requireSandbox := true, extraFlags := [Chrome.NO_SANDBOX] }

theorem requiredWithoutSandbox_valid : validate requiredWithoutSandbox = .ok () := by
  obtain ⟨hsessions, hcpu, hmemory, hgrace, hframe, _⟩ := LoadedConfig.default_valid 4
  refine validate_ok_iff.2 ⟨hsessions, hcpu, hmemory, hgrace, hframe, ?_⟩
  rintro ⟨_, hoff⟩
  cases hoff

theorem requireSandbox_kept_iff_default :
    KeepsRequired (.new { LoadedConfig.default 4 with requireSandbox := true } FactoryHost.plain)
      { LoadedConfig.default 4 with requireSandbox := true } := by
  obtain ⟨hsessions, hcpu, hmemory, hgrace, hframe, _⟩ := LoadedConfig.default_valid 4
  have hvalid : validate { LoadedConfig.default 4 with requireSandbox := true } = .ok () := by
    refine validate_ok_iff.2 ⟨hsessions, hcpu, hmemory, hgrace, hframe, ?_⟩
    rintro ⟨_, hoff⟩
    cases hoff
  apply (requireSandbox_kept_iff _ FactoryHost.plain hvalid rfl).2
  intro hmem
  cases hmem

theorem requireSandbox_broken :
    validate requiredWithoutSandbox = .ok () ∧ requiredWithoutSandbox.requireSandbox = true ∧
      ¬KeepsRequired (.new requiredWithoutSandbox FactoryHost.plain) requiredWithoutSandbox := by
  refine ⟨requiredWithoutSandbox_valid, rfl, fun h => ?_⟩
  obtain ⟨s, hs, args, hargs, hmem⟩ :=
    started_with_extraFlags requiredWithoutSandbox FactoryHost.plain (List.mem_singleton.2 rfl)
  exact h.started s hs args hargs hmem

end BrowserServe
