import BrowserServe.Factory

namespace BrowserServe
open Library
set_option autoImplicit true

namespace Chrome
variable {host : LaunchHost} {spec : LaunchSpec} {stderr lines : List Text} {tail : StderrTail}

theorem StderrTail.push_lines (hlines : tail.lines = lines.drop (lines.length - STDERR_MAX_LINES))
    (line : Text) : (tail.push line).lines =
      (lines ++ [line]).drop ((lines ++ [line]).length - STDERR_MAX_LINES) := by
  have hle : lines.length - STDERR_MAX_LINES ≤ lines.length := Nat.sub_le _ _
  have happend : tail.lines ++ [line] =
      (lines ++ [line]).drop (lines.length - STDERR_MAX_LINES) := by
    rw [hlines, List.drop_append_of_le_length hle]
  have hdropped : ∀ limit n : Nat, n - limit + (n + 1 - (n - limit) - limit) = n + 1 - limit := by
    intro limit n
    omega
  simp only [push]
  rw [happend, List.drop_drop, List.length_drop, List.length_append, List.length_singleton,
    hdropped]

/-- Of the lines collected, the last ones are kept. -/
theorem LaunchHost.stderrTail_lines (host : LaunchHost) :
    host.stderrTail.lines = host.collected.drop (host.collected.length - STDERR_MAX_LINES) := by
  have hfold : ∀ lines : List Text, (lines.foldl StderrTail.push ⟨[]⟩).lines =
      lines.drop (lines.length - STDERR_MAX_LINES) := by
    intro lines
    induction lines using List.reverseRecOn with
    | nil => rfl
    | append_singleton lines line ih =>
      rw [List.foldl_append]
      exact StderrTail.push_lines ih line
  exact hfold host.collected

/-- A line that names `cgroup.procs` has been collected and kept. -/
def LaunchHost.NamesLeaf (host : LaunchHost) : Prop :=
  ∃ line ∈ host.collected.drop (host.collected.length - STDERR_MAX_LINES),
    ENTER_LEAF_FAILURE_MARKER <:+: line

theorem LaunchHost.namesLeaf_iff :
    ENTER_LEAF_FAILURE_MARKER <:+: host.stderrTail.joined ↔ host.NamesLeaf := by
  rw [StderrTail.joined, infix_intercalate (by decide) (by decide), host.stderrTail_lines,
    NamesLeaf]

/-- The wrapper was started, was refused the write to `cgroup.procs`, of which it wrote to its
stderr, and never became the browser, of which no message comes. -/
structure LaunchHost.RefusesJoin (host : LaunchHost) (stderr : List Text) : Prop where
  pipes : host.pipes = .ok ()
  fdMapping : host.fdMapping = true
  spawn : host.spawn = .ok ()
  pid : host.pid.isSome = true
  silent : ∀ msg, Seen.received (.ok msg) ∉ host.seen
  named : ∃ line ∈ stderr, ENTER_LEAF_FAILURE_MARKER <:+: line
  collected : host.collected <+: stderr

/-- The probe is sent and sees the exit first, and by then its reason has been collected. -/
structure LaunchHost.ShowsExit (host : LaunchHost) : Prop where
  wire : host.wire = .ok ()
  sent : host.sent = .ok ()
  exited : ∃ status, host.seen.head? = some (.exited status)
  named : host.NamesLeaf

namespace LaunchHost.RefusesJoin

theorem launch_wire (h : host.RefusesJoin stderr) {e : String} (hwire : host.wire = .error e) :
    launch host spec = .error (.wire e) := by
  obtain ⟨pid, hpid⟩ := Option.isSome_iff_exists.mp h.pid
  simp only [launch, h.pipes, h.fdMapping, h.spawn, hpid, hwire]
  rfl

theorem launch_exited (h : host.RefusesJoin stderr) (hwire : host.wire = .ok ()) {status : String}
    (hprobe : probeReady host.sent host.seen = some (.error (.exited status))) :
    launch host spec = .error (.chromeExited status host.stderrTail.joined) := by
  obtain ⟨pid, hpid⟩ := Option.isSome_iff_exists.mp h.pid
  simp only [launch, h.pipes, h.fdMapping, h.spawn, hpid, hwire, hprobe]
  rfl

theorem launch_pipe (h : host.RefusesJoin stderr) (hwire : host.wire = .ok ()) {e : PipeError}
    (hprobe : probeReady host.sent host.seen = some (.error (.pipe e))) :
    launch host spec = .error (.startupPipe e host.stderrTail.joined) := by
  obtain ⟨pid, hpid⟩ := Option.isSome_iff_exists.mp h.pid
  simp only [launch, h.pipes, h.fdMapping, h.spawn, hpid, hwire, hprobe]
  rfl

theorem launch_timeout (h : host.RefusesJoin stderr) (hwire : host.wire = .ok ())
    (hprobe : probeReady host.sent host.seen = none) :
    launch host spec = .error (.readyTimeout spec.launchTimeout host.stderrTail.joined) := by
  obtain ⟨pid, hpid⟩ := Option.isSome_iff_exists.mp h.pid
  simp only [launch, h.pipes, h.fdMapping, h.spawn, hpid, hwire, hprobe]
  rfl

end LaunchHost.RefusesJoin
end Chrome

open Chrome
variable {f : ChromeFactory} {host : LaunchHost} {spec : LaunchSpec} {stderr : List Text}

/-- Of the errors, `launch` gives the one that is recognised where it sees the exit first. -/
theorem cgroupEnterFailed_launch_iff (h : host.RefusesJoin stderr) :
    cgroupEnterFailed (launch host spec) = true ↔ host.ShowsExit := by
  cases hwire : host.wire with
  | error e =>
    rw [h.launch_wire hwire]
    constructor
    · intro hfailed
      cases hfailed
    · intro hshows
      have hok := hshows.wire
      rw [hwire] at hok
      cases hok
  | ok _ =>
    cases hsent : host.sent with
    | error e =>
      rw [h.launch_pipe hwire (by rw [hsent]; rfl)]
      constructor
      · intro hfailed
        cases hfailed
      · intro hshows
        have hok := hshows.sent
        rw [hsent] at hok
        cases hok
    | ok _ =>
      cases hseen : host.seen with
      | nil =>
        rw [h.launch_timeout hwire (by rw [hsent, hseen]; rfl)]
        constructor
        · intro hfailed
          cases hfailed
        · intro hshows
          obtain ⟨status, hstatus⟩ := hshows.exited
          rw [hseen] at hstatus
          cases hstatus
      | cons first seen =>
        cases first with
        | exited status =>
          rw [h.launch_exited hwire (by rw [hsent, hseen]; rfl)]
          have hrecognised : cgroupEnterFailed
              (.error (.chromeExited status host.stderrTail.joined)) = true ↔ host.NamesLeaf :=
            decide_eq_true_iff.trans LaunchHost.namesLeaf_iff
          rw [hrecognised]
          constructor
          · intro hnames
            exact ⟨hwire, hsent, ⟨status, by rw [hseen]; rfl⟩, hnames⟩
          · intro hshows
            exact hshows.named
        | received message =>
          cases message with
          | ok msg => exact absurd (hseen ▸ List.mem_cons_self) (h.silent msg)
          | error e =>
            rw [h.launch_pipe hwire (by rw [hsent, hseen]; rfl)]
            constructor
            · intro hfailed
              cases hfailed
            · intro hshows
              obtain ⟨status, hstatus⟩ := hshows.exited
              rw [hseen] at hstatus
              cases hstatus

/-- The leaf is given up for good, and the browser launched again without one. -/
def ChromeFactory.withoutLeaf (f : ChromeFactory) (dirs : SessionDirs) (extraFlags : List Text)
    (leaf : Text) : FactoryM (Option Text × Except LaunchError Browser) := do
  let _ ← ask .blockLeafEnter
  destroyCgroup (some leaf)
  let launched ← f.launchBrowser dirs.userDataDir none extraFlags
  pure (none, launched)

/-- What is asked of a launch in a leaf: its error is recognised, and the session goes on without
the leaf. -/
structure ChromeFactory.FallsBack (f : ChromeFactory) (dirs : SessionDirs) (extraFlags : List Text)
    (leaf : Text) (launched : Except LaunchError Browser) : Prop where
  recognised : cgroupEnterFailed launched = true
  again : f.retryWithoutLeaf dirs extraFlags (some leaf) launched =
    f.withoutLeaf dirs extraFlags leaf

theorem ChromeFactory.fallsBack_iff {dirs : SessionDirs} {extraFlags : List Text} {leaf : Text}
    {launched : Except LaunchError Browser} :
    f.FallsBack dirs extraFlags leaf launched ↔ cgroupEnterFailed launched = true := by
  constructor
  · intro h
    exact h.recognised
  · intro h
    refine ⟨h, ?_⟩
    rw [retryWithoutLeaf, if_pos ⟨rfl, h⟩]
    rfl

/-- A launch that is refused to join its leaf falls back exactly when the exit is what is seen
first, after the probe could be sent, with its reason collected. The pipe that `launch` makes stays
open until it returns, so what is left to chance there is the collecting. -/
theorem refused_join_falls_back_iff (f : ChromeFactory) (dirs : SessionDirs)
    (extraFlags : List Text) (leaf : Text) (host : LaunchHost) (spec : LaunchSpec)
    (stderr : List Text) (h : host.RefusesJoin stderr) :
    f.FallsBack dirs extraFlags leaf (launch host { spec with cgroupLeaf := some leaf }) ↔
      host.ShowsExit :=
  ChromeFactory.fallsBack_iff.trans (cgroupEnterFailed_launch_iff h)

/-- The shell's line for a `cgroup.procs` that it may not write. -/
def joinRefusedLine : Text :=
  text "/bin/sh: 1: cannot create /sys/fs/cgroup/s/cgroup.procs: Permission denied"

/-- A shell that writes this line and exits. Until `launch` returns, its `command` holds the child's
ends of the pipe, so the exit is what the probe sees. -/
def joinRefusedHost (collected : List Text) : LaunchHost where
  pipes := .ok ()
  fdMapping := true
  spawn := .ok ()
  pid := some 4211
  wire := .ok ()
  sent := .ok ()
  seen := [.exited "exit status: 2"]
  collected := collected

theorem joinRefusedHost_refusesJoin {collected : List Text} (h : collected <+: [joinRefusedLine]) :
    (joinRefusedHost collected).RefusesJoin [joinRefusedLine] where
  pipes := rfl
  fdMapping := rfl
  spawn := rfl
  pid := rfl
  silent := by simp [joinRefusedHost]
  named := ⟨_, List.mem_singleton.mpr rfl,
    text "/bin/sh: 1: cannot create /sys/fs/cgroup/s/", text ": Permission denied", by decide⟩
  collected := h

def leafSpec : LaunchSpec :=
  ⟨text "/usr/bin/chrome", text "/tmp/bs/a", false, false, [], 30000, 1000000,
    some (text "/sys/fs/cgroup/s")⟩

theorem refused_join_falls_back_iff_exited :
    (ChromeFactory.new (LoadedConfig.default 4) FactoryHost.plain).FallsBack
      (SessionDirs.new (text "/tmp/bs") (text "a")) [] (text "/sys/fs/cgroup/s")
      (launch (joinRefusedHost [joinRefusedLine]) leafSpec) := by
  have hrefuses := joinRefusedHost_refusesJoin (List.prefix_refl [joinRefusedLine])
  have hnamed : (joinRefusedHost [joinRefusedLine]).NamesLeaf := hrefuses.named
  exact (refused_join_falls_back_iff _ _ _ _ _ leafSpec _ hrefuses).mpr
    ⟨rfl, rfl, ⟨_, rfl⟩, hnamed⟩

/-- The probe sees the exit before the task that collects the stderr has read the line. -/
theorem refused_join_seen_before_stderr :
    (joinRefusedHost []).RefusesJoin [joinRefusedLine] ∧
      ¬(ChromeFactory.new (LoadedConfig.default 4) FactoryHost.plain).FallsBack
        (SessionDirs.new (text "/tmp/bs") (text "a")) [] (text "/sys/fs/cgroup/s")
        (launch (joinRefusedHost []) leafSpec) := by
  have hrefuses := joinRefusedHost_refusesJoin (List.nil_prefix (l := [joinRefusedLine]))
  refine ⟨hrefuses, fun hfalls => ?_⟩
  have hshows := (cgroupEnterFailed_launch_iff hrefuses).mp hfalls.recognised
  obtain ⟨line, hline, _⟩ := hshows.named
  cases hline

end BrowserServe
