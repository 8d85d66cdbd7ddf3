import BrowserServe.CdpClient
import BrowserServe.ChromeFlags

namespace BrowserServe.Chrome
open Library
set_option autoImplicit true

def READY_PROBE_ID : Nat := 1
def STDERR_MAX_LINES : Nat := 200
def ENTER_LEAF_FAILURE_MARKER : Text := text "cgroup.procs"

inductive LaunchError where
  | pipes (error : String)
  | fdMapping
  | spawn (error : String)
  | pidUnavailable
  | wire (error : String)
  | chromeExited (status : String) (stderrTail : Text)
  | startupPipe (source : PipeError) (stderrTail : Text)
  | readyTimeout (timeoutMs : Nat) (stderrTail : Text)
  deriving DecidableEq

def SANDBOX_SIGNATURES : List Text := List.map text
  ["No usable sandbox", "sandbox/linux/services/credentials", "Failed to move to new namespace",
    "chrome_sandbox", "setuid sandbox"]

def SANDBOX_REMEDIATION : Text :=
  text "the container blocks the system calls Chromium's sandbox needs. Two ways forward:
  recommended: run the container with our seccomp profile, which keeps the sandbox ON:
    docker run --security-opt seccomp=seccomp.json ...
  fallback: explicitly disable the sandbox in config (chrome.noSandbox: true)
  details: https://github.com/browser-gateway/browserserve#sandbox"

namespace LaunchError

/-- The last of the browser's stderr, for a failure after it was started. -/
def stderrTail : LaunchError → Option Text
  | chromeExited _ tail | startupPipe _ tail | readyTimeout _ tail => some tail
  | _ => none

def remediation (e : LaunchError) : Option Text :=
  if e.stderrTail.any fun tail => decide (text "No usable sandbox" <:+: tail) then
    some SANDBOX_REMEDIATION
  else none

def isSandboxFailure (e : LaunchError) : Bool :=
  e.stderrTail.any fun tail => SANDBOX_SIGNATURES.any fun sig => decide (sig <:+: tail)

def isCgroupEnterFailure : LaunchError → Bool
  | chromeExited _ tail => decide (ENTER_LEAF_FAILURE_MARKER <:+: tail)
  | _ => false

end LaunchError

structure BrowserVersion where
  product : String
  protocolVersion : String
  userAgent : String
  jsVersion : String
  deriving DecidableEq

/-- The most recent lines of the browser's stderr, oldest first. -/
structure StderrTail where
  lines : List Text

def StderrTail.push (tail : StderrTail) (line : Text) : StderrTail :=
  let lines := tail.lines ++ [line]
  ⟨lines.drop (lines.length - STDERR_MAX_LINES)⟩

def StderrTail.joined (tail : StderrTail) : Text := ['\n'].intercalate tail.lines

structure LaunchSpec where
  executable : Text
  userDataDir : Text
  noSandbox : Bool
  disableDevShm : Bool
  extraFlags : List Text
  launchTimeout : Nat
  maxFrameBytes : Nat
  cgroupLeaf : Option Text

/-- A launched browser; its pid is also its process group's. -/
structure Browser where
  pid : Int
  version : BrowserVersion

def LaunchSpec.args (spec : LaunchSpec) : List Text :=
  buildFlags ⟨spec.userDataDir, spec.noSandbox, spec.disableDevShm, spec.extraFlags⟩

inductive ProbeFailure where
  | exited (status : String)
  | pipe (error : PipeError)
  deriving DecidableEq

/-- What the probe sees first whenever it waits: the child's exit, or what the pipe gives. -/
inductive Seen where
  | exited (status : String)
  | received (message : Except PipeError Value)

def parseVersion (value : Value) : BrowserVersion :=
  let field := fun name =>
    (((value.get "result").bind fun result => result.get name).bind Value.asStr).getD ""
  ⟨field "product", field "protocolVersion", field "userAgent", field "jsVersion"⟩

/-- What the probe comes to, if it does, over all that it sees. -/
def probeSeen : List Seen → Option (Except ProbeFailure BrowserVersion)
  | [] => none
  | .exited status :: _ => some (.error (.exited status))
  | .received (.error e) :: _ => some (.error (.pipe e))
  | .received (.ok value) :: seen =>
    if messageId value = some READY_PROBE_ID then some (.ok (parseVersion value))
    else probeSeen seen

def probeReady (sent : Except PipeError Unit) (seen : List Seen) :
    Option (Except ProbeFailure BrowserVersion) :=
  match sent with
  | .error e => some (.error (.pipe e))
  | .ok () => probeSeen seen

/-- What the host makes of a launch: of each call before the probe, of the probe's message, what
the probe sees within its time, and the stderr lines that have been collected when it ends. -/
structure LaunchHost where
  pipes : Except String Unit
  fdMapping : Bool
  spawn : Except String Unit
  pid : Option Int
  wire : Except String Unit
  sent : Except PipeError Unit
  seen : List Seen
  collected : List Text

def LaunchHost.stderrTail (host : LaunchHost) : StderrTail :=
  host.collected.foldl StderrTail.push ⟨[]⟩

def launch (host : LaunchHost) (spec : LaunchSpec) : Except LaunchError Browser := do
  host.pipes.mapError .pipes
  if !host.fdMapping then throw .fdMapping
  host.spawn.mapError .spawn
  let pid ← host.pid.elim (.error .pidUnavailable) .ok
  host.wire.mapError .wire
  match probeReady host.sent host.seen with
  | some (.ok version) => return ⟨pid, version⟩
  | some (.error (.exited status)) => throw (.chromeExited status host.stderrTail.joined)
  | some (.error (.pipe source)) => throw (.startupPipe source host.stderrTail.joined)
  | none => throw (.readyTimeout spec.launchTimeout host.stderrTail.joined)

/-- What a launch starts has `--no-sandbox` exactly when its flags or its extra flags do. -/
theorem noSandbox_mem_args {spec : LaunchSpec} :
    NO_SANDBOX ∈ spec.args ↔ spec.noSandbox = true ∨ NO_SANDBOX ∈ spec.extraFlags :=
  noSandbox_mem_buildFlags

end BrowserServe.Chrome
