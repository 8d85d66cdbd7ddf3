import BrowserServe.Factory

namespace BrowserServe
open Library
set_option autoImplicit true

structure PoolStats where
  running : Nat
  queued : Nat
  warm : Nat
  maxSessions : Nat
  maxQueue : Nat
  accepting : Bool

def Inner.stats (options : PoolOptions) (p : Inner) : PoolStats where
  running := if !p.semaphore.closed then p.maxSessions - p.semaphore.permits else 0
  queued := min p.waiting options.maxQueue
  warm := p.warm.length
  maxSessions := p.maxSessions
  maxQueue := options.maxQueue
  accepting := !p.semaphore.closed

def SingleUse.isSpent (single : SingleUse) : Bool := single.spent

/-- The cells that say what has become of the sandbox, which all clones of a factory share. -/
structure SandboxCells where
  disabled : Bool
  blocked : Bool
  deriving DecidableEq

namespace ChromeFactory

def sandboxRequiredButUnavailable (f : ChromeFactory) (cells : SandboxCells) : Bool :=
  f.requireSandbox && cells.blocked

def sandboxState (f : ChromeFactory) (cells : SandboxCells) : String :=
  if f.sandboxRequiredButUnavailable cells then
    "on (required, but host blocks it: refusing sessions)"
  else if cells.disabled then
    if f.configNoSandbox then "off (config)"
    else "off (auto-fallback: host blocks the sandbox)"
  else if f.requireSandbox then "on (required)"
  else "on"

end ChromeFactory

/-- The body of `/ready`, which is also its status: 200 or 503. -/
structure Readiness where
  ready : Bool
  warm : Nat
  calibrating : Bool
  spent : Bool
  sandbox : String

/-- `GET /ready`: a session could be served right now. -/
def ready (options : PoolOptions) (f : ChromeFactory) (cells : SandboxCells) (state : AppState) :
    Readiness :=
  let poolStats := state.pool.inner.stats options
  let calibrating := state.calibrating
  let spent := state.singleUse.any SingleUse.isSpent
  let ready := !calibrating && !spent && !f.sandboxRequiredButUnavailable cells &&
    poolStats.accepting && (0 < poolStats.warm || poolStats.running < poolStats.maxSessions)
  ⟨ready, poolStats.warm, calibrating, spent, f.sandboxState cells⟩

/-- Instance-level states that refuse every new session. -/
inductive Gate where
  | isOpen
  | sandboxBlocked
  | spent
  | draining
  | calibrating
  deriving DecidableEq

structure PressureInputs where
  gate : Gate
  running : Nat
  maxSessions : Nat
  queued : Nat
  maxQueue : Nat
  cpu : Rat
  memory : Rat
  maxCpu : Rat
  maxMemory : Rat
  threads : Option ThreadUsage

/-- Why a new session would be refused right now, or `""`. -/
def unavailableReason (inputs : PressureInputs) : String :=
  match inputs.gate with
  | .sandboxBlocked => "sandbox"
  | .spent => "spent"
  | .draining => "draining"
  | .calibrating => "calibrating"
  | .isOpen =>
    if inputs.threads.any (!·.fitsASession) then "threads"
    else if inputs.maxSessions ≤ inputs.running ∧ inputs.maxQueue ≤ inputs.queued then "full"
    else if inputs.maxCpu < inputs.cpu then "cpu"
    else if inputs.maxMemory < inputs.memory then "memory"
    else ""

def gate (f : ChromeFactory) (cells : SandboxCells) (state : AppState) (accepting : Bool) : Gate :=
  if f.sandboxRequiredButUnavailable cells then .sandboxBlocked
  else if state.singleUse.any SingleUse.isSpent then .spent
  else if !accepting then .draining
  else if state.calibrating then .calibrating
  else .isOpen

def pressureReason (options : PoolOptions) (f : ChromeFactory) (cells : SandboxCells)
    (state : AppState) : String × Rat × Rat :=
  let (cpu, memory) := state.gauge.snapshot
  let poolStats := state.pool.inner.stats options
  let reason := unavailableReason {
    gate := gate f cells state poolStats.accepting
    running := poolStats.running
    maxSessions := poolStats.maxSessions
    queued := poolStats.queued
    maxQueue := poolStats.maxQueue
    cpu
    memory
    maxCpu := state.pressure.maxCpuPercent
    maxMemory := state.pressure.maxMemoryPercent
    threads := state.threads }
  (reason, cpu, memory)

/-- `/pressure` gives a reason exactly where one of its conditions holds. -/
theorem unavailableReason_ne_empty {inputs : PressureInputs} :
    unavailableReason inputs ≠ "" ↔ inputs.gate ≠ .isOpen ∨
      inputs.threads.any (!·.fitsASession) = true ∨
      (inputs.maxSessions ≤ inputs.running ∧ inputs.maxQueue ≤ inputs.queued) ∨
      inputs.maxCpu < inputs.cpu ∨ inputs.maxMemory < inputs.memory := by
  unfold unavailableReason
  cases inputs.gate with
  | isOpen =>
    simp only
    split_ifs <;> simp_all
  | sandboxBlocked => simp
  | spent => simp
  | draining => simp
  | calibrating => simp

theorem gate_eq_isOpen {f : ChromeFactory} {cells : SandboxCells} {state : AppState}
    {accepting : Bool} : gate f cells state accepting = .isOpen ↔
      f.sandboxRequiredButUnavailable cells = false ∧
        state.singleUse.any SingleUse.isSpent = false ∧
        accepting = true ∧ state.calibrating = false := by
  unfold gate
  split_ifs <;> simp_all

/-- All permits are taken exactly where as many sessions run as may, and one more that waits is
too many where the queue is full. -/
theorem Inner.stats_full {options : PoolOptions} {p : Inner} (hmax : 1 ≤ p.maxSessions)
    (hopen : p.semaphore.closed = false) :
    ((p.stats options).maxSessions ≤ (p.stats options).running ∧
        (p.stats options).maxQueue ≤ (p.stats options).queued) ↔
      p.semaphore.permits = 0 ∧ options.maxQueue < p.waiting + 1 := by
  simp only [stats, hopen, Bool.not_false, if_true]
  omega

end BrowserServe
