import BrowserServe.ServerState
import Mathlib.Algebra.Order.Field.Rat

namespace BrowserServe
open Library
set_option autoImplicit true

/-- A configuration as it is loaded, with the settings the session factory reads. -/
structure LoadedConfig extends RuntimeConfig where
  memoryMaxMb : Nat
  cpuPercent : Nat
  pidsMax : Nat
  killGraceMs : Nat
  noSandbox : Bool
  requireSandbox : Bool
  stealth : Bool
  launchTimeoutMs : Nat
  maxFrameBytes : Nat
  dataDir : Text

/-- What an empty file and environment give, on a host that is good for `estimate` sessions. -/
def LoadedConfig.default (estimate : Nat) : LoadedConfig where
  minReady := 1
  maxSessions := none
  calibrate := true
  maxQueue := 10
  queueTimeout := 30000
  warmIdle := 300000
  warmMaxAge := 3600000
  estimate := estimate
  token := none
  pressure := ⟨95, 95⟩
  singleUse := false
  resumeWindow := 0
  proxyEnabled := true
  allowPrivateUpstream := false
  extraFlags := []
  memoryMaxMb := 0
  cpuPercent := 0
  pidsMax := 0
  killGraceMs := 5000
  noSandbox := false
  requireSandbox := false
  stealth := true
  launchTimeoutMs := 30000
  maxFrameBytes := 256 * 1024 * 1024
  dataDir := text ".browserserve"

def refuseIf (p : Prop) [Decidable p] (reason : String) : Except String Unit :=
  if p then .error reason else .ok ()

def validatePercent (name : String) (value : Rat) : Except String Unit :=
  refuseIf (¬ (1 ≤ value ∧ value ≤ 100)) s!"{name} must be between 1 and 100"

def validate (config : LoadedConfig) : Except String Unit := do
  refuseIf (config.maxSessions = some 0) "pool.maxSessions must be at least 1 (or unset for auto)"
  validatePercent "pressure.maxCpuPercent" config.pressure.maxCpuPercent
  validatePercent "pressure.maxMemoryPercent" config.pressure.maxMemoryPercent
  refuseIf (config.killGraceMs = 0) "session.killGraceMs must be greater than 0"
  refuseIf (config.maxFrameBytes = 0) "chrome.maxFrameBytes must be greater than 0"
  refuseIf (config.requireSandbox ∧ config.noSandbox)
    ("chrome.requireSandbox and chrome.noSandbox are contradictory: one demands the sandbox, " ++
      "the other disables it")

/-- The configurations that pass. -/
structure LoadedConfig.Valid (config : LoadedConfig) : Prop where
  maxSessions : config.maxSessions ≠ some 0
  maxCpuPercent : 1 ≤ config.pressure.maxCpuPercent ∧ config.pressure.maxCpuPercent ≤ 100
  maxMemoryPercent : 1 ≤ config.pressure.maxMemoryPercent ∧ config.pressure.maxMemoryPercent ≤ 100
  killGraceMs : config.killGraceMs ≠ 0
  maxFrameBytes : config.maxFrameBytes ≠ 0
  sandbox : ¬ (config.requireSandbox = true ∧ config.noSandbox = true)

theorem refuseIf_ok {p : Prop} [Decidable p] {reason : String} :
    refuseIf p reason = .ok () ↔ ¬ p := by
  unfold refuseIf
  by_cases hp : p
  · simp [hp]
  · simp [hp]

theorem andThen_ok {first second : Except String Unit} :
    (first >>= fun _ => second) = .ok () ↔ first = .ok () ∧ second = .ok () := by
  cases first with
  | ok u => exact (and_iff_right rfl).symm
  | error e => exact iff_of_false nofun nofun

/-- A configuration is accepted exactly when each of its settings is, with the others. -/
theorem validate_ok_iff {config : LoadedConfig} : validate config = .ok () ↔ config.Valid := by
  simp only [validate, validatePercent, andThen_ok, refuseIf_ok, not_not]
  constructor
  · rintro ⟨hsessions, hcpu, hmemory, hgrace, hframe, hsandbox⟩
    exact ⟨hsessions, hcpu, hmemory, hgrace, hframe, hsandbox⟩
  · intro h
    exact ⟨h.maxSessions, h.maxCpuPercent, h.maxMemoryPercent, h.killGraceMs, h.maxFrameBytes,
      h.sandbox⟩

theorem LoadedConfig.default_valid (estimate : Nat) : (LoadedConfig.default estimate).Valid where
  maxSessions := nofun
  maxCpuPercent := by
    show (1 : Rat) ≤ 95 ∧ (95 : Rat) ≤ 100
    decide +kernel
  maxMemoryPercent := by
    show (1 : Rat) ≤ 95 ∧ (95 : Rat) ≤ 100
    decide +kernel
  killGraceMs := nofun
  maxFrameBytes := nofun
  sandbox := nofun

end BrowserServe
