import BrowserServe.ConnectUrl
import BrowserServe.Library.Overrides

namespace BrowserServe.Config
open Library
set_option autoImplicit true

/-- `invalid` comes with what was got, where the message ends with it. -/
inductive ConfigError where
  | yaml (error : String)
  | read (path : Text) (source : String)
  | badPort (value : Text)
  | invalid (reason : String) (got : Option Text)

structure PoolConfig where
  minReady : Nat
  calibrate : Bool
  maxSessions : Option Nat
  maxQueue : Nat
  queueTimeoutMs : Nat
  warmIdleMs : Nat
  warmMaxAgeMs : Nat

def PoolConfig.default : PoolConfig where
  minReady := 1
  calibrate := true
  maxSessions := none
  maxQueue := 10
  queueTimeoutMs := 30000
  warmIdleMs := 300000
  warmMaxAgeMs := 3600000

structure SessionConfig where
  idleTimeoutMs : Nat
  memoryMaxMb : Nat
  cpuPercent : Nat
  pidsMax : Nat
  tmpfsSizeMb : Nat
  killGraceMs : Nat
  singleUse : Bool
  resumeWindowMs : Nat

def SessionConfig.default : SessionConfig where
  idleTimeoutMs := 0
  memoryMaxMb := 0
  cpuPercent := 0
  pidsMax := 0
  tmpfsSizeMb := 512
  killGraceMs := 5000
  singleUse := false
  resumeWindowMs := 0

structure ProxyConfig where
  enabled : Bool
  allowPrivateUpstream : Bool

def ProxyConfig.default : ProxyConfig := ⟨true, false⟩

inductive Transport where
  | pipe
  | port

structure ChromeConfig where
  executablePath : Option Text
  transport : Transport
  noSandbox : Bool
  requireSandbox : Bool
  stealth : Bool
  extraFlags : List Text
  launchTimeoutMs : Nat
  maxFrameBytes : Nat

def ChromeConfig.default : ChromeConfig where
  executablePath := none
  transport := .pipe
  noSandbox := false
  requireSandbox := false
  stealth := true
  extraFlags := []
  launchTimeoutMs := 30000
  maxFrameBytes := 256 * 1024 * 1024

structure RuntimeConfig where
  pool : PoolConfig
  session : SessionConfig
  pressure : PressureConfig
  chrome : ChromeConfig
  proxy : ProxyConfig
  dataDir : Text
  drainTimeoutMs : Nat
  externalAddress : Option Text

def RuntimeConfig.default : RuntimeConfig where
  pool := .default
  session := .default
  pressure := ⟨95, 95⟩
  chrome := .default
  proxy := .default
  dataDir := text ".browserserve"
  drainTimeoutMs := 30000
  externalAddress := none

structure ServeSettings where
  port : Nat
  host : Text
  token : Option Text

structure Loaded where
  config : RuntimeConfig
  serve : ServeSettings

/-- The settings that the server and its factory read, on a host good for `estimate` sessions. -/
def Loaded.settings (loaded : Loaded) (estimate : Nat) : LoadedConfig where
  minReady := loaded.config.pool.minReady
  maxSessions := loaded.config.pool.maxSessions
  calibrate := loaded.config.pool.calibrate
  maxQueue := loaded.config.pool.maxQueue
  queueTimeout := loaded.config.pool.queueTimeoutMs
  warmIdle := loaded.config.pool.warmIdleMs
  warmMaxAge := loaded.config.pool.warmMaxAgeMs
  estimate := estimate
  token := loaded.serve.token
  pressure := loaded.config.pressure
  singleUse := loaded.config.session.singleUse
  resumeWindow := loaded.config.session.resumeWindowMs
  proxyEnabled := loaded.config.proxy.enabled
  allowPrivateUpstream := loaded.config.proxy.allowPrivateUpstream
  extraFlags := loaded.config.chrome.extraFlags
  memoryMaxMb := loaded.config.session.memoryMaxMb
  cpuPercent := loaded.config.session.cpuPercent
  pidsMax := loaded.config.session.pidsMax
  killGraceMs := loaded.config.session.killGraceMs
  noSandbox := loaded.config.chrome.noSandbox
  requireSandbox := loaded.config.chrome.requireSandbox
  stealth := loaded.config.chrome.stealth
  launchTimeoutMs := loaded.config.chrome.launchTimeoutMs
  maxFrameBytes := loaded.config.chrome.maxFrameBytes
  dataDir := loaded.config.dataDir

abbrev Env := String → Option Text

def isTruthy (value : Text) : Bool :=
  [text "1", text "true", text "yes", text "on"].contains (toAsciiLowercase (trim value))

abbrev Variable := Override String Text ConfigError RuntimeConfig

def readInteger (key : String) (bits : Nat) (value : Text) : Except ConfigError Nat :=
  match parseUnsigned bits (trim value) with
  | some n => .ok n
  | none => .error (.invalid (key ++ " must be a non-negative integer, got ") (some value))

def readMaxSessions (value : Text) : Except ConfigError (Option Nat) :=
  match parseUnsigned 32 (trim value) with
  | none => .error (.invalid "BROWSERSERVE_MAX_SESSIONS must be a positive integer, got "
      (some value))
  | some parsed =>
    if parsed = 0 then .error (.invalid "BROWSERSERVE_MAX_SESSIONS must be at least 1" none)
    else .ok (some parsed)

def integer (key : String) (bits : Nat) (get : RuntimeConfig → Nat)
    (set : Nat → RuntimeConfig → RuntimeConfig) (h : ∀ a s, get (set a s) = a) : Variable :=
  ⟨key, Nat, get, set, readInteger key bits, h⟩

def switch (key : String) (get : RuntimeConfig → Bool)
    (set : Bool → RuntimeConfig → RuntimeConfig) (h : ∀ a s, get (set a s) = a) : Variable :=
  ⟨key, Bool, get, set, fun value => .ok (isTruthy value), h⟩

def VARIABLES : List Variable :=
  [⟨"BROWSERSERVE_CHROME_PATH", Option Text, fun c => c.chrome.executablePath,
      fun path c => { c with chrome := { c.chrome with executablePath := path } },
      fun value => .ok (some value), fun _ _ => rfl⟩,
    ⟨"BROWSERSERVE_DATA_DIR", Text, fun c => c.dataDir, fun dir c => { c with dataDir := dir },
      fun value => .ok value, fun _ _ => rfl⟩,
    integer "BROWSERSERVE_MIN_READY" 32 (fun c => c.pool.minReady)
      (fun n c => { c with pool := { c.pool with minReady := n } }) fun _ _ => rfl,
    integer "BROWSERSERVE_IDLE_TIMEOUT_MS" 64 (fun c => c.session.idleTimeoutMs)
      (fun n c => { c with session := { c.session with idleTimeoutMs := n } }) fun _ _ => rfl,
    integer "BROWSERSERVE_RESUME_WINDOW_MS" 64 (fun c => c.session.resumeWindowMs)
      (fun n c => { c with session := { c.session with resumeWindowMs := n } }) fun _ _ => rfl,
    integer "BROWSERSERVE_MEMORY_MAX_MB" 64 (fun c => c.session.memoryMaxMb)
      (fun n c => { c with session := { c.session with memoryMaxMb := n } }) fun _ _ => rfl,
    integer "BROWSERSERVE_CPU_PERCENT" 32 (fun c => c.session.cpuPercent)
      (fun n c => { c with session := { c.session with cpuPercent := n } }) fun _ _ => rfl,
    integer "BROWSERSERVE_PIDS_MAX" 32 (fun c => c.session.pidsMax)
      (fun n c => { c with session := { c.session with pidsMax := n } }) fun _ _ => rfl,
    ⟨"BROWSERSERVE_MAX_SESSIONS", Option Nat, fun c => c.pool.maxSessions,
      fun n c => { c with pool := { c.pool with maxSessions := n } }, readMaxSessions,
      fun _ _ => rfl⟩,
    integer "BROWSERSERVE_MAX_QUEUE" 32 (fun c => c.pool.maxQueue)
      (fun n c => { c with pool := { c.pool with maxQueue := n } }) fun _ _ => rfl,
    integer "BROWSERSERVE_QUEUE_TIMEOUT_MS" 64 (fun c => c.pool.queueTimeoutMs)
      (fun n c => { c with pool := { c.pool with queueTimeoutMs := n } }) fun _ _ => rfl]

def SWITCHES : List Variable :=
  [switch "BROWSERSERVE_REQUIRE_SANDBOX" (fun c => c.chrome.requireSandbox)
      (fun b c => { c with chrome := { c.chrome with requireSandbox := b } }) fun _ _ => rfl,
    switch "BROWSERSERVE_NO_SANDBOX" (fun c => c.chrome.noSandbox)
      (fun b c => { c with chrome := { c.chrome with noSandbox := b } }) fun _ _ => rfl,
    switch "BROWSERSERVE_STEALTH" (fun c => c.chrome.stealth)
      (fun b c => { c with chrome := { c.chrome with stealth := b } }) fun _ _ => rfl,
    switch "BROWSERSERVE_PROXY" (fun c => c.proxy.enabled)
      (fun b c => { c with proxy := { c.proxy with enabled := b } }) fun _ _ => rfl,
    switch "BROWSERSERVE_PROXY_ALLOW_PRIVATE" (fun c => c.proxy.allowPrivateUpstream)
      (fun b c => { c with proxy := { c.proxy with allowPrivateUpstream := b } }) fun _ _ => rfl,
    switch "BROWSERSERVE_CALIBRATE" (fun c => c.pool.calibrate)
      (fun b c => { c with pool := { c.pool with calibrate := b } }) fun _ _ => rfl,
    switch "BROWSERSERVE_SINGLE_USE" (fun c => c.session.singleUse)
      (fun b c => { c with session := { c.session with singleUse := b } }) fun _ _ => rfl]

/-- The settings that single-use implies. -/
def singleUseImplied (config : RuntimeConfig) : RuntimeConfig :=
  if config.session.singleUse then
    { config with pool := { config.pool with maxSessions := some 1, calibrate := false } }
  else config

def applySwitches (env : Env) (config : RuntimeConfig) : Except ConfigError RuntimeConfig :=
  (Override.applyAll env SWITCHES config).map singleUseImplied

def readYaml (fromYaml : Text → Except String RuntimeConfig) (yaml : Option Text) :
    Except ConfigError RuntimeConfig :=
  match yaml with
  | none => .ok .default
  | some yaml =>
    if trim yaml = [] then .ok .default
    else (fromYaml yaml).mapError .yaml

/-- A port is not trimmed. -/
def readPort (env : Env) : Except ConfigError Nat :=
  match env "PORT" with
  | none => .ok 9222
  | some value =>
    match parseUnsigned 16 value with
    | some port => .ok port
    | none => .error (.badPort value)

/-- A refusal of the checks that are made of a whole configuration. -/
def refused (checked : Except String α) : Except ConfigError α :=
  checked.mapError fun reason => .invalid reason none

def load (fromYaml : Text → Except String RuntimeConfig) (yaml : Option Text) (env : Env) :
    Except ConfigError Loaded := do
  let config ← readYaml fromYaml yaml
  let config ← Override.applyAll env VARIABLES config
  let config ← applySwitches env config
  let port ← readPort env
  let token ← refused (readToken (env "BROWSERSERVE_TOKEN"))
  let loaded : Loaded := ⟨config, ⟨port, (env "HOST").getD (text "0.0.0.0"), token⟩⟩
  refused (validate (loaded.settings 0))
  pure loaded

/-- The file that is read: one that is named, by an argument or else by a variable, or one in the
working directory. -/
def configPath (fileExists : Text → Bool) (env : Env) (explicitPath : Option Text) : Option Text :=
  explicitPath <|> env "BROWSERSERVE_CONFIG" <|>
    if fileExists (text "browserserve.yml") then some (text "browserserve.yml") else none

def loadFromEnv (fileExists : Text → Bool) (readToString : Text → Except String Text)
    (fromYaml : Text → Except String RuntimeConfig) (env : Env) (explicitPath : Option Text) :
    Except ConfigError Loaded :=
  match configPath fileExists env explicitPath with
  | none => load fromYaml none env
  | some path => do
    let yaml ← (readToString path).mapError (.read path)
    load fromYaml (some yaml) env

/-- The settings that no variable overrides. -/
def RuntimeConfig.fileOnly (c : RuntimeConfig) :=
  ((c.pool.warmIdleMs, c.pool.warmMaxAgeMs),
    (c.session.tmpfsSizeMb, c.session.killGraceMs), c.pressure,
    (c.chrome.transport, c.chrome.extraFlags, c.chrome.launchTimeoutMs, c.chrome.maxFrameBytes),
    c.drainTimeoutMs, c.externalAddress)

/-- What a configuration is to be, from what is in the file and in the environment. -/
structure Layered (env : Env) (file : RuntimeConfig) (loaded : Loaded) : Prop where
  reads : ∀ o ∈ VARIABLES ++ SWITCHES, o.Reads env
  holds : ∀ o ∈ VARIABLES ++ SWITCHES, loaded.config.session.singleUse = false ∨
    (o.key ≠ "BROWSERSERVE_MAX_SESSIONS" ∧ o.key ≠ "BROWSERSERVE_CALIBRATE") →
      o.Holds env file loaded.config
  singleUse : loaded.config.session.singleUse = true →
    loaded.config.pool.maxSessions = some 1 ∧ loaded.config.pool.calibrate = false
  fileOnly : loaded.config.fileOnly = file.fileOnly
  port : readPort env = .ok loaded.serve.port
  host : loaded.serve.host = (env "HOST").getD (text "0.0.0.0")
  token : loaded.serve.token = env "BROWSERSERVE_TOKEN"
  tokenNonblank : ∀ token, loaded.serve.token = some token → trim token ≠ []
  valid : (loaded.settings 0).Valid

variable {env : Env} {config file : RuntimeConfig}

theorem settings_apart : (VARIABLES ++ SWITCHES).Pairwise Override.Apart := by
  unfold VARIABLES SWITCHES
  simp only [List.cons_append, List.nil_append, List.pairwise_cons, List.forall_mem_cons]
  and_intros
  all_goals first
    | exact ⟨fun _ _ => rfl, fun _ _ => rfl⟩
    | exact fun _ h => absurd h List.not_mem_nil
    | exact List.Pairwise.nil

/-- A configuration is its settings and the rest of its file. -/
theorem eq_of_settings {c d : RuntimeConfig}
    (hsettings : ∀ o ∈ VARIABLES ++ SWITCHES, o.get c = o.get d)
    (hfile : c.fileOnly = d.fileOnly) : c = d := by
  unfold VARIABLES SWITCHES at hsettings
  simp only [List.cons_append, List.nil_append, List.forall_mem_cons, integer, switch] at hsettings
  obtain ⟨_, _, _, _, _, _, _, _, _, _, _, _, _, _, _, _, _, _, _⟩ := hsettings
  simp only [RuntimeConfig.fileOnly, Prod.mk.injEq] at hfile
  obtain ⟨pool, session, pressure, chrome, proxy⟩ := c
  obtain ⟨pool', session', pressure', chrome', proxy'⟩ := d
  cases pool
  cases session
  cases chrome
  cases proxy
  cases pool'
  cases session'
  cases chrome'
  cases proxy'
  simp_all

theorem singleUseImplied_holds {o : Variable} (ho : o ∈ VARIABLES ++ SWITCHES)
    (hkey : config.session.singleUse = false ∨
      (o.key ≠ "BROWSERSERVE_MAX_SESSIONS" ∧ o.key ≠ "BROWSERSERVE_CALIBRATE")) :
    o.get (singleUseImplied config) = o.get config := by
  unfold singleUseImplied
  cases hsingle : config.session.singleUse with
  | false => rfl
  | true =>
    rw [hsingle] at hkey
    have hnames := hkey.resolve_left Bool.noConfusion
    clear hkey
    revert hnames
    revert o
    unfold VARIABLES SWITCHES
    simp only [List.cons_append, List.nil_append, List.forall_mem_cons, integer, switch]
    and_intros
    all_goals first
      | exact fun _ => rfl
      | exact fun h => absurd rfl h.1
      | exact fun h => absurd rfl h.2
      | exact fun _ h => absurd h List.not_mem_nil

theorem singleUseImplied_singleUse :
    (singleUseImplied config).session.singleUse = config.session.singleUse := by
  unfold singleUseImplied
  split <;> rfl

theorem singleUseImplied_fileOnly : (singleUseImplied config).fileOnly = config.fileOnly := by
  unfold singleUseImplied
  split <;> rfl

theorem bind_ok {x : Except ε α} {f : α → Except ε β} :
    (x >>= f) = .ok b ↔ ∃ a, x = .ok a ∧ f a = .ok b := by
  cases x with
  | error e =>
    constructor
    · intro h
      cases h
    · rintro ⟨a, h, hf⟩
      cases h
  | ok a =>
    constructor
    · exact fun h => ⟨a, rfl, h⟩
    · rintro ⟨a', h, hf⟩
      cases h
      exact hf

theorem refused_ok {checked : Except String α} {a : α} :
    refused checked = .ok a ↔ checked = .ok a := by
  constructor
  · intro h
    cases checked with
    | error e => cases h
    | ok a' =>
      cases h
      rfl
  · intro h
    rw [h]
    rfl

theorem readToken_ok {value token : Option Text} :
    readToken value = .ok token ↔ token = value ∧ ∀ t, token = some t → trim t ≠ [] := by
  unfold readToken
  cases value with
  | none =>
    constructor
    · intro h
      cases h
      exact ⟨rfl, fun t ht => absurd ht (Option.some_ne_none t).symm⟩
    · rintro ⟨rfl, h⟩
      rfl
  | some t =>
    by_cases hblank : trim t = []
    · rw [if_pos (by simpa using hblank)]
      constructor
      · intro h
        cases h
      · rintro ⟨rfl, h⟩
        exact absurd hblank (h t rfl)
    · rw [if_neg (by simpa using hblank)]
      constructor
      · intro h
        cases h
        exact ⟨rfl, fun t' ht' => Option.some.inj ht' ▸ hblank⟩
      · rintro ⟨rfl, h⟩
        rfl

/-- The switches and what they imply come after the values. -/
theorem applySwitches_ok {c : RuntimeConfig} :
    (∃ a, Override.applyAll env VARIABLES file = .ok a ∧ applySwitches env a = .ok c) ↔
      ∃ layered, Override.applyAll env (VARIABLES ++ SWITCHES) file = .ok layered ∧
        c = singleUseImplied layered := by
  rw [Override.applyAll_append]
  simp only [bind_ok, applySwitches]
  constructor
  · rintro ⟨a, hvalues, hswitches⟩
    cases hlayered : Override.applyAll env SWITCHES a with
    | error e =>
      rw [hlayered] at hswitches
      cases hswitches
    | ok layered =>
      rw [hlayered] at hswitches
      cases hswitches
      exact ⟨layered, ⟨a, hvalues, hlayered⟩, rfl⟩
  · rintro ⟨layered, ⟨a, hvalues, hlayered⟩, rfl⟩
    refine ⟨a, hvalues, ?_⟩
    rw [hlayered]
    rfl

/-- What `load` does once the file is read. -/
def Steps (env : Env) (file : RuntimeConfig) (loaded : Loaded) : Prop :=
  ∃ layered, Override.applyAll env (VARIABLES ++ SWITCHES) file = .ok layered ∧
    loaded.config = singleUseImplied layered ∧ readPort env = .ok loaded.serve.port ∧
    loaded.serve.host = (env "HOST").getD (text "0.0.0.0") ∧
    readToken (env "BROWSERSERVE_TOKEN") = .ok loaded.serve.token ∧
    (loaded.settings 0).Valid

theorem load_steps {yaml : Option Text} {loaded : Loaded} :
    load fromYaml yaml env = .ok loaded ↔
      ∃ file, readYaml fromYaml yaml = .ok file ∧ Steps env file loaded := by
  unfold load
  simp only [bind_ok, refused_ok]
  constructor
  · rintro ⟨file, hfile, a, hvalues, config, hswitches, port, hport, token, htoken, u, hvalid, h⟩
    cases h
    obtain ⟨layered, hlayered, rfl⟩ := applySwitches_ok.1 ⟨a, hvalues, hswitches⟩
    exact ⟨file, hfile, layered, hlayered, rfl, hport, rfl, htoken, validate_ok_iff.1 hvalid⟩
  · rintro ⟨file, hfile, layered, hlayered, hconfig, hport, hhost, htoken, hvalid⟩
    obtain ⟨config, port, host, token⟩ := loaded
    obtain ⟨a, hvalues, hswitches⟩ := applySwitches_ok.2 ⟨layered, hlayered, hconfig⟩
    cases hhost
    exact ⟨file, hfile, a, hvalues, config, hswitches, port, hport, token, htoken, (),
      validate_ok_iff.2 hvalid, rfl⟩

theorem fileOnly_set : ∀ o ∈ VARIABLES ++ SWITCHES, ∀ a c,
    RuntimeConfig.fileOnly (o.set a c) = c.fileOnly := by
  unfold VARIABLES SWITCHES
  simp only [List.cons_append, List.nil_append, List.forall_mem_cons, integer, switch]
  and_intros
  all_goals first
    | exact fun _ _ => rfl
    | exact fun _ h => absurd h List.not_mem_nil

/-- The two settings that single use decides, and the rest. -/
theorem decided_or {c d : RuntimeConfig} (hsessions : c.pool.maxSessions = d.pool.maxSessions)
    (hcalibrate : c.pool.calibrate = d.pool.calibrate) : ∀ o ∈ VARIABLES ++ SWITCHES,
      (o.key ≠ "BROWSERSERVE_MAX_SESSIONS" ∧ o.key ≠ "BROWSERSERVE_CALIBRATE") ∨
        o.get c = o.get d := by
  unfold VARIABLES SWITCHES
  simp only [List.cons_append, List.nil_append, List.forall_mem_cons, integer, switch]
  and_intros
  all_goals first
    | exact .inl ⟨by decide, by decide⟩
    | exact .inr hsessions
    | exact .inr hcalibrate
    | exact fun _ h => absurd h List.not_mem_nil

theorem singleUse_mem : ∃ o ∈ VARIABLES ++ SWITCHES, o.key ≠ "BROWSERSERVE_MAX_SESSIONS" ∧
    o.key ≠ "BROWSERSERVE_CALIBRATE" ∧
      ∀ c d, o.get c = o.get d → c.session.singleUse = d.session.singleUse :=
  ⟨_, List.mem_append_right _ (List.mem_of_getLast? rfl), by decide, by decide, fun _ _ h => h⟩

/-- What a configuration is to be is one configuration. -/
theorem Layered.config_eq {loaded : Loaded} {layered : RuntimeConfig} (h : Layered env file loaded)
    (hholds : ∀ o ∈ VARIABLES ++ SWITCHES, o.Holds env file layered)
    (hfile : layered.fileOnly = file.fileOnly) : loaded.config = singleUseImplied layered := by
  obtain ⟨single, hmem, hsessions, hcalibrate, hget⟩ := singleUse_mem
  have hsingle : loaded.config.session.singleUse = layered.session.singleUse :=
    hget _ _ ((h.holds single hmem (.inr ⟨hsessions, hcalibrate⟩)).unique (hholds single hmem))
  have hother : ∀ o ∈ VARIABLES ++ SWITCHES, (layered.session.singleUse = false ∨
      (o.key ≠ "BROWSERSERVE_MAX_SESSIONS" ∧ o.key ≠ "BROWSERSERVE_CALIBRATE")) →
        o.get loaded.config = o.get (singleUseImplied layered) := by
    intro o ho hkey
    rw [singleUseImplied_holds ho hkey]
    rw [← hsingle] at hkey
    exact (h.holds o ho hkey).unique (hholds o ho)
  refine eq_of_settings (fun o ho => ?_) ?_
  · cases hcase : layered.session.singleUse with
    | false => exact hother o ho (.inl hcase)
    | true =>
      obtain ⟨hone, hoff⟩ := h.singleUse (hsingle.trans hcase)
      have himplied : singleUseImplied layered =
          { layered with pool :=
            { layered.pool with maxSessions := some 1, calibrate := false } } :=
        if_pos hcase
      rcases decided_or (c := loaded.config) (d := singleUseImplied layered)
        (by rw [hone, himplied]) (by rw [hoff, himplied]) o ho with hkey | heq
      · exact hother o ho (.inr hkey)
      · exact heq
  · rw [h.fileOnly, singleUseImplied_fileOnly, hfile]

theorem steps_layered {loaded : Loaded} : Steps env file loaded ↔ Layered env file loaded := by
  constructor
  · rintro ⟨layered, hlayered, hconfig, hport, hhost, htoken, hvalid⟩
    obtain ⟨htoken, hnonblank⟩ := readToken_ok.1 htoken
    have hholds := Override.applyAll_holds settings_apart hlayered
    have hsingle : loaded.config.session.singleUse = layered.session.singleUse := by
      rw [hconfig]
      exact singleUseImplied_singleUse
    refine ⟨fun o ho => (hholds o ho).reads, fun o ho hkey => ?_, fun h => ?_, ?_, hport, hhost,
      htoken, hnonblank, hvalid⟩
    · rw [hsingle] at hkey
      have hget : o.get loaded.config = o.get layered := by
        rw [hconfig]
        exact singleUseImplied_holds ho hkey
      have hheld := hholds o ho
      unfold Override.Holds at hheld ⊢
      rw [hget]
      exact hheld
    · rw [hsingle] at h
      rw [hconfig, singleUseImplied, if_pos h]
      exact ⟨rfl, rfl⟩
    · rw [hconfig, singleUseImplied_fileOnly]
      exact Override.applyAll_keeps fileOnly_set hlayered
  · intro h
    obtain ⟨layered, hlayered⟩ := Override.applyAll_ok_iff.2 h.reads
    have hholds := Override.applyAll_holds settings_apart hlayered
    have hfile := Override.applyAll_keeps fileOnly_set hlayered
    exact ⟨layered, hlayered, h.config_eq hholds hfile, h.port, h.host,
      readToken_ok.2 ⟨h.token, h.tokenNonblank⟩, h.valid⟩

/-- A configuration is loaded exactly when everything that is set can be read and what it all
comes to passes the checks: a setting is what its variable says or else what the file says, but
for the two that single use decides. -/
theorem load_ok_iff {yaml : Option Text} {loaded : Loaded} :
    load fromYaml yaml env = .ok loaded ↔
      ∃ file, readYaml fromYaml yaml = .ok file ∧ Layered env file loaded := by
  rw [load_steps]
  exact exists_congr fun file => and_congr_right fun _ => steps_layered

/-- The text that is read for a configuration, or that there is none. -/
def ReadsConfig (readToString : Text → Except String Text) (path yaml : Option Text) : Prop :=
  match path with
  | none => yaml = none
  | some path => ∃ found, readToString path = .ok found ∧ yaml = some found

/-- The same of a configuration whose file is looked for: one that is there has to be readable. -/
theorem loadFromEnv_ok_iff {fileExists : Text → Bool} {readToString : Text → Except String Text}
    {explicitPath : Option Text} {loaded : Loaded} :
    loadFromEnv fileExists readToString fromYaml env explicitPath = .ok loaded ↔
      ∃ yaml file, ReadsConfig readToString (configPath fileExists env explicitPath) yaml ∧
        readYaml fromYaml yaml = .ok file ∧ Layered env file loaded := by
  unfold loadFromEnv
  cases configPath fileExists env explicitPath with
  | none =>
    simp only [load_steps, steps_layered]
    constructor
    · rintro ⟨file, hfile, hlayered⟩
      exact ⟨none, file, rfl, hfile, hlayered⟩
    · rintro ⟨yaml, file, rfl, hfile, hlayered⟩
      exact ⟨file, hfile, hlayered⟩
  | some path =>
    simp only [bind_ok, load_steps, steps_layered]
    constructor
    · rintro ⟨yaml, hread, file, hfile, hlayered⟩
      cases htext : readToString path with
      | error e =>
        rw [htext] at hread
        cases hread
      | ok found =>
        rw [htext] at hread
        cases hread
        exact ⟨some yaml, file, ⟨yaml, htext, rfl⟩, hfile, hlayered⟩
    · rintro ⟨yaml, file, ⟨found, htext, rfl⟩, hfile, hlayered⟩
      refine ⟨found, ?_, file, hfile, hlayered⟩
      rw [htext]
      rfl

end BrowserServe.Config
