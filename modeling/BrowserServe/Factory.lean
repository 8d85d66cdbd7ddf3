import BrowserServe.ChromeLaunch
import BrowserServe.Config
import BrowserServe.Library.Program
import BrowserServe.Manifest

namespace BrowserServe
open Library
set_option autoImplicit true

/-- `Path::join` of a path that is not absolute. -/
def joinDir (base name : Text) : Text :=
  if base = [] ∨ base.getLast? = some '/' then base ++ name else base ++ '/' :: name

structure SessionDirs where
  root : Text
  userDataDir : Text
  deriving DecidableEq

def SessionDirs.new (dataDir id : Text) : SessionDirs :=
  let root := joinDir (joinDir dataDir (text "sessions")) id
  ⟨root, joinDir root (text "user-data-dir")⟩

structure SessionFootprint where
  bytes : Nat
  threads : Nat

structure AbortHandle where
  task : Nat
  deriving DecidableEq

/-- The local port that a session's browser sends its traffic to. -/
structure Relay where
  port : Nat

def Relay.proxyServer (relay : Relay) : Text :=
  text "http://127.0.0.1:" ++ text (toString relay.port)

inductive RemoveError where
  | notFound
  | other (error : String)
  deriving DecidableEq

/-- What the factory asks of its host: the disk, the cgroup tree, the launches, the tasks it
spawns, and the cells it shares with its clones. A removal comes with the number of its attempt. -/
inductive FactoryOp where
  | newId
  | templateDir
  | setTemplateDir (template : Text)
  | noteVersion (version : Chrome.BrowserVersion)
  | setFootprint (footprint : SessionFootprint)
  | sandboxDisabled
  | disableSandbox
  | blockSandbox
  | leafEnterBlocked
  | blockLeafEnter
  | nextLeafSeq
  | createDirAll (dirs : SessionDirs)
  | cloneTemplate (template : Text) (dirs : SessionDirs)
  | extractInto (entries : List ManifestEntry) (userDataDir : Text)
  | removeDirAll (root : Text) (attempt : Nat)
  | sleep (ms : Nat)
  | launch (spec : Chrome.LaunchSpec)
  | createLeaf (leaf : Text)
  | setMemoryMax (leaf : Text) (bytes : Nat)
  | setCpuPercent (leaf : Text) (percent : Nat)
  | setPidsMax (leaf : Text) (limit : Nat)
  | killLeaf (leaf : Text)
  | removeLeaf (leaf : Text) (attempt : Nat)
  | spawnMonitor (pid : Int) (cap : Nat)
  | treeRssBytes (pid : Int)
  | treeThreadCount (pid : Int)
  | teardownBrowser (pid : Int) (grace : Nat)
  | createParent (template : Text)
  | removeTemplate (template : Text)
  | stripForSeal (userDataDir : Text)
  | rename (userDataDir template : Text)

/-- What an operation answers; the answer of a blocking task is inside that of its handle. -/
@[reducible] def FactoryOp.Answer : FactoryOp → Type
  | newId => Text
  | templateDir => Option Text
  | sandboxDisabled | blockSandbox | leafEnterBlocked | blockLeafEnter => Bool
  | nextLeafSeq => Nat
  | createDirAll _ => Except String Unit
  | cloneTemplate _ _ => Except String (Except String Unit)
  | extractInto _ _ => Except String (Except String Nat)
  | removeDirAll _ _ => Except RemoveError Unit
  | launch _ => Except Chrome.LaunchError Chrome.Browser
  | createLeaf _ | setMemoryMax _ _ | setCpuPercent _ _ | setPidsMax _ _ => Except String Unit
  | killLeaf _ | removeLeaf _ _ => Bool
  | spawnMonitor _ _ => AbortHandle
  | treeRssBytes _ | treeThreadCount _ => Option Nat
  | stripForSeal _ | rename _ _ => Bool
  | _ => Unit

abbrev FactoryM : Type → Type := Program FactoryOp FactoryOp.Answer

def ask (op : FactoryOp) : FactoryM op.Answer := Program.ask op

/-- What a launch is refused for, of which the message is made. -/
inductive CreateError where
  | provision (error : String)
  | seed (error : String)
  | seedTask (error : String)
  | launch (error : Chrome.LaunchError) (hint : Option Text)

structure ChromeSession where
  browser : Chrome.Browser
  dirs : SessionDirs
  cgroup : Option Text
  monitor : Option AbortHandle
  relay : Option Relay

/-- What a factory is made with and keeps. Without the cgroup tier there is no `cgroupBase`. -/
structure ChromeFactory where
  executable : Text
  configNoSandbox : Bool
  requireSandbox : Bool
  disableDevShm : Bool
  extraFlags : List Text
  launchTimeout : Nat
  maxFrameBytes : Nat
  killGrace : Nat
  memoryMaxBytes : Nat
  cpuPercent : Nat
  pidsMax : Nat
  dataDir : Text
  cgroupBase : Option Text
  processId : Nat

/-- The host's part: the executable with its version, whether `/dev/shm` is small, the base of
the cgroup tier, and the process. -/
structure FactoryHost where
  executable : Text
  major : Option Nat
  smallDevShm : Bool
  cgroupBase : Option Text
  processId : Nat

def ChromeFactory.new (config : LoadedConfig) (host : FactoryHost) : ChromeFactory where
  executable := host.executable
  configNoSandbox := config.noSandbox
  requireSandbox := config.requireSandbox
  disableDevShm := host.smallDevShm
  extraFlags := Chrome.launchExtraFlags config.stealth host.major config.extraFlags
  launchTimeout := config.launchTimeoutMs
  maxFrameBytes := config.maxFrameBytes
  killGrace := config.killGraceMs
  memoryMaxBytes := min (config.memoryMaxMb * (1024 * 1024)) (2 ^ 64 - 1)
  cpuPercent := config.cpuPercent
  pidsMax := config.pidsMax
  dataDir := config.dataDir
  cgroupBase := host.cgroupBase
  processId := host.processId

/-- A host without the cgroup tier, on which the version could not be read. -/
def FactoryHost.plain : FactoryHost := ⟨text "/usr/bin/chrome", none, false, none, 1⟩

def ATTEMPTS : Nat := 5
def REMOVE_ATTEMPTS : Nat := 4

namespace SessionDirs

def provisionPlain (dataDir id : Text) : FactoryM (Except String SessionDirs) := do
  let dirs := SessionDirs.new dataDir id
  match ← ask (.createDirAll dirs) with
  | .error e => pure (.error e)
  | .ok () => pure (.ok dirs)

/-- The attempts that are left of `teardown`. -/
def teardownFrom (dirs : SessionDirs) (lastErr : Option RemoveError) :
    List Nat → FactoryM (Except RemoveError Unit)
  | [] => pure (lastErr.elim (.ok ()) .error)
  | attempt :: attempts => do
    match ← ask (.removeDirAll dirs.root attempt) with
    | .ok () => pure (.ok ())
    | .error .notFound => pure (.ok ())
    | .error e =>
      if attempt < ATTEMPTS then
        let _ ← ask (.sleep (100 * attempt))
        dirs.teardownFrom (some e) attempts
      else dirs.teardownFrom (some e) attempts

def teardown (dirs : SessionDirs) : FactoryM (Except RemoveError Unit) :=
  dirs.teardownFrom none (List.range' 1 ATTEMPTS)

end SessionDirs

/-- The attempts that are left of `kill_and_remove`. -/
def removeLeafFrom (leaf : Text) : List Nat → FactoryM Unit
  | [] => pure ()
  | attempt :: attempts => do
    if ← ask (.removeLeaf leaf attempt) then pure ()
    else if attempt < REMOVE_ATTEMPTS then
      let _ ← ask (.sleep (100 * attempt))
      removeLeafFrom leaf attempts
    else removeLeafFrom leaf attempts

def killAndRemove (leaf : Text) : FactoryM Bool := do
  let usedKill ← ask (.killLeaf leaf)
  removeLeafFrom leaf (List.range' 1 REMOVE_ATTEMPTS)
  pure usedKill

def destroyCgroup (cgroup : Option Text) : FactoryM Unit :=
  match cgroup with
  | some leaf => do
    let _ ← killAndRemove leaf
    pure ()
  | none => pure ()

/-- The operations that remove a session's directory or its leaf. -/
def FactoryOp.removes : FactoryOp → Bool
  | removeDirAll _ _ | sleep _ | killLeaf _ | removeLeaf _ _ => true
  | _ => false

section
variable {allowed : FactoryOp → Prop} {told : (op : FactoryOp) → op.Answer → Prop}

theorem SessionDirs.teardownFrom_asks (dirs : SessionDirs) (lastErr : Option RemoveError)
    (attempts : List Nat) (h : ∀ op, FactoryOp.removes op = true → allowed op) :
    (dirs.teardownFrom lastErr attempts).Asks allowed told := by
  induction attempts generalizing lastErr with
  | nil => exact Program.asks_pure
  | cons attempt attempts ih =>
    apply Program.asks_bind (Program.asks_ask (h _ rfl))
    intro answer
    cases answer with
    | ok _ => exact Program.asks_pure
    | error e =>
      cases e with
      | notFound => exact Program.asks_pure
      | other e =>
        dsimp only
        split
        · exact Program.asks_bind (Program.asks_ask (h _ rfl)) fun _ => ih _
        · exact ih _

theorem SessionDirs.teardown_asks (dirs : SessionDirs)
    (h : ∀ op, FactoryOp.removes op = true → allowed op) : dirs.teardown.Asks allowed told :=
  dirs.teardownFrom_asks none _ h

theorem removeLeafFrom_asks (leaf : Text) (attempts : List Nat)
    (h : ∀ op, FactoryOp.removes op = true → allowed op) :
    (removeLeafFrom leaf attempts).Asks allowed told := by
  induction attempts with
  | nil => exact Program.asks_pure
  | cons attempt attempts ih =>
    apply Program.asks_bind (Program.asks_ask (h _ rfl))
    intro removed
    cases removed with
    | true => exact Program.asks_pure
    | false =>
      split
      · exact Program.asks_pure
      · split
        · exact Program.asks_bind (Program.asks_ask (h _ rfl)) fun _ => ih
        · exact ih

theorem destroyCgroup_asks (cgroup : Option Text)
    (h : ∀ op, FactoryOp.removes op = true → allowed op) :
    (destroyCgroup cgroup).Asks allowed told := by
  cases cgroup with
  | none => exact Program.asks_pure
  | some leaf =>
    apply Program.asks_bind
    · apply Program.asks_bind (Program.asks_ask (h _ rfl))
      intro _
      exact Program.asks_bind (removeLeafFrom_asks leaf _ h) fun _ => Program.asks_pure
    · intro _
      exact Program.asks_pure

end

def cgroupEnterFailed (launched : Except Chrome.LaunchError Chrome.Browser) : Bool :=
  match launched with
  | .ok _ => false
  | .error e => e.isCgroupEnterFailure

/-- A limit of zero is none; a write that fails is only logged. -/
def writeLimit (limit : Nat) (write : FactoryM (Except String Unit)) : FactoryM Unit :=
  if 0 < limit then do
    let _ ← write
    pure ()
  else pure ()

namespace ChromeFactory
variable (f : ChromeFactory)

def launchSpec (userDataDir : Text) (cgroupLeaf : Option Text) (extraFlags : List Text) :
    FactoryM Chrome.LaunchSpec := do
  let noSandbox ← ask .sandboxDisabled
  pure ⟨f.executable, userDataDir, noSandbox, f.disableDevShm, extraFlags, f.launchTimeout,
    f.maxFrameBytes, cgroupLeaf⟩

def launchBrowser (userDataDir : Text) (cgroupLeaf : Option Text) (extraFlags : List Text) :
    FactoryM (Except Chrome.LaunchError Chrome.Browser) := do
  let disabled ← ask .sandboxDisabled
  let spec ← f.launchSpec userDataDir cgroupLeaf extraFlags
  match ← ask (.launch spec) with
  | .ok browser => pure (.ok browser)
  | .error e =>
    if !disabled ∧ e.isSandboxFailure then
      let _ ← ask .blockSandbox
      if f.requireSandbox then pure (.error e)
      else
        ask .disableSandbox
        let spec ← f.launchSpec userDataDir cgroupLeaf extraFlags
        ask (.launch spec)
    else pure (.error e)

/-- The template is cloned, and a plain directory made where that fails. -/
def provisionDirs : FactoryM (Except String SessionDirs) := do
  let id ← ask .newId
  match ← ask .templateDir with
  | some template =>
    let dirs := SessionDirs.new f.dataDir id
    match ← ask (.cloneTemplate template dirs) with
    | .ok (.ok ()) => pure (.ok dirs)
    | _ => SessionDirs.provisionPlain f.dataDir id
  | none => SessionDirs.provisionPlain f.dataDir id

def limitLeaf (leaf : Text) : FactoryM Unit := do
  writeLimit f.memoryMaxBytes (ask (.setMemoryMax leaf f.memoryMaxBytes))
  writeLimit f.cpuPercent (ask (.setCpuPercent leaf f.cpuPercent))
  writeLimit f.pidsMax (ask (.setPidsMax leaf f.pidsMax))

def newLeaf (base : Text) (seq : Nat) : Text :=
  joinDir base (text s!"session-{f.processId}-{seq}")

def prepareLeaf : FactoryM (Option Text) := do
  if ← ask .leafEnterBlocked then pure none
  else
    match f.cgroupBase with
    | none => pure none
    | some base =>
      let seq ← ask .nextLeafSeq
      let leaf := f.newLeaf base seq
      match ← ask (.createLeaf leaf) with
      | .error _ => pure none
      | .ok () =>
        f.limitLeaf leaf
        pure (some leaf)

def spawnSoftCap (hasCgroup : Bool) (pid : Int) : FactoryM (Option AbortHandle) :=
  if f.memoryMaxBytes = 0 ∨ hasCgroup then pure none
  else do
    let handle ← ask (.spawnMonitor pid f.memoryMaxBytes)
    pure (some handle)

/-- The leaf that the browser could not join is given up, and it is launched without one. -/
def retryWithoutLeaf (dirs : SessionDirs) (extraFlags : List Text) (cgroup : Option Text)
    (launched : Except Chrome.LaunchError Chrome.Browser) :
    FactoryM (Option Text × Except Chrome.LaunchError Chrome.Browser) :=
  if cgroup.isSome ∧ cgroupEnterFailed launched then do
    let _ ← ask .blockLeafEnter
    destroyCgroup cgroup
    let launched ← f.launchBrowser dirs.userDataDir none extraFlags
    pure (none, launched)
  else pure (cgroup, launched)

def finishLaunch (dirs : SessionDirs) (relay : Option Relay) (cgroup : Option Text)
    (launched : Except Chrome.LaunchError Chrome.Browser) :
    FactoryM (Except CreateError ChromeSession) :=
  match launched with
  | .ok browser => do
    ask (.noteVersion browser.version)
    let monitor ← f.spawnSoftCap cgroup.isSome browser.pid
    pure (.ok ⟨browser, dirs, cgroup, monitor, relay⟩)
  | .error e => do
    destroyCgroup cgroup
    let _ ← dirs.teardown
    pure (.error (.launch e e.remediation))

def sessionFlags (relay : Option Relay) : List Text :=
  f.extraFlags ++ relay.elim [] fun relay => Chrome.sessionProxyFlags relay.proxyServer

def launchSession (dirs : SessionDirs) (relay : Option Relay) :
    FactoryM (Except CreateError ChromeSession) := do
  let extraFlags := f.sessionFlags relay
  let cgroup ← f.prepareLeaf
  let launched ← f.launchBrowser dirs.userDataDir cgroup extraFlags
  let (cgroup, launched) ← f.retryWithoutLeaf dirs extraFlags cgroup launched
  f.finishLaunch dirs relay cgroup launched

/-- What is done with new directories, if there are any. -/
def withDirs (run : SessionDirs → FactoryM (Except CreateError ChromeSession)) :
    FactoryM (Except CreateError ChromeSession) := do
  match ← f.provisionDirs with
  | .error e => pure (.error (.provision e))
  | .ok dirs => run dirs

def create : FactoryM (Except CreateError ChromeSession) :=
  f.withDirs fun dirs => f.launchSession dirs none

def createSeeded (indexeddb : List ManifestEntry) (relay : Option Relay) :
    FactoryM (Except CreateError ChromeSession) :=
  f.withDirs fun dirs =>
    if indexeddb.isEmpty then f.launchSession dirs relay
    else do
      match ← ask (.extractInto indexeddb dirs.userDataDir) with
      | .ok (.ok _) => f.launchSession dirs relay
      | .ok (.error e) =>
        let _ ← dirs.teardown
        pure (.error (.seed e))
      | .error e =>
        let _ ← dirs.teardown
        pure (.error (.seedTask e))

def createProxied (relay : Relay) : FactoryM (Except CreateError ChromeSession) :=
  f.withDirs fun dirs => f.launchSession dirs (some relay)

end ChromeFactory

def browserKey (version : Chrome.BrowserVersion) : Text :=
  let dashed := (text version.product).map fun c => if c = '/' then '-' else c
  let product := dashed.filter fun c => c.isAlphanum || c = '.' || c = '-'
  if product = [] then text "chrome-unknown" else toAsciiLowercase product

def templatePath (dataDir browserKey : Text) : Text :=
  joinDir (joinDir dataDir (text "templates")) browserKey

namespace ChromeFactory
variable (f : ChromeFactory)

def measureFootprint (pid : Int) : FactoryM Unit := do
  let bytes ← ask (.treeRssBytes pid)
  let threads ← ask (.treeThreadCount pid)
  let measured : SessionFootprint := ⟨bytes.getD 0, threads.getD 0⟩
  if 0 < measured.bytes ∨ 0 < measured.threads then ask (.setFootprint measured) else pure ()

def moveTemplate (userDataDir template : Text) : FactoryM Bool := do
  if ← ask (.stripForSeal userDataDir) then ask (.rename userDataDir template) else pure false

def keepTemplate (moved : Bool) (template : Text) : FactoryM Unit :=
  if moved then ask (.setTemplateDir template) else pure ()

/-- `prepare_template` from where its browser is launched. -/
def sealTemplate (scratch : SessionDirs) (browser : Chrome.Browser) : FactoryM Unit := do
  let key := browserKey browser.version
  ask (.noteVersion browser.version)
  measureFootprint browser.pid
  ask (.teardownBrowser browser.pid f.killGrace)
  let template := templatePath f.dataDir key
  ask (.createParent template)
  ask (.removeTemplate template)
  let moved ← moveTemplate scratch.userDataDir template
  keepTemplate moved template
  let _ ← scratch.teardown
  pure ()

def prepareTemplate : FactoryM Unit := do
  match ← ask .templateDir with
  | some _ => pure ()
  | none =>
    let id ← ask .newId
    match ← SessionDirs.provisionPlain f.dataDir id with
    | .error _ => pure ()
    | .ok scratch =>
      match ← f.launchBrowser scratch.userDataDir none f.extraFlags with
      | .error _ =>
        let _ ← scratch.teardown
        pure ()
      | .ok browser => f.sealTemplate scratch browser

end ChromeFactory

/-- The operations that launch a browser, and fall back for one that has no sandbox. -/
def FactoryOp.launches : FactoryOp → Bool
  | sandboxDisabled | disableSandbox | blockSandbox | launch _ => true
  | _ => false

/-- The operations that limit a leaf. -/
def FactoryOp.limits : FactoryOp → Bool
  | setMemoryMax _ _ | setCpuPercent _ _ | setPidsMax _ _ => true
  | _ => false

section
variable {f : ChromeFactory} {allowed : FactoryOp → Prop}
  {told : (op : FactoryOp) → op.Answer → Prop}

theorem writeLimit_asks {limit : Nat} {write : FactoryM (Except String Unit)}
    (h : write.Asks allowed told) : (writeLimit limit write).Asks allowed told := by
  unfold writeLimit
  split
  · exact Program.asks_bind h fun _ => Program.asks_pure
  · exact Program.asks_pure

theorem ChromeFactory.limitLeaf_asks (leaf : Text)
    (h : ∀ op, FactoryOp.limits op = true → allowed op) : (f.limitLeaf leaf).Asks allowed told := by
  apply Program.asks_bind (writeLimit_asks (Program.asks_ask (h _ rfl)))
  intro _
  apply Program.asks_bind (writeLimit_asks (Program.asks_ask (h _ rfl)))
  intro _
  exact writeLimit_asks (Program.asks_ask (h _ rfl))

theorem ChromeFactory.launchSpec_asks {userDataDir : Text} {cgroup : Option Text}
    {extraFlags : List Text} (h : ∀ op, FactoryOp.launches op = true → allowed op) :
    (f.launchSpec userDataDir cgroup extraFlags).Asks allowed told :=
  Program.asks_bind (Program.asks_ask (h _ rfl)) fun _ => Program.asks_pure

theorem ChromeFactory.launchBrowser_asks {userDataDir : Text} {cgroup : Option Text}
    {extraFlags : List Text} (h : ∀ op, FactoryOp.launches op = true → allowed op) :
    (f.launchBrowser userDataDir cgroup extraFlags).Asks allowed told := by
  apply Program.asks_bind (Program.asks_ask (h _ rfl))
  intro disabled
  apply Program.asks_bind (launchSpec_asks h)
  intro spec
  apply Program.asks_bind (Program.asks_ask (h _ rfl))
  intro launched
  cases launched with
  | ok browser => exact Program.asks_pure
  | error e =>
    dsimp only
    split
    · apply Program.asks_bind (Program.asks_ask (h _ rfl))
      intro _
      split
      · exact Program.asks_pure
      · apply Program.asks_bind (Program.asks_ask (h _ rfl))
        intro _
        apply Program.asks_bind (launchSpec_asks h)
        intro again
        exact Program.asks_ask (h _ rfl)
    · exact Program.asks_pure

end

end BrowserServe
