import BrowserServe.Library.Ownership
import BrowserServe.ProfileSession
import BrowserServe.LaunchCleanup

namespace BrowserServe
open Library
set_option autoImplicit true

/-- What the life of a session asks of its host, from before its launch to its end. -/
inductive LifeOp where
  | factory (op : FactoryOp)
  | startRelay
  | dropRelay (relay : Relay)
  | abortMonitor (monitor : AbortHandle)
  | serve (session : ChromeSession)
  | packNative (userDataDir : Text)

@[reducible] def LifeOp.Answer : LifeOp → Type
  | factory op => op.Answer
  | startRelay => Except String Relay
  | packNative _ => Except String CapturedNative
  | _ => Unit

abbrev LifeM : Type → Type := Program LifeOp LifeOp.Answer

def askLife (op : LifeOp) : LifeM op.Answer := Program.ask op

def FactoryM.lift : FactoryM α → LifeM α
  | .done a => .done a
  | .perform op resume => .perform (.factory op) fun answer => FactoryM.lift (resume answer)

namespace ChromeFactory
variable (f : ChromeFactory)

def abortMonitor : Option AbortHandle → LifeM Unit
  | some monitor => askLife (.abortMonitor monitor)
  | none => pure ()

def dropRelay : Option Relay → LifeM Unit
  | some relay => askLife (.dropRelay relay)
  | none => pure ()

def killSession (session : ChromeSession) : LifeM SessionDirs := do
  abortMonitor session.monitor
  FactoryM.lift (destroyCgroup session.cgroup)
  let _ ← askLife (.factory (.teardownBrowser session.browser.pid f.killGrace))
  dropRelay session.relay
  pure session.dirs

def destroy (session : ChromeSession) : LifeM Unit := do
  let dirs ← f.killSession session
  let _ ← FactoryM.lift dirs.teardown
  pure ()

def destroyCapturingNative (session : ChromeSession) : LifeM CapturedNative := do
  let udd := session.dirs.userDataDir
  let dirs ← f.killSession session
  let captured ← askLife (.packNative udd)
  let _ ← FactoryM.lift dirs.teardown
  pure (captured.toOption.getD ⟨[], []⟩)

end ChromeFactory

/-- The relay of a session that asks for a proxy. -/
def openRelay (proxied : Bool) : LifeM (Except String (Option Relay)) :=
  if proxied then do
    match ← askLife .startRelay with
    | .ok relay => pure (.ok (some relay))
    | .error e => pure (.error e)
  else pure (.ok none)

/-- What an instance runs browsers for: a session of the pool, one of a profile, which may have its
stores packed in the end, and the template. -/
inductive Life where
  | pooled (proxied : Bool)
  | profile (indexeddb : List ManifestEntry) (proxied capture : Bool)
  | template

def Life.call : Life → Option Relay → CreateCall
  | profile indexeddb _ _, relay => .createSeeded indexeddb relay
  | _, some relay => .createProxied relay
  | _, none => .create

def Life.proxied : Life → Bool
  | pooled proxied => proxied
  | profile _ proxied _ => proxied
  | template => false

def Life.finish (f : ChromeFactory) (session : ChromeSession) : Life → LifeM Unit
  | profile _ _ true => do
    let _ ← f.destroyCapturingNative session
    pure ()
  | _ => f.destroy session

/-- A launch that fails drops the relay it was given. -/
def Life.session (f : ChromeFactory) (life : Life) : LifeM Unit := do
  match ← openRelay life.proxied with
  | .error _ => pure ()
  | .ok relay =>
    match ← FactoryM.lift ((life.call relay).program f) with
    | .error _ => ChromeFactory.dropRelay relay
    | .ok session =>
      let _ ← askLife (.serve session)
      life.finish f session

def Life.program (f : ChromeFactory) : Life → LifeM Unit
  | template => FactoryM.lift f.prepareTemplate
  | life => life.session f

/-- What a session has of its host. -/
inductive Resource where
  | directory (root : Text)
  | leaf (leaf : Text)
  | browser (pid : Int)
  | monitor (handle : AbortHandle)
  | relay (port : Nat)
  deriving DecidableEq

/-- What a host keeps: the names it has given out, the resources that are there, those that it was
asked in vain to give up, and the directories that it was asked for and could not make in full. -/
inductive Thing where
  | name (id : Text)
  | seq (n : Nat)
  | there (resource : Resource)
  | refused (resource : Resource)
  | begun (resource : Resource)
  deriving DecidableEq

/-- What a resource is known by: its directory's id, its leaf's number, or the resource itself. -/
def Resource.anchor (f : ChromeFactory) : Resource → Thing → Prop
  | directory root, k => ∃ id, k = .name id ∧ root = (SessionDirs.new f.dataDir id).root
  | leaf l, k => ∃ base n, f.cgroupBase = some base ∧ k = .seq n ∧ l = f.newLeaf base n
  | resource, k => k = .there resource

def Thing.anchor (f : ChromeFactory) : Thing → Thing → Prop
  | there resource, k => resource.anchor f k
  | refused resource, k => resource.anchor f k
  | begun resource, k => resource.anchor f k
  | name id, k => k = .name id
  | seq n, k => k = .seq n

/-- A `Uuid` as it is written. -/
structure IsUuid (id : Text) : Prop where
  length : id.length = 36
  chars : ∀ c ∈ id, c.isAlphanum ∨ c = '-'

/-- The operations that neither make a resource nor give one up. -/
def FactoryOp.settled : FactoryOp → Bool
  | newId | nextLeafSeq | createDirAll _ | cloneTemplate _ _ | removeDirAll _ _ | createLeaf _
  | removeLeaf _ _ | launch _ | teardownBrowser _ _ | spawnMonitor _ _ => false
  | _ => true

/-- Without a resource, nor a mark that it was refused or only begun. -/
def gone (x : Resource) (held : Finset Thing) : Finset Thing :=
  ((held.erase (.there x)).erase (.begun x)).erase (.refused x)

/-- What an operation of the factory does to the things of its host. A directory that is asked for
may come to be there although the call fails. A launch that fails leaves no browser; one that does
not gives it a process id that no browser has which is there. -/
inductive FactoryEffect (held : Finset Thing) : (op : FactoryOp) → op.Answer → Finset Thing → Prop
  | newId {id : Text} (huuid : IsUuid id) (hfresh : .name id ∉ held) :
      FactoryEffect held .newId id (insert (.name id) held)
  | nextSeq : FactoryEffect held .nextLeafSeq n (insert (.seq n) held)
  | dirMade : FactoryEffect held (.createDirAll dirs) (.ok ())
      (insert (.there (.directory dirs.root)) held)
  | dirFailed (h : .there (.directory dirs.root) ∉ held) :
      FactoryEffect held (.createDirAll dirs) (.error e) held
  | dirBegun : FactoryEffect held (.createDirAll dirs) (.error e)
      (insert (.begun (.directory dirs.root)) (insert (.there (.directory dirs.root)) held))
  | cloned : FactoryEffect held (.cloneTemplate template dirs) (.ok (.ok ()))
      (insert (.there (.directory dirs.root)) held)
  | cloneFailed (h : answer ≠ .ok (.ok ())) :
      FactoryEffect held (.cloneTemplate template dirs) answer held
  | cloneBegun (h : answer ≠ .ok (.ok ())) :
      FactoryEffect held (.cloneTemplate template dirs) answer
      (insert (.there (.directory dirs.root)) held)
  | removed : FactoryEffect held (.removeDirAll root attempt) (.ok ()) (gone (.directory root) held)
  | notFound (h : .there (.directory root) ∉ held) :
      FactoryEffect held (.removeDirAll root attempt) (.error .notFound) held
  | notRemoved (h : attempt < ATTEMPTS) :
      FactoryEffect held (.removeDirAll root attempt) (.error (.other e)) held
  | neverRemoved : FactoryEffect held (.removeDirAll root ATTEMPTS) (.error (.other e))
      (insert (.refused (.directory root)) held)
  | leafMade : FactoryEffect held (.createLeaf leaf) (.ok ()) (insert (.there (.leaf leaf)) held)
  | leafFailed : FactoryEffect held (.createLeaf leaf) (.error e) held
  | leafRemoved : FactoryEffect held (.removeLeaf leaf attempt) true (gone (.leaf leaf) held)
  | leafNotRemoved (h : attempt < REMOVE_ATTEMPTS) :
      FactoryEffect held (.removeLeaf leaf attempt) false held
  | leafNeverRemoved : FactoryEffect held (.removeLeaf leaf REMOVE_ATTEMPTS) false
      (insert (.refused (.leaf leaf)) held)
  | launched (hfresh : .there (.browser browser.pid) ∉ held) :
      FactoryEffect held (.launch spec) (.ok browser) (insert (.there (.browser browser.pid)) held)
  | launchFailed : FactoryEffect held (.launch spec) (.error e) held
  | reaped : FactoryEffect held (.teardownBrowser pid grace) () (gone (.browser pid) held)
  | notReaped : FactoryEffect held (.teardownBrowser pid grace) ()
      (insert (.refused (.browser pid)) held)
  | monitored (hfresh : .there (.monitor handle) ∉ held) :
      FactoryEffect held (.spawnMonitor pid cap) handle (insert (.there (.monitor handle)) held)
  | settled (h : op.settled = true) : FactoryEffect held op answer held

inductive LifeEffect (held : Finset Thing) : (op : LifeOp) → op.Answer → Finset Thing → Prop
  | factory (h : FactoryEffect held op answer t) : LifeEffect held (.factory op) answer t
  | relayStarted (hfresh : .there (.relay relay.port) ∉ held) :
      LifeEffect held .startRelay (.ok relay) (insert (.there (.relay relay.port)) held)
  | relayFailed : LifeEffect held .startRelay (.error e) held
  | relayDropped : LifeEffect held (.dropRelay relay) () (gone (.relay relay.port) held)
  | aborted : LifeEffect held (.abortMonitor monitor) () (gone (.monitor monitor) held)
  | served : LifeEffect held (.serve session) () held
  | packed : LifeEffect held (.packNative userDataDir) answer held

/-- The host that one life sees: its own things. -/
def factoryHost : Host FactoryOp FactoryOp.Answer (Finset Thing) where
  does r op answer r' := FactoryEffect r op answer r'
  drops _ _ _ := False

def lifeHost : Host LifeOp LifeOp.Answer (Finset Thing) where
  does r op answer r' := LifeEffect r op answer r'
  drops _ _ _ := False

/-- The host that all lives share, with the counter that numbers their leaves. -/
structure InstanceHost where
  held : Finset Thing
  leafSeq : Nat

def InstanceHost.Counts (s t : InstanceHost) : (op : LifeOp) → op.Answer → Prop
  | .factory .nextLeafSeq, n => n = s.leafSeq ∧ t.leafSeq = s.leafSeq + 1
  | _, _ => t.leafSeq = s.leafSeq

/-- Lives are not dropped: each is a task of its own. -/
def instanceHost : Host LifeOp LifeOp.Answer InstanceHost where
  does s op answer t := LifeEffect s.held op answer t.held ∧ s.Counts t op answer
  drops _ _ _ := False

/-- Any number of lives, side by side. -/
def ChromeFactory.living (f : ChromeFactory) :
    System (Calls LifeOp LifeOp.Answer Unit InstanceHost) Nat :=
  Calls.system instanceHost (fun p => ∃ life : Life, p = life.program f) fun s => s = ⟨∅, 0⟩

/-- What an operation names of a session: its directories, leaf, process, monitor, relay. -/
inductive Name where
  | root (dir : Text)
  | userDataDir (dir : Text)
  | leaf (leaf : Text)
  | process (pid : Int)
  | monitor (handle : AbortHandle)
  | relay (port : Nat)
  deriving DecidableEq

/-- What an operation names that is a session's. The template, which the lives of an instance share,
is none of it. -/
def FactoryOp.names : FactoryOp → List Name
  | createDirAll dirs | cloneTemplate _ dirs => [.root dirs.root, .userDataDir dirs.userDataDir]
  | extractInto _ dir | stripForSeal dir | rename dir _ => [.userDataDir dir]
  | removeDirAll root _ => [.root root]
  | launch spec => .userDataDir spec.userDataDir :: spec.cgroupLeaf.toList.map .leaf
  | createLeaf leaf | setMemoryMax leaf _ | setCpuPercent leaf _ | setPidsMax leaf _
  | killLeaf leaf | removeLeaf leaf _ => [.leaf leaf]
  | spawnMonitor pid _ | treeRssBytes pid | treeThreadCount pid | teardownBrowser pid _ =>
    [.process pid]
  | _ => []

def LifeOp.names : LifeOp → List Name
  | factory op => op.names
  | startRelay => []
  | dropRelay relay => [.relay relay.port]
  | abortMonitor monitor => [.monitor monitor]
  | serve session => [.process session.browser.pid, .userDataDir session.dirs.userDataDir]
  | packNative userDataDir => [.userDataDir userDataDir]

/-- A name is a life's own when it is made of one that the life was given. -/
def Name.Own (f : ChromeFactory) (r : Finset Thing) : Name → Prop
  | root dir => ∃ id, .name id ∈ r ∧ dir = (SessionDirs.new f.dataDir id).root
  | userDataDir dir => ∃ id, .name id ∈ r ∧ dir = (SessionDirs.new f.dataDir id).userDataDir
  | leaf l => ∃ base n, f.cgroupBase = some base ∧ .seq n ∈ r ∧ l = f.newLeaf base n
  | process pid => .there (.browser pid) ∈ r
  | monitor handle => .there (.monitor handle) ∈ r
  | relay port => .there (.relay port) ∈ r

end BrowserServe
