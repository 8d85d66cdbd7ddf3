import BrowserServe.Factory

namespace BrowserServe
open Library
set_option autoImplicit true

/-- An operation with its answer, or that the call was dropped, and the session directories and
leaves there are after it. -/
inductive SessionEvent where
  | answered (op : FactoryOp) (answer : op.Answer) (roots leaves : List Text)
  | dropped (roots leaves : List Text)

/-- What one call makes on its host: its session directory, its leaf with the limit that
`memory.max` holds, and the monitor it spawns. -/
structure SessionHost where
  roots : List Text
  leaves : List Text
  memoryMax : List (Text × Nat)
  monitors : List (AbortHandle × Int × Nat)
  log : List SessionEvent

def SessionHost.new : SessionHost := ⟨[], [], [], [], []⟩

/-- The operations that change nothing of it. -/
def FactoryOp.idle : FactoryOp → Bool
  | createDirAll _ | cloneTemplate _ _ | removeDirAll _ _ | createLeaf _ | setMemoryMax _ _
  | removeLeaf _ _ | spawnMonitor _ _ => false
  | _ => true

namespace SessionHost

def addRoot (s : SessionHost) (root : Text) : SessionHost := { s with roots := s.roots.insert root }

/-- What an operation does. One that fails to make a directory may have begun it; the cells that
the factory's clones share may hold anything, and a launch may end in any way. -/
inductive Effect (s : SessionHost) : (op : FactoryOp) → op.Answer → SessionHost → Prop
  | dirMade : Effect s (.createDirAll dirs) (.ok ()) (s.addRoot dirs.root)
  | dirFailed : Effect s (.createDirAll dirs) (.error e) s
  | dirBegun : Effect s (.createDirAll dirs) (.error e) (s.addRoot dirs.root)
  | cloned : Effect s (.cloneTemplate template dirs) (.ok (.ok ())) (s.addRoot dirs.root)
  | cloneFailed (h : answer ≠ .ok (.ok ())) : Effect s (.cloneTemplate template dirs) answer s
  | cloneBegun (h : answer ≠ .ok (.ok ())) :
      Effect s (.cloneTemplate template dirs) answer (s.addRoot dirs.root)
  | removed : Effect s (.removeDirAll root attempt) (.ok ())
      { s with roots := s.roots.erase root }
  | notFound (h : root ∉ s.roots) : Effect s (.removeDirAll root attempt) (.error .notFound) s
  | notRemoved : Effect s (.removeDirAll root attempt) (.error (.other e)) s
  | leafMade : Effect s (.createLeaf leaf) (.ok ()) { s with leaves := s.leaves.insert leaf }
  | leafFailed : Effect s (.createLeaf leaf) (.error e) s
  | limited : Effect s (.setMemoryMax leaf bytes) (.ok ())
      { s with memoryMax := (leaf, bytes) :: s.memoryMax }
  | limitFailed : Effect s (.setMemoryMax leaf bytes) (.error e) s
  | leafRemoved : Effect s (.removeLeaf leaf attempt) true
      { s with leaves := s.leaves.erase leaf }
  | leafKept : Effect s (.removeLeaf leaf attempt) false s
  | monitored : Effect s (.spawnMonitor pid cap) handle
      { s with monitors := (handle, pid, cap) :: s.monitors }
  | idle (h : op.idle = true) : Effect s op answer s

def record (s : SessionHost) (op : FactoryOp) (answer : op.Answer) : SessionHost :=
  { s with log := s.log ++ [.answered op answer s.roots s.leaves] }

def recordDrop (s : SessionHost) : SessionHost :=
  { s with log := s.log ++ [.dropped s.roots s.leaves] }

end SessionHost

/-- The operations at which a call waits, where it may be dropped. -/
def FactoryOp.awaits : FactoryOp → Bool
  | createDirAll _ | cloneTemplate _ _ | extractInto _ _ | removeDirAll _ _ | sleep _
  | launch _ | teardownBrowser _ _ | createParent _ | removeTemplate _ | stripForSeal _
  | rename _ _ => true
  | _ => false

/-- The operations that a blocking thread does, which goes on when the call is dropped. -/
def FactoryOp.detached : FactoryOp → Bool
  | createDirAll _ | cloneTemplate _ _ | extractInto _ _ | removeDirAll _ _ | createParent _
  | removeTemplate _ | stripForSeal _ | rename _ _ => true
  | _ => false

/-- The host of one call. -/
def sessionHost : Host FactoryOp FactoryOp.Answer SessionHost where
  does s op answer t := ∃ u, s.Effect op answer u ∧ t = u.record op answer
  drops s op t := op.awaits = true ∧ ∃ u,
    (u = s ∨ op.detached = true ∧ ∃ answer, s.Effect op answer u) ∧ t = u.recordDrop

end BrowserServe
