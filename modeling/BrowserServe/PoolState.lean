import BrowserServe.Library.Semaphore

namespace BrowserServe
open Library
set_option autoImplicit true

/-- A launched browser, known to the pool by identity only. -/
abbrev Session := Nat

structure PoolOptions where
  minReady : Nat
  maxSessions : Nat
  maxQueue : Nat
  queueTimeout : Nat
  warmIdle : Nat
  warmMaxAge : Nat

inductive ClaimError where
  | queueFull (maxQueue : Nat)
  | queueTimeout (waited : Nat)
  | closed
  | launch (message : String)
  deriving DecidableEq

structure Warm where
  session : Session
  readyAt : Nat

/-- What the pool's tasks share, with the clock, the liveness of each browser and the
factory's supply of fresh sessions. `handedOut` and `destroyCalls` only record history. -/
structure Inner where
  semaphore : Semaphore Nat
  maxSessions : Nat
  warm : List Warm
  waiting : Nat
  launching : Nat
  now : Nat
  isAlive : Session → Bool
  created : Nat
  /-- Sessions a spawned task will pass to `factory.destroy`. -/
  spawned : List Session
  /-- Sessions a spawned task is inside `factory.destroy` with. -/
  destroying : List Session
  handedOut : List Session
  destroyCalls : List Session

/-- How a claim leaves the section that `CounterGuard` counts. -/
inductive QueueExit where
  | admitted
  | refused (e : ClaimError)
  | dropped

/-- Where a `claim` or `claim_with` future stands, and the `Claimed` it produced after it.
Only at `start`, `waiting`, `launching` and a `destroying` that is awaited can it be dropped. -/
inductive ClaimPhase where
  | start
  | noPermits
  | counted (queued : Nat)
  | waiting (started : Nat)
  | leaving (exit : QueueExit)
  | holding
  | popped (warm : Warm)
  | launching
  | claimed (session : Session)
  | orphaned (session : Session)
  | destroying (session : Session) (background : Bool)
  | releasing
  | finished
  | failed (e : ClaimError)
  | cancelled
  | abandoned (session : Session)

inductive ClaimKind where
  | claim
  | claimWith

structure Claim where
  kind : ClaimKind
  phase : ClaimPhase

/-- Where the replenisher's loop stands, with the values it has read in this round. -/
inductive Replenisher where
  | top
  | culling
  | locking (now : Nat)
  | expired (sessions : List Session)
  | destroyingExpired (rest : List Session)
  | sawWarm (warm : Nat)
  | sawLaunching (warm launching : Nat)
  | sawMax (warm launching maxSessions : Nat)
  | idle
  | wanted
  | creating
  | created (result : Except String Session)
  | launched (session : Session)
  | pushing (session : Session)
  | backoff
  | destroyingLast
  | returned

structure Pool where
  inner : Inner
  claims : List Claim
  replenisher : Replenisher
  /-- `Pool::close` calls that closed the semaphore and have yet to drain the warm stock. -/
  closing : Nat
  /-- A `set_max_sessions` between its swap and its permit adjustment: previous and target. -/
  resizing : Option (Nat × Nat)

def Inner.new (options : PoolOptions) : Inner where
  semaphore := .new options.maxSessions
  maxSessions := options.maxSessions
  warm := []
  waiting := 0
  launching := 0
  now := 0
  isAlive := fun _ => true
  created := 0
  spawned := []
  destroying := []
  handedOut := []
  destroyCalls := []

def Pool.new (options : PoolOptions) : Pool where
  inner := .new options
  claims := []
  replenisher := .top
  closing := 0
  resizing := none

/-- The loop of `cull_warm` under the lock: what stays, what is to be destroyed. -/
def cullLoop (options : PoolOptions) (now : Nat) (isAlive : Session → Bool) :
    List Warm → List Warm → List Session → List Warm × List Session
  | [], kept, removed => (kept, removed)
  | entry :: warm, kept, removed =>
    let age := now - entry.readyAt
    let dead := !isAlive entry.session
    let tooOld := decide (options.warmMaxAge ≤ age)
    let excessIdle := decide (options.minReady ≤ kept.length) && decide (options.warmIdle ≤ age)
    if dead || tooOld || excessIdle then
      cullLoop options now isAlive warm kept (removed ++ [entry.session])
    else cullLoop options now isAlive warm (kept ++ [entry]) removed

def cullWarm (options : PoolOptions) (now : Nat) (isAlive : Session → Bool)
    (warm : List Warm) : List Warm × List Session :=
  cullLoop options now isAlive warm [] []

/-- How many launches the replenisher still wants, from the four counters it has read. -/
def Replenisher.wantedLaunches (options : PoolOptions)
    (warm launching maxSessions available : Nat) : Nat :=
  let active := maxSessions - available
  let headroom := maxSessions - (active + warm + launching)
  min (options.minReady - (warm + launching)) headroom

end BrowserServe
