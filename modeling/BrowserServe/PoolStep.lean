import BrowserServe.PoolState
import BrowserServe.Library.Transition

namespace BrowserServe
open Library
set_option autoImplicit true

/-- What makes one claim move: its task runs, the launch answers, or its owner lets go. -/
inductive ClaimEvent where
  | run
  | launchOk
  | launchErr (message : String)
  | destroy
  | dropWaiter
  | dropLaunch
  | dropClaimed
  | dropDestroy
  deriving DecidableEq

/-- One atomic section of claim `i`: `acquire_slot`, then `claim` or `claim_with`, then the
life of the `Claimed` up to the end of its destroy. -/
inductive ClaimStep (options : PoolOptions) (i : Nat) (kind : ClaimKind) :
    Inner → ClaimPhase → ClaimEvent → Inner → ClaimPhase → Prop
  | tryAcquireOk (h : p.semaphore.tryAcquire = .ok semaphore) :
      ClaimStep options i kind p .start .run { p with semaphore } .holding
  | tryAcquireClosed (h : p.semaphore.tryAcquire = .error .closed) :
      ClaimStep options i kind p .start .run p (.failed .closed)
  | tryAcquireNoPermits (h : p.semaphore.tryAcquire = .error .noPermits) :
      ClaimStep options i kind p .start .run p .noPermits
  | fetchAdd :
      ClaimStep options i kind p .noPermits .run { p with waiting := p.waiting + 1 }
        (.counted (p.waiting + 1))
  | queueFull (h : options.maxQueue < queued) :
      ClaimStep options i kind p (.counted queued) .run p
        (.leaving (.refused (.queueFull options.maxQueue)))
  | acquireOk (hq : queued ≤ options.maxQueue) (h : p.semaphore.tryAcquire = .ok semaphore) :
      ClaimStep options i kind p (.counted queued) .run { p with semaphore } (.leaving .admitted)
  | acquireClosed (hq : queued ≤ options.maxQueue)
      (h : p.semaphore.tryAcquire = .error .closed) :
      ClaimStep options i kind p (.counted queued) .run p (.leaving (.refused .closed))
  | acquirePending (hq : queued ≤ options.maxQueue)
      (h : p.semaphore.tryAcquire = .error .noPermits) :
      ClaimStep options i kind p (.counted queued) .run
        { p with semaphore := p.semaphore.enqueue i } (.waiting p.now)
  | granted (ho : p.semaphore.closed = false) (h : i ∈ p.semaphore.granted) :
      ClaimStep options i kind p (.waiting started) .run
        { p with semaphore := p.semaphore.take i } (.leaving .admitted)
  | closedWaiting (h : p.semaphore.closed = true) :
      ClaimStep options i kind p (.waiting started) .run
        { p with semaphore := p.semaphore.cancel i } (.leaving (.refused .closed))
  | timedOut (h : started + options.queueTimeout ≤ p.now) :
      ClaimStep options i kind p (.waiting started) .run
        { p with semaphore := p.semaphore.cancel i }
        (.leaving (.refused (.queueTimeout (p.now - started))))
  | admitted :
      ClaimStep options i kind p (.leaving .admitted) .run { p with waiting := p.waiting - 1 }
        .holding
  | refused :
      ClaimStep options i kind p (.leaving (.refused e)) .run { p with waiting := p.waiting - 1 }
        (.failed e)
  | uncounted :
      ClaimStep options i kind p (.leaving .dropped) .run { p with waiting := p.waiting - 1 }
        .cancelled
  | popWarm (hk : kind = .claim) (h : p.warm = entry :: rest) :
      ClaimStep options i kind p .holding .run { p with warm := rest } (.popped entry)
  | noWarm (hk : kind = .claim) (h : p.warm = []) :
      ClaimStep options i kind p .holding .run p .launching
  | launchDedicated (hk : kind = .claimWith) :
      ClaimStep options i kind p .holding .run p .launching
  | warmAlive (h : p.isAlive entry.session = true) :
      ClaimStep options i kind p (.popped entry) .run
        { p with handedOut := entry.session :: p.handedOut } (.claimed entry.session)
  | warmDead (h : p.isAlive entry.session = false) :
      ClaimStep options i kind p (.popped entry) .run
        { p with spawned := entry.session :: p.spawned } .holding
  | launchOk :
      ClaimStep options i kind p .launching .launchOk
        { p with created := p.created + 1, handedOut := p.created :: p.handedOut }
        (.claimed p.created)
  | launchErr :
      ClaimStep options i kind p .launching (.launchErr message)
        { p with semaphore := p.semaphore.release } (.failed (.launch message))
  | destroy :
      ClaimStep options i kind p (.claimed session) .destroy
        { p with destroyCalls := session :: p.destroyCalls } (.destroying session false)
  | destroySpawned :
      ClaimStep options i kind p (.orphaned session) .run
        { p with destroyCalls := session :: p.destroyCalls } (.destroying session true)
  | destroyed :
      ClaimStep options i kind p (.destroying session background) .run p .releasing
  | addPermit :
      ClaimStep options i kind p .releasing .run { p with semaphore := p.semaphore.release }
        .finished
  | dropUnpolled :
      ClaimStep options i kind p .start .dropWaiter p .cancelled
  | dropWaiting :
      ClaimStep options i kind p (.waiting started) .dropWaiter
        { p with semaphore := p.semaphore.cancel i } (.leaving .dropped)
  | dropLaunching :
      ClaimStep options i kind p .launching .dropLaunch p .cancelled
  | dropClaimed :
      ClaimStep options i kind p (.claimed session) .dropClaimed p (.orphaned session)
  | dropDestroying :
      ClaimStep options i kind p (.destroying session false) .dropDestroy p
        (.abandoned session)

/-- One atomic section of the replenisher, `cull_warm` included. -/
inductive ReplenisherStep (options : PoolOptions) :
    Inner → Replenisher → Inner → Replenisher → Prop
  | closed (h : p.semaphore.closed = true) : ReplenisherStep options p .top p .returned
  | opened (h : p.semaphore.closed = false) : ReplenisherStep options p .top p .culling
  | readClock : ReplenisherStep options p .culling p (.locking p.now)
  | cull (h : cullWarm options now p.isAlive p.warm = (kept, removed)) :
      ReplenisherStep options p (.locking now) { p with warm := kept } (.expired removed)
  | destroyExpired :
      ReplenisherStep options p (.expired (session :: rest))
        { p with destroyCalls := session :: p.destroyCalls } (.destroyingExpired rest)
  | destroyedExpired : ReplenisherStep options p (.destroyingExpired rest) p (.expired rest)
  | readWarm : ReplenisherStep options p (.expired []) p (.sawWarm p.warm.length)
  | readLaunching :
      ReplenisherStep options p (.sawWarm warm) p (.sawLaunching warm p.launching)
  | readMax :
      ReplenisherStep options p (.sawLaunching warm launching) p
        (.sawMax warm launching p.maxSessions)
  | noneWanted
      (h : Replenisher.wantedLaunches options warm launching maxSessions p.semaphore.permits = 0) :
      ReplenisherStep options p (.sawMax warm launching maxSessions) p .idle
  | someWanted
      (h : Replenisher.wantedLaunches options warm launching maxSessions p.semaphore.permits ≠ 0) :
      ReplenisherStep options p (.sawMax warm launching maxSessions) p .wanted
  | woken : ReplenisherStep options p .idle p .top
  | beginLaunch :
      ReplenisherStep options p .wanted { p with launching := p.launching + 1 } .creating
  | createOk :
      ReplenisherStep options p .creating { p with created := p.created + 1 }
        (.created (.ok p.created))
  | createErr : ReplenisherStep options p .creating p (.created (.error message))
  | launchedOk :
      ReplenisherStep options p (.created (.ok session))
        { p with launching := p.launching - 1 } (.launched session)
  | launchedErr :
      ReplenisherStep options p (.created (.error message))
        { p with launching := p.launching - 1 } .backoff
  | stillOpen (h : p.semaphore.closed = false) :
      ReplenisherStep options p (.launched session) p (.pushing session)
  | closedMeanwhile (h : p.semaphore.closed = true) :
      ReplenisherStep options p (.launched session)
        { p with destroyCalls := session :: p.destroyCalls } .destroyingLast
  | push :
      ReplenisherStep options p (.pushing session)
        { p with warm := p.warm ++ [⟨session, p.now⟩] } .top
  | retry : ReplenisherStep options p .backoff p .top
  | destroyedLast : ReplenisherStep options p .destroyingLast p .returned

inductive Action where
  | spawn (kind : ClaimKind)
  | claim (i : Nat) (e : ClaimEvent)
  | replenish
  | close
  | drain
  | startCleanup (session : Session)
  | finishCleanup (session : Session)
  | swapMax (target : Nat)
  | adjustPermits
  | tick
  | crash (session : Session)

/-- The two halves of `set_max_sessions` after its swap: grow the semaphore or shrink it. -/
def Inner.adjustPermits (previous target : Nat) (p : Inner) : Inner :=
  if previous < target then
    { p with semaphore := p.semaphore.addPermits (target - previous) }
  else { p with semaphore := p.semaphore.forgetPermits (previous - target) }

/-- One step of the whole pool: some task runs one atomic section, or time or a browser
moves by itself. -/
inductive Pool.Step (options : PoolOptions) : Pool → Action → Pool → Prop
  | spawn : Step options s (.spawn kind) { s with claims := s.claims ++ [⟨kind, .start⟩] }
  | claim (hc : s.claims[i]? = some c)
      (h : ClaimStep options i c.kind s.inner c.phase e p phase) :
      Step options s (.claim i e)
        { s with inner := p, claims := s.claims.set i ⟨c.kind, phase⟩ }
  | replenish (h : ReplenisherStep options s.inner s.replenisher p r) :
      Step options s .replenish { s with inner := p, replenisher := r }
  | close :
      Step options s .close
        { s with
          inner := { s.inner with semaphore := s.inner.semaphore.close }
          closing := s.closing + 1 }
  | drain (h : s.closing = n + 1) :
      Step options s .drain
        { s with
          inner := { s.inner with
            warm := []
            spawned := s.inner.warm.map Warm.session ++ s.inner.spawned }
          closing := n }
  | startCleanup (h : session ∈ s.inner.spawned) :
      Step options s (.startCleanup session)
        { s with inner := { s.inner with
            spawned := s.inner.spawned.erase session
            destroying := session :: s.inner.destroying
            destroyCalls := session :: s.inner.destroyCalls } }
  | finishCleanup (h : session ∈ s.inner.destroying) :
      Step options s (.finishCleanup session)
        { s with inner := { s.inner with
            destroying := s.inner.destroying.erase session } }
  | swapMax (h : s.resizing = none) :
      Step options s (.swapMax target)
        { s with
          inner := { s.inner with maxSessions := max target 1 }
          resizing := some (s.inner.maxSessions, max target 1) }
  | adjustPermits (h : s.resizing = some (previous, target)) :
      Step options s .adjustPermits
        { s with inner := s.inner.adjustPermits previous target, resizing := none }
  | tick : Step options s .tick { s with inner := { s.inner with now := s.inner.now + 1 } }
  | crash :
      Step options s (.crash session)
        { s with inner := { s.inner with
            isAlive := fun x => if x = session then false else s.inner.isAlive x } }

def Pool.system (options : PoolOptions) : System Pool Action where
  init s := s = .new options
  step := Pool.Step options

end BrowserServe
