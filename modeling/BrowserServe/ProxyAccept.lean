import BrowserServe.Library.IpRange
import BrowserServe.Library.Progress
import BrowserServe.Library.Semaphore
import BrowserServe.Library.Tasks

namespace BrowserServe
open Library
set_option autoImplicit true

def isLoopback : IpAddr → Bool
  | .v4 a _ _ _ => IpAddr.isLoopbackV4 a
  | .v6 segments => IpAddr.isLoopbackV6 segments

/-- Where `accept_loop` stands: in its `select!`, with the peer it accepted, with a permit for
it as well, or returned, its listener closed. -/
inductive AcceptLoop where
  | selecting
  | accepted (peer : IpAddr)
  | permitted (peer : IpAddr)
  | returned

/-- Where the task of a connection stands: inside `serve`, its socket closed and its permit
still held, or over. -/
inductive ConnectionPhase where
  | serving
  | leaving
  | gone
  deriving DecidableEq

structure RelayConnection where
  peer : IpAddr
  phase : ConnectionPhase

/-- The listener of one `Relay` and the connections it has accepted. -/
structure RelayListener where
  loop : AcceptLoop
  slots : Semaphore Nat
  cancelled : Bool
  connections : List RelayConnection

def RelayListener.new (max : Nat) : RelayListener where
  loop := .selecting
  slots := .new max
  cancelled := false
  connections := []

inductive RelayAction where
  | drop
  | stop
  | accept (peer : IpAddr)
  | acceptErr
  | turnAway
  | permit
  | spawn
  | finish (i : Nat)
  | cut (i : Nat)
  | leave (i : Nat)

/-- One section of the accept loop or of a connection's task, or the `Relay` dropped. Each
`select!` takes any of its branches that is ready. -/
inductive RelayListener.Step : RelayListener → RelayAction → RelayListener → Prop
  | drop (h : s.cancelled = false) : Step s .drop { s with cancelled := true }
  | stop (hl : s.loop = .selecting) (h : s.cancelled = true) :
      Step s .stop { s with loop := .returned }
  | accept (hl : s.loop = .selecting) : Step s (.accept peer) { s with loop := .accepted peer }
  | acceptErr (hl : s.loop = .selecting) : Step s .acceptErr s
  | foreign (hl : s.loop = .accepted peer) (h : isLoopback peer = false) :
      Step s .turnAway { s with loop := .selecting }
  | full (hl : s.loop = .accepted peer) (hp : isLoopback peer = true)
      (h : s.slots.tryAcquire = .error e) : Step s .turnAway { s with loop := .selecting }
  | permit (hl : s.loop = .accepted peer) (hp : isLoopback peer = true)
      (h : s.slots.tryAcquire = .ok slots') :
      Step s .permit { s with loop := .permitted peer, slots := slots' }
  | spawn (hl : s.loop = .permitted peer) :
      Step s .spawn
        { s with loop := .selecting, connections := s.connections ++ [⟨peer, .serving⟩] }
  | finish (hc : s.connections[i]? = some ⟨peer, .serving⟩) :
      Step s (.finish i) { s with connections := s.connections.set i ⟨peer, .leaving⟩ }
  | cut (hc : s.connections[i]? = some ⟨peer, .serving⟩) (h : s.cancelled = true) :
      Step s (.cut i) { s with connections := s.connections.set i ⟨peer, .leaving⟩ }
  | leave (hc : s.connections[i]? = some ⟨peer, .leaving⟩) :
      Step s (.leave i)
        { s with
          slots := s.slots.release
          connections := s.connections.set i ⟨peer, .gone⟩ }

def RelayListener.system (max : Nat) : System RelayListener RelayAction where
  init s := s = .new max
  step := RelayListener.Step

variable {max : Nat}

/-- A slot that is in use. -/
@[simp] def ConnectionPhase.slot : ConnectionPhase → Nat
  | .serving | .leaving => 1
  | .gone => 0

@[simp] def AcceptLoop.slot : AcceptLoop → Nat
  | .permitted _ => 1
  | _ => 0

def RelayListener.inUse (s : RelayListener) : Nat :=
  s.loop.slot + total (fun c => c.phase.slot) s.connections

/-- The connections that are being served. -/
def RelayListener.open (s : RelayListener) : Nat :=
  total (fun c => if c.phase = .serving then 1 else 0) s.connections

/-- The relay's slots are free or in use, nobody waits for one, and those in use serve the own
host. -/
structure RelayListener.Sound (max : Nat) (s : RelayListener) : Prop where
  unqueued : s.slots = ⟨s.slots.permits, [], [], false⟩
  counted : s.slots.permits + s.inUse = max
  permitted : ∀ peer, s.loop = .permitted peer → isLoopback peer = true
  peers : ∀ c ∈ s.connections, isLoopback c.peer = true

theorem RelayListener.Sound.moved {s : RelayListener} (hs : s.Sound max)
    (hloop : loop'.slot = s.loop.slot) (hpermitted : ∀ peer, loop' ≠ .permitted peer) :
    RelayListener.Sound max { s with loop := loop' } := by
  refine ⟨hs.unqueued, ?_, fun peer hl => absurd hl (hpermitted peer), hs.peers⟩
  rw [← hs.counted]
  simp only [inUse, hloop]

theorem RelayListener.Sound.connection {s : RelayListener} (hs : s.Sound max)
    (hc : s.connections[i]? = some ⟨peer, phase⟩) :
    ∀ c ∈ s.connections.set i ⟨peer, phase'⟩, isLoopback c.peer = true := by
  have hpeer : isLoopback peer = true := hs.peers _ (List.mem_of_getElem? hc)
  exact forall_mem_set hpeer hs.peers

theorem RelayListener.Step.sound (h : RelayListener.Step s a t) (hs : s.Sound max) :
    t.Sound max := by
  have hcounted := hs.counted
  cases h with
  | drop => exact ⟨hs.unqueued, hs.counted, hs.permitted, hs.peers⟩
  | acceptErr => exact hs
  | stop hl => exact hs.moved (by rw [hl]; rfl) fun _ hp => (nomatch hp)
  | accept hl => exact hs.moved (by rw [hl]; rfl) fun _ hp => (nomatch hp)
  | foreign hl => exact hs.moved (by rw [hl]; rfl) fun _ hp => (nomatch hp)
  | full hl => exact hs.moved (by rw [hl]; rfl) fun _ hp => (nomatch hp)
  | permit hl hp h =>
    obtain ⟨_, hfree, rfl⟩ := Semaphore.tryAcquire_ok h
    refine ⟨?_, ?_, fun peer hl => ?_, hs.peers⟩
    · rw [hs.unqueued]
    · simp only [inUse, hl, AcceptLoop.slot] at hcounted ⊢
      omega
    · cases hl
      exact hp
  | spawn hl =>
    refine ⟨hs.unqueued, ?_, fun _ hl => (nomatch hl), ?_⟩
    · simp only [inUse, hl, AcceptLoop.slot, total_append, total_cons, total_nil,
        ConnectionPhase.slot] at hcounted ⊢
      omega
    · exact forall_mem_append_single (hs.permitted _ hl) hs.peers
  | @finish _ i peer hc =>
    have hset := total_set (fun c : RelayConnection => c.phase.slot) hc ⟨peer, .leaving⟩
    refine ⟨hs.unqueued, ?_, hs.permitted, hs.connection hc⟩
    simp only [inUse, ConnectionPhase.slot] at hcounted hset ⊢
    omega
  | @cut _ i peer hc =>
    have hset := total_set (fun c : RelayConnection => c.phase.slot) hc ⟨peer, .leaving⟩
    refine ⟨hs.unqueued, ?_, hs.permitted, hs.connection hc⟩
    simp only [inUse, ConnectionPhase.slot] at hcounted hset ⊢
    omega
  | @leave _ i peer hc =>
    have hset := total_set (fun c : RelayConnection => c.phase.slot) hc ⟨peer, .gone⟩
    have hrelease : s.slots.release = ⟨s.slots.permits + 1, [], [], false⟩ := by
      rw [hs.unqueued]
      rfl
    refine ⟨?_, ?_, hs.permitted, hs.connection hc⟩
    · simp only [hrelease]
    · simp only [inUse, ConnectionPhase.slot, hrelease] at hcounted hset ⊢
      omega

theorem RelayListener.sound (h : (RelayListener.system max).Reachable s) : s.Sound max := by
  apply h.invariant ?_ fun _ _ _ _ hs hst => hst.sound hs
  intro _ hinit
  cases hinit
  exact ⟨rfl, rfl, fun _ hl => (nomatch hl), fun _ hc => (nomatch hc)⟩

theorem RelayListener.Sound.full_iff {s : RelayListener} (hs : s.Sound max) :
    (∃ e, s.slots.tryAcquire = .error e) ↔ s.inUse = max := by
  have hcounted := hs.counted
  rw [hs.unqueued, Semaphore.tryAcquire, if_neg Bool.false_ne_true]
  split
  · rename_i hfull
    exact iff_of_true ⟨_, rfl⟩ (by simp only at hfull; omega)
  · rename_i hfree
    refine iff_of_false (fun ⟨e, he⟩ => nomatch he) ?_
    simp only at hfree
    omega

theorem RelayListener.open_le_inUse (s : RelayListener) : s.open ≤ s.inUse := by
  have hle := total_le s.connections (v := fun c => if c.phase = .serving then 1 else 0)
    (w := fun c => c.phase.slot) fun c => by cases c.phase <;> simp
  unfold RelayListener.open inUse
  omega

/-- In every state of a relay no more than `max` connections are served, each of them from a
loopback address, and a connection it accepted is turned away exactly if it comes from another
host or all the slots are in use. -/
theorem relay_serves_at_most_max (h : (RelayListener.system max).Reachable s) :
    s.open ≤ max ∧ s.slots.permits + s.inUse = max ∧
      (∀ c ∈ s.connections, isLoopback c.peer = true) ∧
      ∀ peer, s.loop = .accepted peer →
        ((∃ t, (RelayListener.system max).step s .turnAway t) ↔
          isLoopback peer = false ∨ s.inUse = max) ∧
        ((∃ t, (RelayListener.system max).step s .permit t) ↔
          isLoopback peer = true ∧ s.inUse < max) := by
  have hs := RelayListener.sound h
  have hcounted := hs.counted
  have hopen := s.open_le_inUse
  refine ⟨by omega, hcounted, hs.peers, fun peer hl => ⟨?_, ?_⟩⟩
  · constructor
    · rintro ⟨t, hst⟩
      cases hst with
      | foreign hl' h =>
        cases hl.symm.trans hl'
        exact .inl h
      | full _ _ h => exact .inr (hs.full_iff.1 ⟨_, h⟩)
    · intro hwhy
      cases hp : isLoopback peer with
      | false => exact ⟨_, .foreign hl hp⟩
      | true =>
        obtain ⟨e, he⟩ := hs.full_iff.2 (hwhy.resolve_left (by simp [hp]))
        exact ⟨_, .full hl hp he⟩
  · constructor
    · rintro ⟨t, hst⟩
      cases hst with
      | permit hl' hp h =>
        cases hl.symm.trans hl'
        obtain ⟨_, hfree, _⟩ := Semaphore.tryAcquire_ok h
        exact ⟨hp, by omega⟩
    · rintro ⟨hp, hroom⟩
      cases htry : s.slots.tryAcquire with
      | ok slots => exact ⟨_, .permit hl hp htry⟩
      | error e =>
        have hfull := hs.full_iff.1 ⟨e, htry⟩
        omega

/-- Two slots, of which one is in use, and a second connection from the own host. -/
theorem relay_serves_at_most_max_second :
    ∃ s, (RelayListener.system 2).Reachable s ∧ s.open = 1 ∧ s.slots.permits + s.inUse = 2 ∧
      ∃ t, (RelayListener.system 2).step s .permit t := by
  have hrun : (RelayListener.system 2).Run (.new 2)
      [.accept (.v4 127 0 0 1), .permit, .spawn, .accept (.v4 127 0 0 1)] _ :=
    .cons (.accept rfl) <| .cons (.permit rfl rfl rfl) <| .cons (.spawn rfl) <|
      .single (.accept rfl)
  have hreach := hrun.reachable (.init rfl)
  have hserves := relay_serves_at_most_max hreach
  exact ⟨_, hreach, rfl, hserves.2.1, (hserves.2.2.2 _ rfl).2.2 ⟨rfl, by decide⟩⟩

/-- Nothing comes from outside: no connection, nor an error of the listener. -/
def RelayListener.Quiet (_ : RelayListener) (a : RelayAction) (_ : RelayListener) : Prop :=
  match a with
  | .accept _ | .acceptErr => False
  | _ => True

@[simp] def AcceptLoop.work : AcceptLoop → Nat
  | .accepted _ => 5
  | .permitted _ => 4
  | .selecting => 1
  | .returned => 0

@[simp] def ConnectionPhase.work : ConnectionPhase → Nat
  | .serving => 2
  | .leaving => 1
  | .gone => 0

/-- How many sections the relay's tasks still have before them. -/
def RelayListener.work (s : RelayListener) : Nat :=
  s.loop.work + total (fun c => c.phase.work) s.connections

/-- The listener is closed, every connection is over and every slot free. -/
structure RelayListener.Over (max : Nat) (s : RelayListener) : Prop where
  loop : s.loop = .returned
  connections : ∀ c ∈ s.connections, c.phase = .gone
  slots : s.slots.permits = max

theorem RelayListener.Step.works (h : RelayListener.Step s a t) (hquiet : s.Quiet a t)
    (hs : s.cancelled = true) : t.cancelled = true ∧ t.work < s.work := by
  cases h with
  | drop h =>
    rw [hs] at h
    cases h
  | accept => exact hquiet.elim
  | acceptErr => exact hquiet.elim
  | stop hl => exact ⟨hs, by simp [work, hl]⟩
  | foreign hl => exact ⟨hs, by simp [work, hl]⟩
  | full hl => exact ⟨hs, by simp [work, hl]⟩
  | permit hl => exact ⟨hs, by simp [work, hl]⟩
  | spawn hl =>
    refine ⟨hs, ?_⟩
    simp only [work, hl, AcceptLoop.work, total_append, total_cons, total_nil, ConnectionPhase.work]
    omega
  | @finish _ i peer hc =>
    have hset := total_set (fun c : RelayConnection => c.phase.work) hc ⟨peer, .leaving⟩
    refine ⟨hs, ?_⟩
    simp only [work, ConnectionPhase.work] at hset ⊢
    omega
  | @cut _ i peer hc =>
    have hset := total_set (fun c : RelayConnection => c.phase.work) hc ⟨peer, .leaving⟩
    refine ⟨hs, ?_⟩
    simp only [work, ConnectionPhase.work] at hset ⊢
    omega
  | @leave _ i peer hc =>
    have hset := total_set (fun c : RelayConnection => c.phase.work) hc ⟨peer, .gone⟩
    refine ⟨hs, ?_⟩
    simp only [work, ConnectionPhase.work] at hset ⊢
    omega

/-- The relay's tasks stop only when they are over. -/
theorem RelayListener.Sound.over {s : RelayListener} (hs : s.Sound max)
    (hcancelled : s.cancelled = true)
    (hstuck : ∀ a t, ¬ ((RelayListener.system max).guarded RelayListener.Quiet).step s a t) :
    s.Over max := by
  have hconnections : ∀ c ∈ s.connections, c.phase = .gone := by
    rintro ⟨peer, phase⟩ hc
    obtain ⟨i, hi⟩ := List.getElem?_of_mem hc
    cases phase with
    | serving => exact absurd ⟨.cut hi hcancelled, trivial⟩ (hstuck (.cut i) _)
    | leaving => exact absurd ⟨.leave hi, trivial⟩ (hstuck (.leave i) _)
    | gone => rfl
  have hloop : s.loop = .returned := by
    cases hl : s.loop with
    | selecting => exact absurd ⟨.stop hl hcancelled, trivial⟩ (hstuck .stop _)
    | accepted peer =>
      cases hp : isLoopback peer with
      | false => exact absurd ⟨.foreign hl hp, trivial⟩ (hstuck .turnAway _)
      | true =>
        cases htry : s.slots.tryAcquire with
        | ok slots => exact absurd ⟨.permit hl hp htry, trivial⟩ (hstuck .permit _)
        | error e => exact absurd ⟨.full hl hp htry, trivial⟩ (hstuck .turnAway _)
    | permitted peer => exact absurd ⟨.spawn hl, trivial⟩ (hstuck .spawn _)
    | returned => rfl
  refine ⟨hloop, hconnections, ?_⟩
  have hnone : total (fun c : RelayConnection => c.phase.slot) s.connections = 0 :=
    total_eq_zero fun c hc => by rw [hconnections c hc]; rfl
  have hcounted := hs.counted
  simp only [inUse, hloop, hnone, AcceptLoop.slot] at hcounted
  exact hcounted

/-- Once the accept loop has returned, no connection is added. -/
theorem RelayListener.Step.returned (h : RelayListener.Step s a t) (hs : s.loop = .returned) :
    t.loop = .returned ∧ t.connections.length = s.connections.length := by
  cases h with
  | drop => exact ⟨hs, rfl⟩
  | acceptErr => exact ⟨hs, rfl⟩
  | finish => exact ⟨hs, List.length_set⟩
  | cut => exact ⟨hs, List.length_set⟩
  | leave => exact ⟨hs, List.length_set⟩
  | stop hl => cases hs.symm.trans hl
  | accept hl => cases hs.symm.trans hl
  | foreign hl => cases hs.symm.trans hl
  | full hl => cases hs.symm.trans hl
  | permit hl => cases hs.symm.trans hl
  | spawn hl => cases hs.symm.trans hl

/-- A relay that is dropped comes to its end. Unless another connection is accepted, or fails to
be, its tasks have a bounded number of sections left, in any order, and where none is left its
listener is closed, all its connections are over and every slot is free again. Once its listener is
closed it serves nobody new. -/
theorem dropped_relay_ends (h : (RelayListener.system max).Reachable s)
    (hdropped : s.cancelled = true) :
    (∀ as t, ((RelayListener.system max).guarded RelayListener.Quiet).Run s as t →
      as.length ≤ s.work ∧
        ((∀ a u, ¬ ((RelayListener.system max).guarded RelayListener.Quiet).step t a u) →
          t.Over max)) ∧
      (∃ as t, ((RelayListener.system max).guarded RelayListener.Quiet).Run s as t ∧
        t.Over max) ∧
      (s.loop = .returned → ∀ as t, (RelayListener.system max).Run s as t →
        t.loop = .returned ∧ t.connections.length = s.connections.length) := by
  have hworks : ∀ (s : RelayListener) a t, s.cancelled = true →
      ((RelayListener.system max).guarded RelayListener.Quiet).step s a t →
      t.cancelled = true ∧ t.work < s.work :=
    fun s a t hc hst => hst.1.works hst.2 hc
  have hover {as t} (hrun : ((RelayListener.system max).guarded RelayListener.Quiet).Run s as t)
      (hstuck : ∀ a u, ¬ ((RelayListener.system max).guarded RelayListener.Quiet).step t a u) :
      t.Over max :=
    (RelayListener.sound (hrun.unguarded.reachable h)).over
      (hrun.length_le hdropped hworks).2 hstuck
  refine ⟨fun as t hrun => ⟨?_, hover hrun⟩, ?_, fun hreturned as t hrun => ?_⟩
  · have hlength := (hrun.length_le hdropped hworks).1
    omega
  · obtain ⟨as, t, hrun, hstuck⟩ := System.exists_stuck
      (I := fun s => s.cancelled = true) (f := RelayListener.work) hdropped hworks
    exact ⟨as, t, hrun, hover hrun hstuck⟩
  · exact hrun.preserves
      (I := fun u => u.loop = .returned ∧ u.connections.length = s.connections.length)
      ⟨hreturned, rfl⟩ fun u a v hu hst => by
        obtain ⟨hloop, hlength⟩ := hst.returned hu.1
        exact ⟨hloop, hlength.trans hu.2⟩

/-- A relay that is dropped while it serves one connection and has accepted another. -/
def RelayListener.midway : RelayListener where
  loop := .permitted (.v4 127 0 0 1)
  slots := ⟨0, [], [], false⟩
  cancelled := true
  connections := [⟨.v4 127 0 0 1, .serving⟩]

theorem dropped_relay_ends_midway :
    (RelayListener.system 2).Reachable .midway ∧
      ∃ as t, ((RelayListener.system 2).guarded RelayListener.Quiet).Run .midway as t ∧
        as.length ≤ 6 ∧ t.Over 2 := by
  have hrun : (RelayListener.system 2).Run (.new 2)
      [.accept (.v4 127 0 0 1), .permit, .spawn, .accept (.v4 127 0 0 1), .permit, .drop] _ :=
    .cons (.accept rfl) <| .cons (.permit rfl rfl rfl) <| .cons (.spawn rfl) <|
      .cons (.accept rfl) <| .cons (.permit rfl rfl rfl) <| .single (.drop rfl)
  have hreach : (RelayListener.system 2).Reachable .midway := hrun.reachable (.init rfl)
  have hends := dropped_relay_ends hreach rfl
  obtain ⟨as, t, hquiet, hover⟩ := hends.2.1
  exact ⟨hreach, as, t, hquiet, (hends.1 as t hquiet).1, hover⟩

end BrowserServe
