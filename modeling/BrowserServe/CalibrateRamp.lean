import BrowserServe.Calibrate
import BrowserServe.Capacity
import BrowserServe.Factory

namespace BrowserServe.HostCapacity
open Library
set_option autoImplicit true

def RAMP_CAP : Nat := 12
def MEM_SAFETY_NUM : UInt64 := 85
def MEM_SAFETY_DEN : UInt64 := 100

/-- In milliseconds, as the two after it. -/
def SETTLE : Nat := 1500
def SUSTAIN_HOLD : Nat := 12 * 1000
def RECORD_PROBE : Nat := 1500

inductive RampStop where
  | launchFailed
  | memoryLine
  | cap
  deriving DecidableEq

/-- A session with the task that acknowledges and counts its frames. -/
structure HeldSession where
  session : ChromeSession
  task : Nat

/-- What calibration asks of its host. -/
inductive RampOp where
  | create
  | takePipe (session : ChromeSession)
  | setupRecording (session : ChromeSession)
  | spawnDrain (session : ChromeSession)
  | sleep (ms : Nat)
  | treeRssBytes (pid : Int)
  | treeThreadCount (pid : Int)
  | memoryUsed
  | frames (task : Nat)
  | cancel (task : Nat)
  | destroy (session : ChromeSession)

@[reducible] def RampOp.Answer : RampOp → Type
  | create => Except CreateError ChromeSession
  | takePipe _ => Bool
  | setupRecording _ => Except RecordError Unit
  | spawnDrain _ => Nat
  | treeRssBytes _ | treeThreadCount _ | memoryUsed => Option UInt64
  | frames _ => UInt64
  | _ => Unit

abbrev RampM : Type → Type := Program RampOp RampOp.Answer

def ask (op : RampOp) : RampM op.Answer := Program.ask op

inductive SpawnError where
  | create (error : CreateError)
  | noTransport
  | setup (error : RecordError)

def spawnRecordingSession : RampM (Except SpawnError HeldSession) := do
  match ← ask .create with
  | .error e => pure (.error (.create e))
  | .ok session =>
    if ← ask (.takePipe session) then
      match ← ask (.setupRecording session) with
      | .error e =>
        ask (.destroy session)
        pure (.error (.setup e))
      | .ok () =>
        let task ← ask (.spawnDrain session)
        pure (.ok ⟨session, task⟩)
    else
      ask (.destroy session)
      pure (.error .noTransport)

def SessionFootprint.ofParts (bytes threads : UInt64) : Option SessionFootprint :=
  if 0 < bytes ∧ 0 < threads then some ⟨bytes, threads⟩ else none

def measureFootprint (pid : Int) : RampM (Option SessionFootprint) := do
  match ← ask (.treeRssBytes pid) with
  | none => pure none
  | some bytes =>
    match ← ask (.treeThreadCount pid) with
    | none => pure none
    | some threads => pure (SessionFootprint.ofParts bytes threads)

def maxFootprint (a b : SessionFootprint) : SessionFootprint :=
  ⟨max a.bytes b.bytes, max a.threads b.threads⟩

/-- Whether so much memory in use is over the safety line of a ceiling. -/
def overMemoryLine (ceiling used : Option UInt64) : Bool :=
  match ceiling, used with
  | some ceiling, some used => ceiling / MEM_SAFETY_DEN * MEM_SAFETY_NUM ≤ used
  | _, _ => false

def crossedMemoryLine (ceiling : Option UInt64) : RampM Bool := do
  let used ← ask .memoryUsed
  pure (overMemoryLine ceiling used)

structure Ramp where
  held : List HeldSession
  footprint : Option SessionFootprint

def Ramp.add (ramp : Ramp) (h : HeldSession) (measured : Option SessionFootprint) : Ramp where
  held := ramp.held ++ [h]
  footprint :=
    match measured with
    | none => ramp.footprint
    | some fp => some (ramp.footprint.elim fp fun prev => maxFootprint prev fp)

/-- The steps of the ramp that are left. -/
def rampFrom (limits : HostLimits) : Nat → Ramp → RampM (Ramp × RampStop)
  | 0, ramp => pure (ramp, .cap)
  | steps + 1, ramp => do
    match ← spawnRecordingSession with
    | .error _ => pure (ramp, .launchFailed)
    | .ok h =>
      ask (.sleep SETTLE)
      let measured ← measureFootprint h.session.browser.pid
      if ← crossedMemoryLine limits.memCeilingBytes then pure (ramp.add h measured, .memoryLine)
      else rampFrom limits steps (ramp.add h measured)

def readFrames : List HeldSession → RampM (List Nat)
  | [] => pure []
  | h :: held => do
    let frames ← ask (.frames h.task)
    let rest ← readFrames held
    pure (frames.toNat :: rest)

/-- `count_recording` of the sessions that are held. -/
def countHeld (held : List HeldSession) : RampM Nat := do
  let before ← readFrames held
  ask (.sleep RECORD_PROBE)
  let now ← readFrames held
  pure (countRecording before now)

def destroyEach : List HeldSession → RampM Unit
  | [] => pure ()
  | h :: held => do
    ask (.cancel h.task)
    ask (.destroy h.session)
    destroyEach held

/-- The ceiling, unless its computation leaves the word. -/
def calibrate (limits : HostLimits) : RampM (Option Capacity) := do
  let (ramp, stop) ← rampFrom limits RAMP_CAP ⟨[], none⟩
  let launched := min ramp.held.length (2 ^ 32 - 1)
  ask (.sleep SUSTAIN_HOLD)
  let sustained ← countHeld ramp.held
  destroyEach ramp.held
  pure (deriveCeiling sustained.toUInt32 (stop = .cap ∧ sustained = launched) ramp.footprint limits)

/-- What has come of a calibration so far. -/
structure RampBooks where
  created : List ChromeSession
  destroyed : List ChromeSession
  draining : List Nat
  rss : Option UInt64
  measured : List SessionFootprint
  memory : List (Option UInt64)
  frames : List Nat

def RampBooks.new : RampBooks := ⟨[], [], [], none, [], [], []⟩

def RampBooks.note (s : RampBooks) : (op : RampOp) → op.Answer → RampBooks
  | .create, .ok session => { s with created := s.created ++ [session] }
  | .spawnDrain _, task => { s with draining := s.draining ++ [task] }
  | .treeRssBytes _, bytes => { s with rss := bytes }
  | .treeThreadCount _, threads =>
    { s with measured := s.measured ++
        (s.rss.bind fun bytes => threads.bind (SessionFootprint.ofParts bytes)).toList }
  | .memoryUsed, used => { s with memory := s.memory ++ [used] }
  | .frames _, frames => { s with frames := s.frames ++ [frames.toNat] }
  | .cancel task, _ => { s with draining := s.draining.erase task }
  | .destroy session, _ => { s with destroyed := s.destroyed ++ [session] }
  | _, _ => s

/-- A host that answers in any way. -/
def rampHost : Host RampOp RampOp.Answer RampBooks := .recorder RampBooks.note

namespace RampBooks
variable {s t : RampBooks} {live : List ChromeSession} {tasks : List Nat}

/-- The sessions that were created and not destroyed, and the tasks that were not cancelled. -/
structure Holds (s : RampBooks) (live : List ChromeSession) (tasks : List Nat) : Prop where
  sessions : s.created.Perm (s.destroyed ++ live)
  tasks : s.draining.Perm tasks
  few : live.length ≤ RAMP_CAP

def Sound (s : RampBooks) : Prop := ∃ live tasks, s.Holds live tasks

theorem Holds.sound (h : s.Holds live tasks) : s.Sound := ⟨live, tasks, h⟩

theorem Holds.of_eq (h : s.Holds live tasks) (hcreated : t.created = s.created)
    (hdestroyed : t.destroyed = s.destroyed) (hdraining : t.draining = s.draining) :
    t.Holds live tasks := by
  refine ⟨?_, ?_, h.few⟩
  · rw [hcreated, hdestroyed]
    exact h.sessions
  · rw [hdraining]
    exact h.tasks

theorem Holds.create (h : s.Holds live tasks) (hfew : live.length < RAMP_CAP)
    (session : ChromeSession) :
    (s.note .create (.ok session)).Holds (live ++ [session]) tasks := by
  refine ⟨?_, h.tasks, ?_⟩
  · show (s.created ++ [session]).Perm (s.destroyed ++ (live ++ [session]))
    rw [← List.append_assoc]
    exact h.sessions.append_right [session]
  · rw [List.length_append]
    exact hfew

theorem Holds.spawn (h : s.Holds live tasks) (session : ChromeSession) (task : Nat) :
    (s.note (.spawnDrain session) task).Holds live (tasks ++ [task]) :=
  ⟨h.sessions, h.tasks.append_right [task], h.few⟩

theorem Holds.cancel {task : Nat} (h : s.Holds live (task :: tasks)) :
    (s.note (.cancel task) ()).Holds live tasks := by
  refine ⟨h.sessions, ?_, h.few⟩
  have herase := h.tasks.erase task
  rw [List.erase_cons_head] at herase
  exact herase

theorem Holds.destroy {session : ChromeSession} (h : s.Holds (session :: live) tasks) :
    (s.note (.destroy session) ()).Holds live tasks := by
  refine ⟨?_, h.tasks, Nat.le_of_succ_le h.few⟩
  show s.created.Perm (s.destroyed ++ [session] ++ live)
  rw [List.append_assoc]
  exact h.sessions

theorem Holds.destroy_last {session : ChromeSession} (h : s.Holds (live ++ [session]) tasks) :
    (s.note (.destroy session) ()).Holds live tasks := by
  apply Holds.destroy
  have hswap : (live ++ [session]).Perm (session :: live) := List.perm_append_comm
  exact ⟨h.sessions.trans (hswap.append_left _), h.tasks, hswap.length_eq ▸ h.few⟩

end RampBooks

section
open RampBooks
variable {s : RampBooks} {live : List ChromeSession} {tasks : List Nat}

/-- The measurements of two states are the same. -/
structure RampBooks.SameReadings (s t : RampBooks) : Prop where
  measured : t.measured = s.measured
  memory : t.memory = s.memory
  frames : t.frames = s.frames

theorem spawnRecordingSession_ends (h : s.Holds live tasks) (hfew : live.length < RAMP_CAP) :
    spawnRecordingSession.Ends rampHost Sound (fun spawned t => s.SameReadings t ∧
      match spawned with
      | .ok held => t.Holds (live ++ [held.session]) (tasks ++ [held.task]) ∧
          t.destroyed = s.destroyed
      | .error _ => t.Holds live tasks) s := by
  apply Program.Ends.recorded h.sound
  intro created
  cases created with
  | error e => exact ⟨⟨rfl, rfl, rfl⟩, h⟩
  | ok session =>
    have hcreated := h.create hfew session
    apply Program.Ends.recorded hcreated.sound
    intro taken
    cases taken with
    | false =>
      apply Program.Ends.recorded hcreated.sound
      intro _
      exact ⟨⟨rfl, rfl, rfl⟩, hcreated.destroy_last⟩
    | true =>
      apply Program.Ends.recorded hcreated.sound
      intro recording
      cases recording with
      | error e =>
        apply Program.Ends.recorded hcreated.sound
        intro _
        exact ⟨⟨rfl, rfl, rfl⟩, hcreated.destroy_last⟩
      | ok _ =>
        apply Program.Ends.recorded hcreated.sound
        intro task
        exact ⟨⟨rfl, rfl, rfl⟩, hcreated.spawn session task, rfl⟩

/-- A measurement is kept if both of its parts are there and positive. -/
theorem measureFootprint_ends (h : s.Holds live tasks) (pid : Int) :
    (measureFootprint pid).Ends rampHost Sound (fun measured t => t.Holds live tasks ∧
      t.destroyed = s.destroyed ∧ t.measured = s.measured ++ measured.toList ∧
      t.memory = s.memory ∧ t.frames = s.frames) s := by
  apply Program.Ends.recorded h.sound
  intro bytes
  have hbytes : (s.note (.treeRssBytes pid) bytes).Holds live tasks := h.of_eq rfl rfl rfl
  cases bytes with
  | none => exact ⟨hbytes, rfl, (List.append_nil _).symm, rfl, rfl⟩
  | some bytes =>
    apply Program.Ends.recorded hbytes.sound
    intro threads
    have hthreads := hbytes.of_eq (t := (s.note (.treeRssBytes pid) (some bytes)).note
      (.treeThreadCount pid) threads) rfl rfl rfl
    cases threads with
    | none => exact ⟨hthreads, rfl, rfl, rfl, rfl⟩
    | some threads => exact ⟨hthreads, rfl, rfl, rfl, rfl⟩

theorem crossedMemoryLine_ends (h : s.Holds live tasks) (ceiling : Option UInt64) :
    (crossedMemoryLine ceiling).Ends rampHost Sound (fun crossed t => t.Holds live tasks ∧
      t.destroyed = s.destroyed ∧ t.measured = s.measured ∧ t.frames = s.frames ∧
      ∃ used, t.memory = s.memory ++ [used] ∧ crossed = overMemoryLine ceiling used) s := by
  apply Program.Ends.recorded h.sound
  intro used
  exact ⟨h.of_eq rfl rfl rfl, rfl, rfl, rfl, used, rfl, rfl⟩

theorem readFrames_ends (h : s.Holds live tasks) (held : List HeldSession) :
    (readFrames held).Ends rampHost Sound (fun frames t => t.Holds live tasks ∧
      t.measured = s.measured ∧ t.memory = s.memory ∧ t.created = s.created ∧
      t.frames = s.frames ++ frames ∧ frames.length = held.length) s := by
  induction held generalizing s with
  | nil => exact ⟨h, rfl, rfl, rfl, (List.append_nil _).symm, rfl⟩
  | cons first held ih =>
    apply Program.Ends.recorded h.sound
    intro frames
    have hnoted : (s.note (.frames first.task) frames).Holds live tasks := h.of_eq rfl rfl rfl
    apply (ih hnoted).bind
    rintro rest t ⟨ht, hmeasured, hmemory, hcreated, hframes, hlength⟩
    refine ⟨ht, hmeasured, hmemory, hcreated, ?_, congrArg (· + 1) hlength⟩
    rw [hframes]
    exact List.append_assoc s.frames [frames.toNat] rest

theorem countHeld_ends (h : s.Holds live tasks) (held : List HeldSession) :
    (countHeld held).Ends rampHost Sound (fun sustained t => t.Holds live tasks ∧
      t.measured = s.measured ∧ t.memory = s.memory ∧ t.created = s.created ∧
      ∃ before now, t.frames = s.frames ++ (before ++ now) ∧ before.length = held.length ∧
        now.length = held.length ∧ sustained = countRecording before now) s := by
  apply (readFrames_ends h held).bind
  rintro before t ⟨ht, hmeasured, hmemory, hcreated, hframes, hbefore⟩
  apply Program.Ends.recorded ht.sound
  intro _
  apply (readFrames_ends ht held).bind
  rintro now u ⟨hu, hmeasured', hmemory', hcreated', hframes', hnow⟩
  refine ⟨hu, hmeasured'.trans hmeasured, hmemory'.trans hmemory, hcreated'.trans hcreated,
    before, now, ?_, hbefore, hnow, rfl⟩
  rw [hframes', hframes, List.append_assoc]

theorem destroyEach_ends (held : List HeldSession)
    (h : s.Holds (held.map HeldSession.session) (held.map HeldSession.task)) :
    (destroyEach held).Ends rampHost Sound (fun _ t => t.Holds [] [] ∧ s.SameReadings t ∧
      t.created = s.created) s := by
  induction held generalizing s with
  | nil => exact ⟨h, ⟨rfl, rfl, rfl⟩, rfl⟩
  | cons first held ih =>
    apply Program.Ends.recorded h.sound
    intro _
    have hcancelled : (s.note (.cancel first.task) ()).Holds
        (first.session :: held.map HeldSession.session) (held.map HeldSession.task) := h.cancel
    apply Program.Ends.recorded hcancelled.sound
    intro _
    apply (ih hcancelled.destroy).imp
    rintro _ t ⟨ht, hsame, hcreated⟩
    exact ⟨ht, ⟨hsame.measured, hsame.memory, hsame.frames⟩, hcreated⟩

/-- The largest parts of the footprints that were measured; there is none if none was. -/
def Covers (footprint : Option SessionFootprint) (measured : List SessionFootprint) : Prop :=
  match footprint with
  | none => measured = []
  | some most => measured ≠ [] ∧ ∀ fp ∈ measured, most.Shrinks fp

theorem maxFootprint_shrinks_left (a b : SessionFootprint) : (maxFootprint a b).Shrinks a := by
  refine ⟨?_, ?_⟩
  · simp only [maxFootprint, UInt64.le_iff_toNat_le, UInt64.toNat_max]
    exact Nat.le_max_left _ _
  · simp only [maxFootprint, UInt64.le_iff_toNat_le, UInt64.toNat_max]
    exact Nat.le_max_left _ _

theorem maxFootprint_shrinks_right (a b : SessionFootprint) : (maxFootprint a b).Shrinks b := by
  refine ⟨?_, ?_⟩
  · simp only [maxFootprint, UInt64.le_iff_toNat_le, UInt64.toNat_max]
    exact Nat.le_max_right _ _
  · simp only [maxFootprint, UInt64.le_iff_toNat_le, UInt64.toNat_max]
    exact Nat.le_max_right _ _

theorem SessionFootprint.Shrinks.trans {a b c : SessionFootprint} (hab : a.Shrinks b)
    (hbc : b.Shrinks c) : a.Shrinks c where
  bytes := UInt64.le_trans hbc.bytes hab.bytes
  threads := UInt64.le_trans hbc.threads hab.threads

theorem Covers.add {ramp : Ramp} {measured : List SessionFootprint}
    (h : Covers ramp.footprint measured) (held : HeldSession)
    (fp : Option SessionFootprint) :
    Covers (ramp.add held fp).footprint (measured ++ fp.toList) := by
  cases fp with
  | none =>
    rw [Option.toList_none, List.append_nil]
    exact h
  | some fp =>
    have hsome : measured ++ [fp] ≠ [] := by simp
    cases hprev : ramp.footprint with
    | none =>
      rw [hprev] at h
      obtain rfl : measured = [] := h
      simp only [Ramp.add, hprev, Option.elim_none]
      refine ⟨hsome, fun other hother => ?_⟩
      obtain rfl := List.mem_singleton.1 hother
      exact ⟨UInt64.le_refl _, UInt64.le_refl _⟩
    | some prev =>
      rw [hprev] at h
      simp only [Ramp.add, hprev, Option.elim_some]
      refine ⟨hsome, fun other hother => ?_⟩
      rcases List.mem_append.1 hother with hold | hnew
      · exact (maxFootprint_shrinks_left prev fp).trans (h.2 other hold)
      · obtain rfl := List.mem_singleton.1 hnew
        exact maxFootprint_shrinks_right prev other

/-- The ramp up to one of its steps. -/
structure Ramped (s : RampBooks) (limits : HostLimits) (ramp : Ramp) : Prop where
  holds : s.Holds (ramp.held.map HeldSession.session) (ramp.held.map HeldSession.task)
  covers : Covers ramp.footprint s.measured
  frames : s.frames = []

/-- No reading of the memory was over the safety line. -/
def RampBooks.Below (s : RampBooks) (limits : HostLimits) : Prop :=
  ∀ used ∈ s.memory, overMemoryLine limits.memCeilingBytes used = false

theorem Ramped.add {ramp : Ramp} (h : Ramped s limits ramp) (held : HeldSession)
    (fp : Option SessionFootprint)
    (hholds : t.Holds (ramp.held.map HeldSession.session ++ [held.session])
      (ramp.held.map HeldSession.task ++ [held.task]))
    (hmeasured : t.measured = s.measured ++ fp.toList) (hframes : t.frames = s.frames) :
    Ramped t limits (ramp.add held fp) := by
  refine ⟨?_, ?_, hframes.trans h.frames⟩
  · simp only [Ramp.add, List.map_append, List.map_cons, List.map_nil]
    exact hholds
  · rw [hmeasured]
    exact h.covers.add held fp

/-- A ramp that reaches its cap has lost no session and seen no memory over the line. -/
theorem rampFrom_ends {ramp : Ramp} {steps : Nat} (h : Ramped s limits ramp)
    (hdestroyed : s.destroyed = []) (hbelow : s.Below limits)
    (hsteps : ramp.held.length + steps = RAMP_CAP) :
    (rampFrom limits steps ramp).Ends rampHost Sound (fun ramped t =>
      Ramped t limits ramped.1 ∧ (ramped.2 = .cap →
        t.destroyed = [] ∧ t.Below limits ∧ ramped.1.held.length = RAMP_CAP)) s := by
  induction steps generalizing s ramp with
  | zero => exact ⟨h, fun _ => ⟨hdestroyed, hbelow, hsteps⟩⟩
  | succ steps ih =>
    have hfew : (ramp.held.map HeldSession.session).length < RAMP_CAP := by
      rw [List.length_map]
      omega
    apply (spawnRecordingSession_ends h.holds hfew).bind
    rintro spawned t ⟨hsame, hspawned⟩
    cases spawned with
    | error e =>
      refine ⟨⟨hspawned, ?_, hsame.frames.trans h.frames⟩, nofun⟩
      rw [hsame.measured]
      exact h.covers
    | ok held =>
      obtain ⟨hholds, hkept⟩ := hspawned
      apply Program.Ends.recorded hholds.sound
      intro _
      apply (measureFootprint_ends hholds held.session.browser.pid).bind
      rintro fp u ⟨hu, hudestroyed, humeasured, humemory, huframes⟩
      apply (crossedMemoryLine_ends hu limits.memCeilingBytes).bind
      rintro crossed v ⟨hv, hvdestroyed, hvmeasured, hvframes, used, hvmemory, rfl⟩
      have hadded : Ramped v limits (ramp.add held fp) := by
        apply h.add held fp hv
        · rw [hvmeasured, humeasured]
          exact congrArg (· ++ fp.toList) hsame.measured
        · exact hvframes.trans (huframes.trans hsame.frames)
      cases hover : overMemoryLine limits.memCeilingBytes used with
      | true => exact ⟨hadded, nofun⟩
      | false =>
        apply ih hadded
        · exact hvdestroyed.trans (hudestroyed.trans (hkept.trans hdestroyed))
        · intro reading hreading
          have hmemory : v.memory = s.memory ++ [used] := by
            rw [hvmemory, humemory]
            exact congrArg (· ++ [used]) hsame.memory
          rw [hmemory] at hreading
          rcases List.mem_append.1 hreading with hold | hnew
          · exact hbelow reading hold
          · obtain rfl := List.mem_singleton.1 hnew
            exact hover
        · simp only [Ramp.add, List.length_append, List.length_singleton]
          omega

theorem countRecording_le (before now : List Nat) : countRecording before now ≤ now.length := by
  apply Nat.le_trans (Nat.min_le_left _ _)
  apply Nat.le_trans (List.length_filter_le _ _)
  rw [List.length_zip]
  exact Nat.min_le_left _ _

/-- What a calibration ends with, and what its ceiling is derived from. -/
theorem calibrate_ends (limits : HostLimits) :
    (calibrate limits).Ends rampHost Sound (fun r t => t.Holds [] [] ∧
      ∃ footprint stop before now, Covers footprint t.measured ∧ t.frames = before ++ now ∧
        before.length = now.length ∧ now.length ≤ RAMP_CAP ∧
        (stop = .cap → t.created.length = RAMP_CAP ∧ t.Below limits ∧ now.length = RAMP_CAP) ∧
        r = deriveCeiling (countRecording before now).toUInt32
          (stop = RampStop.cap ∧ countRecording before now = min now.length (2 ^ 32 - 1))
          footprint limits) .new := by
  have hnew : Ramped .new limits ⟨[], none⟩ :=
    ⟨⟨.nil, .nil, Nat.zero_le _⟩, rfl, rfl⟩
  have hbelow : RampBooks.new.Below limits := fun _ hused => absurd hused List.not_mem_nil
  apply (rampFrom_ends hnew rfl hbelow (Nat.zero_add _)).bind
  rintro ⟨ramp, stop⟩ t ⟨ht, hcap⟩
  apply Program.Ends.recorded ht.holds.sound
  intro _
  have hheld : (t.note (.sleep SUSTAIN_HOLD) ()).Holds (ramp.held.map HeldSession.session)
      (ramp.held.map HeldSession.task) := ht.holds
  apply (countHeld_ends hheld ramp.held).bind
  rintro sustained u ⟨hu, humeasured, humemory, hucreated, before, now, huframes, hbefore, hnow,
    rfl⟩
  apply (destroyEach_ends ramp.held hu).bind
  rintro _ v ⟨hv, hsame, hvcreated⟩
  refine ⟨hv, ramp.footprint, stop, before, now, ?_, ?_, hbefore.trans hnow.symm, ?_, ?_, ?_⟩
  · rw [hsame.measured, humeasured]
    exact ht.covers
  · rw [hsame.frames, huframes]
    exact congrArg (· ++ (before ++ now)) ht.frames
  · rw [hnow]
    have hfew := ht.holds.few
    rwa [List.length_map] at hfew
  · intro hstop
    obtain ⟨hdestroyed, htbelow, hlength⟩ := hcap hstop
    refine ⟨?_, ?_, hnow.trans hlength⟩
    · rw [hvcreated, hucreated]
      have hperm := ht.holds.sessions.length_eq
      rw [hdestroyed, List.nil_append, List.length_map] at hperm
      exact hperm.trans hlength
    · rw [RampBooks.Below, hsame.memory, humemory]
      exact htbelow
  · rw [hnow]

end

/-- At every moment of a calibration it has given back none but the sessions it launched, and
there are no more than its cap; once it is over all are given back, and no task is left. -/
theorem calibration_gives_back (limits : HostLimits) (r : Option (Option Capacity)) (s : RampBooks)
    (hrun : (calibrate limits).Runs rampHost .new r s) :
    (∃ live, s.created.Perm (s.destroyed ++ live) ∧ live.length ≤ RAMP_CAP) ∧
      (r.isSome → s.created.Perm s.destroyed ∧ s.draining = []) := by
  have hends := hrun.ends (calibrate_ends limits)
  cases r with
  | none =>
    obtain ⟨live, _, hholds⟩ := hends
    exact ⟨⟨live, hholds.sessions, hholds.few⟩, nofun⟩
  | some c =>
    obtain ⟨hholds, _⟩ := hends
    refine ⟨⟨[], hholds.sessions, hholds.few⟩, fun _ => ⟨?_, hholds.tasks.eq_nil⟩⟩
    have hsessions := hholds.sessions
    rwa [List.append_nil] at hsessions

def rampSession (pid : Int) (id : Text) : ChromeSession :=
  ⟨⟨pid, ⟨"Chrome/149.0.7827.155", "1.3", "Chrome", "14.9"⟩⟩, .new (text ".browserserve") id,
    none, none, none⟩

def heldSessions : List ChromeSession := [rampSession 7 (text "a"), rampSession 8 (text "b")]

/-- A calibration on a host on which a third session does not start. -/
theorem heldSessions_run : ∃ c s, (calibrate ⟨none, none, 2⟩).Runs rampHost .new (some c) s ∧
    s.created = heldSessions ∧ s.frames = [5, 3, 9, 8] :=
  ⟨_, _, .goesOn (.ok (rampSession 7 (text "a"))) rfl <|
    .goesOn true rfl <|
    .goesOn (.ok ()) rfl <|
    .goesOn 0 rfl <|
    .goesOn () rfl <|
    .goesOn none rfl <|
    .goesOn none rfl <|
    .goesOn (.ok (rampSession 8 (text "b"))) rfl <|
    .goesOn true rfl <|
    .goesOn (.ok ()) rfl <|
    .goesOn 1 rfl <|
    .goesOn () rfl <|
    .goesOn (some 50000000) rfl <|
    .goesOn (some 40) rfl <|
    .goesOn none rfl <|
    .goesOn (.error (.provision "no space left on device")) rfl <|
    .goesOn () rfl <|
    .goesOn 5 rfl <|
    .goesOn 3 rfl <|
    .goesOn () rfl <|
    .goesOn 9 rfl <|
    .goesOn 8 rfl <|
    .goesOn () rfl <|
    .goesOn () rfl <|
    .goesOn () rfl <|
    .goesOn () rfl .done, rfl, rfl⟩

theorem calibration_gives_back_held : ∃ s : RampBooks,
    s.created = heldSessions ∧ s.created.Perm s.destroyed ∧ s.draining = [] := by
  obtain ⟨c, s, hrun, hcreated, _⟩ := heldSessions_run
  exact ⟨s, hcreated, (calibration_gives_back _ _ s hrun).2 rfl⟩

/-- The footprints that were measured, or the estimate where none was. -/
def RampBooks.footprints (s : RampBooks) : List SessionFootprint :=
  match s.measured with
  | [] => [SESSION_ESTIMATE]
  | measured => measured

theorem Covers.shrinks {footprint : Option SessionFootprint} {s : RampBooks}
    (h : Covers footprint s.measured) {fp : SessionFootprint} (hfp : fp ∈ s.footprints) :
    (footprint.getD SESSION_ESTIMATE).Shrinks fp := by
  cases footprint with
  | none =>
    have hnone : s.measured = [] := h
    rw [RampBooks.footprints, hnone] at hfp
    obtain rfl := List.mem_singleton.1 hfp
    exact ⟨UInt64.le_refl _, UInt64.le_refl _⟩
  | some most =>
    obtain ⟨hsome, hall⟩ := h
    apply hall
    cases hmeasured : s.measured with
    | nil => exact absurd hmeasured hsome
    | cons first rest =>
      rw [RampBooks.footprints, hmeasured] at hfp
      exact hfp

theorem FitsIn.shrink {each each' : UInt64} {limit : Option UInt64} {sessions : Nat}
    (h : FitsIn sessions each limit) (hle : each' ≤ each) : FitsIn sessions each' limit := by
  intro ceiling hceiling hne
  have hle' := UInt64.le_iff_toNat_le.1 hle
  have hne' : each ≠ 0 := by
    rintro rfl
    exact hne (UInt64.le_zero_iff.1 hle)
  have hmul := Nat.mul_le_mul_left sessions hle'
  have hfits := h ceiling hceiling hne'
  omega

theorem HostLimits.Holds.shrink {limits : HostLimits} {a b : SessionFootprint} {sessions : Nat}
    (h : limits.Holds a sessions) (hfp : a.Shrinks b) : limits.Holds b sessions where
  mem := h.mem.shrink hfp.bytes
  pids := h.pids.shrink hfp.threads
  cpus := h.cpus

/-- The ceiling of a calibration is the count of the sessions whose frames still came at its end,
of one at least. It is more only after a ramp in which every session launched and kept recording
and the memory stayed below the line, and then the host holds so many sessions of any size that was
measured. -/
theorem calibrated_ceiling_seen (limits : HostLimits) (r : Option Capacity) (s : RampBooks)
    (hrun : (calibrate limits).Runs rampHost .new (some r) s) :
    ∃ c before now, r = some c ∧ s.frames = before ++ now ∧ before.length = now.length ∧
      (c.maxSessions.toNat = max 1 (countRecording before now) ∨
        s.created.length = RAMP_CAP ∧ countRecording before now = RAMP_CAP ∧ s.Below limits ∧
          RAMP_CAP < c.maxSessions.toNat ∧ c.maxSessions.toNat ≤ 256 ∧
          ∀ fp ∈ s.footprints, limits.Holds fp c.maxSessions.toNat) := by
  obtain ⟨_, footprint, stop, before, now, hcovers, hframes, hlength, hfew, hcap, hr⟩ :=
    hrun.ends (calibrate_ends limits)
  have hle := Nat.le_trans (countRecording_le before now) hfew
  have hcount : (countRecording before now).toUInt32.toNat = countRecording before now := by
    apply UInt32.toNat_ofNat_of_lt'
    apply Nat.lt_of_le_of_lt hle
    decide
  obtain ⟨c, hc, _, hmost, hholds, _⟩ := compute_safe_and_monotone limits footprint
  by_cases hclean : stop = .cap ∧ countRecording before now = min now.length (2 ^ 32 - 1)
  · obtain ⟨hstop, hall⟩ := hclean
    obtain ⟨hcreated, hbelow, hnow⟩ := hcap hstop
    have hsustained : countRecording before now = RAMP_CAP := by
      rw [hall, hnow]
      rfl
    obtain ⟨d, hd, hmax⟩ := deriveCeiling_modeled hc (countRecording before now).toUInt32
    rw [decide_eq_true ⟨hstop, hall⟩, hd] at hr
    have hvalue : d.maxSessions.toNat = max c.maxSessions.toNat (max RAMP_CAP 1) := by
      rw [hmax, UInt32.toNat_max, UInt32.toNat_max, hcount, hsustained]
      rfl
    refine ⟨d, before, now, hr, hframes, hlength, ?_⟩
    by_cases hmore : RAMP_CAP < c.maxSessions.toNat
    · have hcap' : max c.maxSessions.toNat (max RAMP_CAP 1) = c.maxSessions.toNat := by
        simp only [RAMP_CAP] at hmore ⊢
        omega
      rw [hcap'] at hvalue
      refine .inr ⟨hcreated, hsustained, hbelow, hvalue ▸ hmore, hvalue ▸ hmost, ?_⟩
      intro fp hfp
      rw [hvalue]
      apply (hholds ?_).shrink (hcovers.shrinks hfp)
      exact Nat.lt_trans (by decide) hmore
    · left
      rw [hvalue, hsustained]
      simp only [RAMP_CAP] at hmore ⊢
      omega
  · obtain ⟨d, hd, hmax⟩ :=
      deriveCeiling_measured (countRecording before now).toUInt32 footprint limits
    rw [decide_eq_false hclean, hd] at hr
    refine ⟨d, before, now, hr, hframes, hlength, .inl ?_⟩
    rw [hmax, UInt32.toNat_max, hcount]
    exact Nat.max_comm _ _

/-- Two sessions were launched, and both kept recording. -/
theorem calibrated_ceiling_seen_held : ∃ c s,
    (calibrate ⟨none, none, 2⟩).Runs rampHost .new (some (some c)) s ∧
      s.created = heldSessions ∧ c.maxSessions.toNat = 2 := by
  obtain ⟨r, s, hrun, hcreated, hframes⟩ := heldSessions_run
  obtain ⟨c, before, now, rfl, hread, hlength, hcount | ⟨hcap, _⟩⟩ :=
    calibrated_ceiling_seen _ r s hrun
  · have hread : [5, 3] ++ [9, 8] = before ++ now := hframes.symm.trans hread
    have hfour := congrArg List.length hread
    simp only [List.length_append, List.length_cons, List.length_nil] at hfour
    have hbefore : [5, 3].length = before.length := by
      simp only [List.length_cons, List.length_nil]
      omega
    obtain ⟨rfl, rfl⟩ := List.append_inj hread hbefore
    exact ⟨c, s, hrun, hcreated, hcount⟩
  · rw [hcreated] at hcap
    cases hcap

end BrowserServe.HostCapacity
