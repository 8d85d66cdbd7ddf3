import BrowserServe.BridgeStep

namespace BrowserServe
open Library
set_option autoImplicit true

/-- What comes from a client at a time (`none` is the end of its stream or an error on it), and how
long a write of it to the browser takes and whether that succeeds. -/
structure Arrival where
  time : Nat
  item : Option Message
  writing : Nat
  written : Bool

structure ClientStream where
  arrivals : List Arrival
  inOrder : arrivals.Pairwise fun a b => a.time ≤ b.time

/-- When the client pump took a message, and when it had written it. -/
structure TakenMessage where
  taken : Nat
  written : Nat

/-- What became of a client pump; one without an end waits on. -/
structure Pumped where
  messages : List TakenMessage
  ended : Option (PumpExit × Nat)

def Pumped.after (pumped : Pumped) (message : TakenMessage) : Pumped :=
  { pumped with messages := message :: pumped.messages }

/-- `pump_client_to_browser` from a time on, against a clock. -/
def pumpClientToBrowser (idleTimeout : Option Nat) : Nat → List Arrival → Pumped
  | now, [] => ⟨[], idleTimeout.map fun dur => (.idleTimeout dur, now + dur)⟩
  | now, arrival :: arrivals =>
    match idleTimeout.filter fun dur => now + dur < arrival.time with
    | some dur => ⟨[], some (.idleTimeout dur, now + dur)⟩
    | none =>
      let now := max now arrival.time
      match arrival.item with
      | none => ⟨[], some (.clientClosed, now)⟩
      | some (.close frame) => ⟨[], some (closeExit frame, now)⟩
      | some (.ping _) | some (.pong _) => pumpClientToBrowser idleTimeout now arrivals
      | some (.text _) | some (.binary _) =>
        if arrival.written then
          (pumpClientToBrowser idleTimeout (now + arrival.writing) arrivals).after
            ⟨now, now + arrival.writing⟩
        else ⟨[⟨now, now + arrival.writing⟩], some (.clientClosed, now + arrival.writing)⟩

/-- The time from which a client that sends no message is idle. -/
def idleSince (start : Nat) (messages : List TakenMessage) : Nat :=
  (messages.getLast?.map TakenMessage.written).getD start

/-- What is asked of a client pump: it is never there for longer than the timeout without a
message, and it ends with the timeout exactly then. -/
structure Pumped.ClockedByMessages (dur start : Nat) (pumped : Pumped) : Prop where
  taken : ∀ before message after, pumped.messages = before ++ message :: after →
    message.taken ≤ idleSince start before + dur
  ended : ∃ exit time, pumped.ended = some (exit, time) ∧
    time ≤ idleSince start pumped.messages + dur
  idle : ∀ time, pumped.ended = some (.idleTimeout dur, time) →
    time = idleSince start pumped.messages + dur

/-- No ping or pong comes within the timeout, but for those that were there before it began. -/
def Silent (dur since : Nat) (controls : List Nat) : Prop :=
  ∀ time ∈ controls, time ≤ since ∨ since + dur < time

/-- Pings and pongs come within the timeout only where a message, a close frame or the end of the
stream does too; `controls` are the times of those since a message. -/
def Undisturbed (dur : Nat) : Nat → List Nat → List Arrival → Prop
  | since, controls, [] => Silent dur since controls
  | since, controls, arrival :: arrivals =>
    match arrival.item with
    | some (.ping _) | some (.pong _) =>
      Undisturbed dur since (controls ++ [arrival.time]) arrivals
    | some (.text _) | some (.binary _) =>
      if since + dur < arrival.time then Silent dur since controls
      else if arrival.written then
        Undisturbed dur (max since arrival.time + arrival.writing) [] arrivals
      else True
    | none | some (.close _) => since + dur < arrival.time → Silent dur since controls

section
variable {dur since now : Nat} {controls : List Nat} {arrival : Arrival}
  {arrivals : List Arrival}

theorem idleSince_cons (start : Nat) (message : TakenMessage) (messages : List TakenMessage) :
    idleSince start (message :: messages) = idleSince message.written messages := by
  cases messages with
  | nil => rfl
  | cons next messages => simp [idleSince, List.getLast?_cons]

theorem Pumped.clocked_after {pumped : Pumped} {message : TakenMessage} :
    (pumped.after message).ClockedByMessages dur start ↔
      message.taken ≤ start + dur ∧ pumped.ClockedByMessages dur message.written := by
  constructor
  · intro h
    refine ⟨h.taken [] message _ rfl, ?_, ?_, ?_⟩
    · intro before next after hmessages
      have htaken := h.taken (message :: before) next after (congrArg (List.cons message) hmessages)
      rwa [idleSince_cons] at htaken
    · obtain ⟨exit, time, hended, htime⟩ := h.ended
      rw [after, idleSince_cons] at htime
      exact ⟨exit, time, hended, htime⟩
    · intro time hended
      have htime := h.idle time hended
      rwa [after, idleSince_cons] at htime
  · rintro ⟨hmessage, h⟩
    refine ⟨?_, ?_, ?_⟩
    · intro before next after hmessages
      cases before with
      | nil =>
        cases hmessages
        exact hmessage
      | cons first before =>
        obtain ⟨rfl, hrest⟩ := List.cons.inj hmessages
        rw [idleSince_cons]
        exact h.taken before next after hrest
    · obtain ⟨exit, time, hended, htime⟩ := h.ended
      refine ⟨exit, time, hended, ?_⟩
      rwa [after, idleSince_cons]
    · intro time hended
      rw [after, idleSince_cons]
      exact h.idle time hended

/-- Without messages the end alone counts. -/
theorem Pumped.clocked_nil {exit : PumpExit} {time : Nat} :
    Pumped.ClockedByMessages dur start ⟨[], some (exit, time)⟩ ↔
      time ≤ start + dur ∧ (exit = .idleTimeout dur → time = start + dur) := by
  constructor
  · intro h
    obtain ⟨_, _, hended, htime⟩ := h.ended
    cases hended
    refine ⟨htime, ?_⟩
    rintro rfl
    exact h.idle time rfl
  · rintro ⟨htime, hidle⟩
    refine ⟨?_, ⟨exit, time, rfl, htime⟩, ?_⟩
    · intro before message after hmessages
      cases before <;> cases hmessages
    · intro t hended
      cases hended
      exact hidle rfl

theorem Pumped.clocked_idle :
    Pumped.ClockedByMessages dur start ⟨[], some (.idleTimeout dur, now + dur)⟩ ↔ now = start := by
  rw [clocked_nil]
  constructor
  · rintro ⟨_, htime⟩
    have heq := htime rfl
    omega
  · rintro rfl
    exact ⟨Nat.le_refl _, fun _ => rfl⟩

theorem Pumped.clocked_closed {exit : PumpExit} (h : exit ≠ .idleTimeout dur) :
    Pumped.ClockedByMessages dur start ⟨[], some (exit, time)⟩ ↔ time ≤ start + dur := by
  rw [clocked_nil]
  exact ⟨fun hboth => hboth.1, fun htime => ⟨htime, fun hexit => absurd hexit h⟩⟩

theorem closeExit_ne_idleTimeout (frame : Option CloseFrame) :
    closeExit frame ≠ .idleTimeout dur := by
  unfold closeExit
  split
  · simp
  · split <;> simp

theorem silent_append : Silent dur since (controls ++ [time]) ↔
    Silent dur since controls ∧ (time ≤ since ∨ since + dur < time) := by
  rw [Silent, List.forall_mem_append, List.forall_mem_singleton]
  rfl

/-- What comes after the timeout is over does not disturb it. -/
theorem undisturbed_late (h : ∀ arrival ∈ arrivals, since + dur < arrival.time) :
    Undisturbed dur since controls arrivals ↔ Silent dur since controls := by
  induction arrivals generalizing controls with
  | nil => rfl
  | cons arrival arrivals ih =>
    have harrival := h arrival List.mem_cons_self
    have hcontrol : Silent dur since (controls ++ [arrival.time]) ↔ Silent dur since controls := by
      rw [silent_append]
      exact ⟨fun hboth => hboth.1, fun hsilent => ⟨hsilent, .inr harrival⟩⟩
    have hrest : Undisturbed dur since (controls ++ [arrival.time]) arrivals ↔
        Silent dur since (controls ++ [arrival.time]) :=
      ih fun other hmem => h other (List.mem_cons_of_mem _ hmem)
    rw [Undisturbed]
    split
    · exact hrest.trans hcontrol
    · exact hrest.trans hcontrol
    · rw [if_pos harrival]
    · rw [if_pos harrival]
    · exact ⟨fun hsilent => hsilent harrival, fun hsilent _ => hsilent⟩
    · exact ⟨fun hsilent => hsilent harrival, fun hsilent _ => hsilent⟩

/-- A bridge whose client pump began to wait just now, with nothing there to read. -/
structure Bridge.Awaits (limit : Option Nat) (since : Nat) (s : Bridge) : Prop where
  timeout : s.idleTimeout = limit
  clock : s.now = since
  unread : s.inbox = []
  pump : s.clientPump = .next since
  unended : s.ended = none

theorem Bridge.running_of {s : Bridge} (hunended : s.ended = none)
    (hpump : ∀ dur, s.clientPump ≠ .idled dur) : s.Running := ⟨hunended, hpump⟩

theorem Bridge.run_ticks (start s : Bridge) (n : Nat) :
    ∃ as, (Bridge.system start).Run s as { s with now := s.now + n } := by
  induction n with
  | zero => exact ⟨[], .nil⟩
  | succ n ih =>
    obtain ⟨as, hrun⟩ := ih
    exact ⟨_, hrun.snoc .tick⟩

/-- A bridge in which the client pump can take something that is there by a time. -/
def Bridge.given (s : Bridge) (item : Option Message) (time : Nat) : Bridge :=
  { s with now := s.now + (time - s.now), inbox := s.inbox ++ [item] }

theorem Bridge.run_given (start s : Bridge) (item : Option Message) (time : Nat) :
    ∃ as, (Bridge.system start).Run s as (s.given item time) := by
  obtain ⟨as, hrun⟩ := run_ticks start s (time - s.now)
  exact ⟨_, hrun.snoc .arrive⟩

theorem Bridge.Awaits.given_inbox {s : Bridge} (h : s.Awaits limit since) (time : Nat)
    (hitem : item = some message) : (s.given item time).inbox = [some message] := by
  rw [Bridge.given, h.unread, hitem]
  rfl

/-- Once it has written what it has begun with, the client pump waits again. -/
theorem Bridge.finishes_writing (start : Bridge) {s : Bridge} (hunended : s.ended = none)
    (hunread : s.inbox = []) (hpump : s.clientPump = .writing done rest) :
    ∃ as t, (Bridge.system start).Run s as t ∧ t.Awaits s.idleTimeout s.now := by
  have hrunning : s.Running := running_of hunended fun dur hidled => by
    rw [hpump] at hidled
    cases hidled
  cases rest with
  | nil =>
    have hall := Bridge.Step.writeAll hrunning hpump
    have hend := Bridge.Step.terminate (s := { s with clientPump := .terminating done })
      (running_of hunended fun _ hidled => (nomatch hidled)) rfl
    exact ⟨_, _, .cons hall (.single hend), rfl, rfl, hunread, rfl, hunended⟩
  | cons b rest =>
    have hwrite : Bridge.Step s (.write (b :: rest).length) _ :=
      .write hrunning hpump (Nat.succ_pos _) (Nat.le_refl _)
    rw [List.take_length, List.drop_length] at hwrite
    have hall := Bridge.Step.writeAll (s := { s with
      written := s.written ++ b :: rest, clientPump := .writing (done ++ b :: rest) [] })
      (running_of hunended fun _ hidled => (nomatch hidled)) rfl
    have hend := Bridge.Step.terminate (s := { s with
      written := s.written ++ b :: rest, clientPump := .terminating (done ++ b :: rest) })
      (running_of hunended fun _ hidled => (nomatch hidled)) rfl
    exact ⟨_, _, .cons hwrite (.cons hall (.single hend)), rfl, rfl, hunread, rfl, hunended⟩

theorem pumped_bridges (start : Bridge) {s : Bridge} (h : s.Awaits limit now)
    (hended : (pumpClientToBrowser limit now arrivals).ended = some (exit, time)) :
    ∃ as t, (Bridge.system start).Run s as t ∧ t.now = time ∧ t.ended = some exit.ended := by
  have hidles : ∀ {s : Bridge} {now dur : Nat}, s.Awaits limit now → limit = some dur →
      ∃ as t, (Bridge.system start).Run s as t ∧ t.now = now + dur ∧
        t.ended = some (PumpExit.idleTimeout dur).ended := by
    intro s now dur h hdur
    obtain ⟨as, hticks⟩ := Bridge.run_ticks start s dur
    have hrunning : s.Running := Bridge.running_of h.unended fun dur hidled => by
      rw [h.pump] at hidled
      cases hidled
    have hidle := Bridge.Step.idle (s := { s with now := s.now + dur }) hrunning h.pump h.unread
      (h.timeout.trans hdur) (Nat.le_of_eq (congrArg (· + dur) h.clock.symm))
    exact ⟨_, _, (hticks.snoc hidle).snoc (.idleClosed rfl h.unended),
      congrArg (· + dur) h.clock, rfl⟩
  induction arrivals generalizing now s with
  | nil =>
    obtain ⟨dur, hdur, hexit⟩ := Option.map_eq_some_iff.mp hended
    cases hexit
    exact hidles h hdur
  | cons arrival arrivals ih =>
    rw [pumpClientToBrowser] at hended
    split at hended
    · rename_i dur hdur
      cases hended
      exact hidles h (Option.filter_eq_some_iff.mp hdur).1
    · obtain ⟨as, hrun⟩ := Bridge.run_given start s arrival.item arrival.time
      have hnow : (s.given arrival.item arrival.time).now = max now arrival.time := by
        show s.now + (arrival.time - s.now) = max now arrival.time
        rw [h.clock]
        omega
      have hrunning : (s.given arrival.item arrival.time).Running :=
        Bridge.running_of h.unended fun dur hidled => by
          rw [Bridge.given, h.pump] at hidled
          cases hidled
      have hcontrol : ∀ message bytes, arrival.item = some message →
          message = .ping bytes ∨ message = .pong bytes →
          (pumpClientToBrowser limit (max now arrival.time) arrivals).ended = some (exit, time) →
          ∃ as t, (Bridge.system start).Run s as t ∧ t.now = time ∧ t.ended = some exit.ended := by
        intro message bytes hitem hmessage hended
        have hstep := Bridge.Step.control hrunning h.pump (h.given_inbox _ hitem) hmessage
        obtain ⟨more, t, hmore, hlast⟩ := ih (s := { s.given arrival.item arrival.time with
            inbox := [], clientPump := .next (s.given arrival.item arrival.time).now })
          ⟨h.timeout, hnow, rfl, congrArg ClientPump.next hnow, h.unended⟩ hended
        exact ⟨_, t, (hrun.snoc hstep).trans hmore, hlast⟩
      have hpayload : ∀ message bytes, arrival.item = some message → message.payload = some bytes →
          (if arrival.written then
            (pumpClientToBrowser limit (max now arrival.time + arrival.writing) arrivals).after
              ⟨max now arrival.time, max now arrival.time + arrival.writing⟩
          else ⟨[⟨max now arrival.time, max now arrival.time + arrival.writing⟩],
            some (.clientClosed, max now arrival.time + arrival.writing)⟩).ended =
              some (exit, time) →
          ∃ as t, (Bridge.system start).Run s as t ∧ t.now = time ∧ t.ended = some exit.ended := by
        intro message bytes hitem hmessage hended
        have hstep := Bridge.Step.message hrunning h.pump (h.given_inbox _ hitem) hmessage
        obtain ⟨ticks, hticks⟩ := Bridge.run_ticks start _ arrival.writing
        have hwaited := (hrun.snoc hstep).trans hticks
        split at hended
        · obtain ⟨more, t, hmore, hawaits⟩ := Bridge.finishes_writing start
            (s := { s.given arrival.item arrival.time with
              inbox := [], clientPump := .writing [] bytes
              now := (s.given arrival.item arrival.time).now + arrival.writing })
            h.unended rfl rfl
          have hagain : t.Awaits limit (max now arrival.time + arrival.writing) := by
            rw [← hnow, ← h.timeout]
            exact hawaits
          obtain ⟨later, u, hlater, hlast⟩ := ih hagain hended
          exact ⟨_, u, (hwaited.trans hmore).trans hlater, hlast⟩
        · cases hended
          have hfail := Bridge.Step.writeErr (s := { s.given arrival.item arrival.time with
              inbox := [], clientPump := .writing [] bytes
              now := (s.given arrival.item arrival.time).now + arrival.writing })
            (Bridge.running_of h.unended fun _ hidled => (nomatch hidled)) (.inl ⟨_, _, rfl⟩)
          exact ⟨_, _, hwaited.snoc hfail, congrArg (· + arrival.writing) hnow, rfl⟩
      dsimp only at hended
      split at hended
      · rename_i hitem
        have hinbox : (s.given arrival.item arrival.time).inbox = [none] := by
          rw [Bridge.given, h.unread, hitem]
          rfl
        cases hended
        exact ⟨_, _, hrun.snoc (.broken hrunning h.pump hinbox), hnow, rfl⟩
      · rename_i frame hitem
        cases hended
        exact ⟨_, _, hrun.snoc (.close hrunning h.pump (h.given_inbox _ hitem)), hnow, rfl⟩
      · rename_i bytes hitem
        exact hcontrol _ bytes hitem (.inl rfl) hended
      · rename_i bytes hitem
        exact hcontrol _ bytes hitem (.inr rfl) hended
      · rename_i bytes hitem
        exact hpayload _ bytes hitem rfl hended
      · rename_i bytes hitem
        exact hpayload _ bytes hitem rfl hended

/-- How the client pump ends against a clock is how a bridge can end. -/
theorem pump_bridges (written : List UInt8)
    (h : (pumpClientToBrowser limit now arrivals).ended = some (exit, time)) :
    ∃ as t, (Bridge.system (.new limit now written)).Run (.new limit now written) as t ∧
      t.now = time ∧ t.ended = some exit.ended :=
  pumped_bridges _ ⟨rfl, rfl, rfl, rfl, rfl⟩ h

theorem pump_nil (dur now : Nat) :
    pumpClientToBrowser (some dur) now [] = ⟨[], some (.idleTimeout dur, now + dur)⟩ := rfl

theorem pump_late (h : now + dur < arrival.time) :
    pumpClientToBrowser (some dur) now (arrival :: arrivals) =
      ⟨[], some (.idleTimeout dur, now + dur)⟩ := by
  simp [pumpClientToBrowser, Option.filter, h]

theorem pump_ended (h : arrival.time ≤ now + dur) (hitem : arrival.item = none) :
    pumpClientToBrowser (some dur) now (arrival :: arrivals) =
      ⟨[], some (.clientClosed, max now arrival.time)⟩ := by
  simp [pumpClientToBrowser, Option.filter, Nat.not_lt.mpr h, hitem]

theorem pump_close (h : arrival.time ≤ now + dur) (hitem : arrival.item = some (.close frame)) :
    pumpClientToBrowser (some dur) now (arrival :: arrivals) =
      ⟨[], some (closeExit frame, max now arrival.time)⟩ := by
  simp [pumpClientToBrowser, Option.filter, Nat.not_lt.mpr h, hitem]

theorem pump_control (h : arrival.time ≤ now + dur)
    (hitem : arrival.item = some (.ping bytes) ∨ arrival.item = some (.pong bytes)) :
    pumpClientToBrowser (some dur) now (arrival :: arrivals) =
      pumpClientToBrowser (some dur) (max now arrival.time) arrivals := by
  rcases hitem with hitem | hitem
  · simp [pumpClientToBrowser, Option.filter, Nat.not_lt.mpr h, hitem]
  · simp [pumpClientToBrowser, Option.filter, Nat.not_lt.mpr h, hitem]

theorem pump_message (h : arrival.time ≤ now + dur)
    (hitem : arrival.item = some (.text bytes) ∨ arrival.item = some (.binary bytes)) :
    pumpClientToBrowser (some dur) now (arrival :: arrivals) =
      let taken := max now arrival.time
      if arrival.written then
        (pumpClientToBrowser (some dur) (taken + arrival.writing) arrivals).after
          ⟨taken, taken + arrival.writing⟩
      else ⟨[⟨taken, taken + arrival.writing⟩], some (.clientClosed, taken + arrival.writing)⟩ := by
  rcases hitem with hitem | hitem
  · simp [pumpClientToBrowser, Option.filter, Nat.not_lt.mpr h, hitem]
  · simp [pumpClientToBrowser, Option.filter, Nat.not_lt.mpr h, hitem]

/-- Where a pump stands that began to wait for a message at `since`, and has taken the pings and
pongs `controls` since: it waits from `now` on. -/
structure Waits (dur since now : Nat) (controls : List Nat) (arrivals : List Arrival) : Prop where
  le : since ≤ now
  moved : now = since ∨ ∀ arrival ∈ arrivals, now ≤ arrival.time
  silent : Silent dur since controls ↔ now = since

theorem Waits.start (dur since : Nat) (arrivals : List Arrival) :
    Waits dur since since [] arrivals :=
  ⟨Nat.le_refl since, .inl rfl, fun _ => rfl, fun _ _ hmem => absurd hmem List.not_mem_nil⟩

theorem Waits.control (h : Waits dur since now controls (arrival :: arrivals))
    (hle : arrival.time ≤ now + dur) (hlater : ∀ other ∈ arrivals, arrival.time ≤ other.time) :
    Waits dur since (max now arrival.time) (controls ++ [arrival.time]) arrivals := by
  have hsince := h.le
  refine ⟨Nat.le_trans h.le (Nat.le_max_left _ _), ?_, ?_⟩
  · by_cases hsame : arrival.time ≤ now
    · rw [Nat.max_eq_left hsame]
      exact h.moved.imp_right fun hmoved other hmem => hmoved other (List.mem_cons_of_mem _ hmem)
    · rw [Nat.max_eq_right (Nat.le_of_not_le hsame)]
      exact .inr hlater
  · rw [silent_append, h.silent]
    omega

/-- The wait for what is taken next began at the last message exactly if it is taken in time. -/
theorem Waits.taken (h : Waits dur since now controls (arrival :: arrivals))
    (hle : arrival.time ≤ now + dur) :
    (max now arrival.time ≤ since + dur ↔ arrival.time ≤ since + dur) ∧
      (since + dur < arrival.time → ¬Silent dur since controls) ∧
      (arrival.time ≤ since + dur → max now arrival.time = max since arrival.time) := by
  have hsince := h.le
  have hmoved : now = since ∨ now ≤ arrival.time :=
    h.moved.imp_right fun hmoved => hmoved arrival List.mem_cons_self
  rw [h.silent]
  omega

theorem pump_clocked_iff (hinOrder : arrivals.Pairwise fun a b => a.time ≤ b.time)
    (h : Waits dur since now controls arrivals) :
    (pumpClientToBrowser (some dur) now arrivals).ClockedByMessages dur since ↔
      Undisturbed dur since controls arrivals := by
  induction arrivals generalizing since now controls with
  | nil => rw [pump_nil, Pumped.clocked_idle, Undisturbed, h.silent]
  | cons arrival arrivals ih =>
    obtain ⟨hlater, hinOrder⟩ := List.pairwise_cons.mp hinOrder
    by_cases hle : arrival.time ≤ now + dur
    · obtain ⟨htime, hsilent, hsame⟩ := h.taken hle
      have hclosed : ∀ exit : PumpExit, exit ≠ .idleTimeout dur →
          (Pumped.ClockedByMessages dur since ⟨[], some (exit, max now arrival.time)⟩ ↔
            (since + dur < arrival.time → Silent dur since controls)) := by
        intro exit hexit
        rw [Pumped.clocked_closed hexit, htime]
        constructor
        · intro hin hlate
          exact absurd hin (Nat.not_le.mpr hlate)
        · intro himp
          by_contra hlate
          exact hsilent (Nat.not_le.mp hlate) (himp (Nat.not_le.mp hlate))
      have hmessage : ∀ bytes, arrival.item = some (.text bytes) ∨ arrival.item =
          some (.binary bytes) →
          ((pumpClientToBrowser (some dur) now (arrival :: arrivals)).ClockedByMessages dur since ↔
            if since + dur < arrival.time then Silent dur since controls
            else if arrival.written then
              Undisturbed dur (max since arrival.time + arrival.writing) [] arrivals
            else True) := by
        intro bytes hitem
        rw [pump_message hle hitem]
        dsimp only
        by_cases hlate : since + dur < arrival.time
        · rw [if_pos hlate]
          have hnot : ¬max now arrival.time ≤ since + dur := by
            rw [htime]
            exact Nat.not_le.mpr hlate
          refine ⟨fun hclocked => absurd ?_ hnot, fun hquiet => absurd hquiet (hsilent hlate)⟩
          split at hclocked
          · exact (Pumped.clocked_after.mp hclocked).1
          · exact hclocked.taken [] _ _ rfl
        · rw [if_neg hlate]
          have hin := htime.mpr (Nat.not_lt.mp hlate)
          rw [← hsame (Nat.not_lt.mp hlate)]
          split
          · rw [Pumped.clocked_after]
            have hrest := ih hinOrder
              (Waits.start dur (max now arrival.time + arrival.writing) arrivals)
            exact ⟨fun hboth => hrest.mp hboth.2, fun hun => ⟨hin, hrest.mpr hun⟩⟩
          · have hlast : Pumped.ClockedByMessages dur since
                (Pumped.after ⟨[], some (.clientClosed, max now arrival.time + arrival.writing)⟩
                  ⟨max now arrival.time, max now arrival.time + arrival.writing⟩) := by
              rw [Pumped.clocked_after, Pumped.clocked_closed (by simp)]
              exact ⟨hin, Nat.le_add_right _ _⟩
            exact ⟨fun _ => trivial, fun _ => hlast⟩
      cases hitem : arrival.item with
      | none =>
        rw [pump_ended hle hitem, hclosed _ (by simp)]
        simp only [Undisturbed, hitem]
      | some message =>
        cases message with
        | text bytes =>
          rw [hmessage bytes (.inl hitem)]
          simp only [Undisturbed, hitem]
        | binary bytes =>
          rw [hmessage bytes (.inr hitem)]
          simp only [Undisturbed, hitem]
        | ping bytes =>
          rw [pump_control hle (.inl hitem), ih hinOrder (h.control hle hlater)]
          simp only [Undisturbed, hitem]
        | pong bytes =>
          rw [pump_control hle (.inr hitem), ih hinOrder (h.control hle hlater)]
          simp only [Undisturbed, hitem]
        | close frame =>
          rw [pump_close hle hitem, hclosed _ (closeExit_ne_idleTimeout frame)]
          simp only [Undisturbed, hitem]
    · have hlate : now + dur < arrival.time := Nat.not_le.mp hle
      have hsince : since + dur ≤ now + dur := Nat.add_le_add_right h.le dur
      rw [pump_late hlate, Pumped.clocked_idle, undisturbed_late, h.silent]
      intro other hmem
      cases hmem with
      | head => exact Nat.lt_of_le_of_lt hsince hlate
      | tail _ hmem =>
        exact Nat.lt_of_le_of_lt hsince (Nat.lt_of_lt_of_le hlate (hlater other hmem))

/-- A client's messages are what its idle timeout is counted from if and only if no ping or pong
comes within a timeout that is over without a message. -/
theorem idle_clock_iff (dur start : Nat) (stream : ClientStream) :
    (pumpClientToBrowser (some dur) start stream.arrivals).ClockedByMessages dur start ↔
      Undisturbed dur start [] stream.arrivals :=
  pump_clocked_iff stream.inOrder (.start dur start stream.arrivals)

end

/-- A client that sends a ping after half of the timeout, and nothing more. -/
def onePing : ClientStream where
  arrivals := [⟨500, some (.ping []), 0, true⟩]
  inOrder := List.pairwise_singleton _ _

theorem ping_keeps_client :
    ¬(pumpClientToBrowser (some 1000) 0 onePing.arrivals).ClockedByMessages 1000 0 := by
  intro h
  have hidle := h.idle 1500 (by decide)
  exact absurd hidle (by decide)

end BrowserServe
