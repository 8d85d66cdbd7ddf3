import Mathlib.Data.List.Induction
import BrowserServe.BridgeFraming

namespace BrowserServe
open Library
set_option autoImplicit true

/-- What the browser reads of a client's messages: each as one frame, in their order, and all of
them once the client pump waits for more. -/
structure Bridge.OneEach (start : List UInt8) (messages : List (List UInt8)) (s : Bridge) :
    Prop where
  inOrder : ∃ read, read <+: messages ∧ framesOf 0 s.written = framesOf 0 start ++ read
  all : ∀ since, s.ended = none → s.clientPump = .next since → s.inbox = [] →
    framesOf 0 s.written = framesOf 0 start ++ messages

/-- The messages that can be framed, over a pipe that ends with a whole message. -/
def Framable (start : List UInt8) (messages : List (List UInt8)) : Prop :=
  (∀ message ∈ messages, 0 ∉ message) ∧ (messages = [] ∨ restOf 0 start = [])

theorem Bridge.written_eq
    (h : (Bridge.system (.new timeout begun start)).Run (.new timeout begun start) as s) :
    s.written = start ++ s.sent.flatMap (· ++ [0]) ++ s.clientPump.unterminated := by
  refine h.preserves ?_ fun s a t hs hst => hst.written hs
  simp [new, ClientPump.unterminated]

theorem ClientPump.unterminated_current {pump : ClientPump}
    (h : ∀ message ∈ pump.current, 0 ∉ message) : 0 ∉ pump.unterminated := by
  cases pump with
  | next since => exact List.not_mem_nil
  | writing done rest =>
    intro hmem
    exact h (done ++ rest) List.mem_cons_self (List.mem_append_left rest hmem)
  | terminating done => exact h done List.mem_cons_self
  | idled dur => exact List.not_mem_nil

theorem Bridge.oneEach_of_framable
    (h : (Bridge.system (.new timeout begun start)).Run (.new timeout begun start) as s)
    (hframable : Framable start (as.filterMap arrivedPayload)) :
    s.OneEach start (as.filterMap arrivedPayload) := by
  obtain ⟨hfree, hstart⟩ := hframable
  have hmessages := Bridge.run_messages h
  rw [← hmessages, Bridge.messages] at hfree hstart ⊢
  have hsent : ∀ message ∈ s.sent, 0 ∉ message := by
    intro message hmem
    exact hfree message (List.mem_append_left _ (List.mem_append_left _ hmem))
  have hcurrent : ∀ message ∈ s.clientPump.current, 0 ∉ message := by
    intro message hmem
    exact hfree message (List.mem_append_left _ (List.mem_append_right _ hmem))
  have htail := ClientPump.unterminated_current hcurrent
  have hbefore : s.sent = [] ∨ restOf 0 start = [] := by
    rcases hstart with hnone | hrest
    · exact .inl (List.append_eq_nil_iff.mp (List.append_eq_nil_iff.mp hnone).1).1
    · exact .inr hrest
  have hframes := (framesOf_messages_iff 0 start s.sent _).mpr ⟨hsent, htail, hbefore⟩
  rw [← Bridge.written_eq h] at hframes
  constructor
  · refine ⟨s.sent, ?_, hframes⟩
    rw [List.append_assoc]
    exact List.prefix_append _ _
  · intro since _ hpump hinbox
    rw [hframes, hpump, hinbox]
    simp [ClientPump.current]

/-- A bridge whose client has sent messages, all of them written. -/
def Bridge.served (start : List UInt8) (messages : List (List UInt8)) : Bridge :=
  { Bridge.new none 0 start with
    written := start ++ messages.flatMap (· ++ [0])
    sent := messages }

/-- One message more is read, written and ended. -/
theorem Bridge.served_next (start : List UInt8) (messages : List (List UInt8))
    (message : List UInt8) :
    ∃ as, as.filterMap arrivedPayload = [message] ∧
      (Bridge.system (.new none 0 start)).Run (.served start messages) as
        (.served start (messages ++ [message])) := by
  have hrunning : ∀ s : Bridge, s.ended = none → (∀ dur, s.clientPump ≠ .idled dur) → s.Running :=
    fun s hended hidled => ⟨hended, hidled⟩
  let read : Bridge := { served start messages with clientPump := .writing [] message }
  let written : Bridge :=
    { served start messages with
      written := start ++ messages.flatMap (· ++ [0]) ++ message
      clientPump := .writing message [] }
  have hread : (Bridge.system (.new none 0 start)).Run (served start messages)
      [.arrive (some (.binary message)), .next] read :=
    .cons .arrive <| .single <|
      .message (hrunning _ rfl fun _ hp => (nomatch hp)) rfl rfl rfl
  have hwrite : ∃ as : List BridgeAction, as.filterMap arrivedPayload = [] ∧
      (Bridge.system (.new none 0 start)).Run read as written := by
    cases message with
    | nil =>
      refine ⟨[], rfl, ?_⟩
      have hsame : read = written := by simp [read, written, served]
      rw [hsame]
      exact .nil
    | cons b bytes =>
      have hstep : Bridge.Step read (.write (b :: bytes).length) _ :=
        .write (hrunning read rfl fun _ hp => (nomatch hp)) rfl (Nat.succ_pos _) (Nat.le_refl _)
      rw [List.take_length, List.drop_length] at hstep
      exact ⟨_, rfl, .single hstep⟩
  obtain ⟨as, hnone, hwrite⟩ := hwrite
  have hend : (Bridge.system (.new none 0 start)).Run written [.write 0, .terminate]
      (served start (messages ++ [message])) := by
    have hlast : served start (messages ++ [message]) =
        { served start messages with
          written := start ++ messages.flatMap (· ++ [0]) ++ message ++ [0]
          sent := messages ++ [message] } := by
      simp [served]
    rw [hlast]
    exact .cons (.writeAll (hrunning _ rfl fun _ hp => (nomatch hp)) rfl) <|
      .single (.terminate (hrunning _ rfl fun _ hp => (nomatch hp)) rfl)
  refine ⟨_, ?_, (hread.trans hwrite).trans hend⟩
  rw [List.filterMap_append, List.filterMap_append, hnone]
  rfl

theorem Bridge.run_served (start : List UInt8) (messages : List (List UInt8)) :
    ∃ as, as.filterMap arrivedPayload = messages ∧
      (Bridge.system (.new none 0 start)).Run (.new none 0 start) as (.served start messages) := by
  induction messages using List.reverseRecOn with
  | nil =>
    have hnew : served start [] = .new none 0 start := by simp [served, new]
    refine ⟨[], rfl, ?_⟩
    rw [hnew]
    exact .nil
  | append_singleton messages message ih =>
    obtain ⟨as, hsent, hrun⟩ := ih
    obtain ⟨more, hmessage, hnext⟩ := served_next start messages message
    exact ⟨as ++ more, by rw [List.filterMap_append, hsent, hmessage], hrun.trans hnext⟩

/-- A client's messages reach the browser one frame each, over every run in which they arrive,
exactly when none of them has a NUL byte, and nothing unfinished is on the pipe before them. -/
theorem client_messages_are_frames_iff (start : List UInt8) (messages : List (List UInt8)) :
    (∀ timeout begun as s,
      (Bridge.system (.new timeout begun start)).Run (.new timeout begun start) as s →
      as.filterMap arrivedPayload = messages → s.OneEach start messages) ↔
      Framable start messages := by
  constructor
  · intro h
    obtain ⟨as, hsent, hrun⟩ := Bridge.run_served start messages
    have hall := (h none 0 as _ hrun hsent).all 0 rfl rfl rfl
    have hframes : framesOf 0 (start ++ messages.flatMap (· ++ [0]) ++ []) =
        framesOf 0 start ++ messages := by
      rw [List.append_nil]
      exact hall
    obtain ⟨hfree, _, hstart⟩ := (framesOf_messages_iff 0 start messages []).mp hframes
    exact ⟨hfree, hstart⟩
  · intro hframable timeout begun as s hrun hsent
    rw [← hsent] at hframable ⊢
    exact Bridge.oneEach_of_framable hrun hframable

/-- A message of three bytes, the middle one a NUL: the browser reads two. -/
theorem client_message_split :
    ¬∀ timeout begun as s,
      (Bridge.system (.new timeout begun [])).Run (.new timeout begun []) as s →
      as.filterMap arrivedPayload = [[123, 0, 125]] → s.OneEach [] [[123, 0, 125]] := by
  intro h
  obtain ⟨as, hsent, hrun⟩ := Bridge.run_served [] [[123, 0, 125]]
  have hall := (h none 0 as _ hrun hsent).all 0 rfl rfl rfl
  exact absurd hall (by decide)

end BrowserServe
