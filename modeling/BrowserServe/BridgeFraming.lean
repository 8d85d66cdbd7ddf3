import BrowserServe.BridgeStep
import BrowserServe.Library.Framing

namespace BrowserServe
open Library
set_option autoImplicit true

/-- The bytes of a client message that are on the pipe without its terminator. -/
def ClientPump.unterminated : ClientPump → List UInt8
  | .writing done _ | .terminating done => done
  | _ => []

def BridgeAction.NulFree : BridgeAction → Prop
  | .arrive (some message) => ∀ bytes, message.payload = some bytes → 0 ∉ bytes
  | _ => True

/-- The bridge with clients whose messages have no NUL byte. -/
def Bridge.nulFreeSystem (start : Bridge) : System Bridge BridgeAction :=
  (Bridge.system start).guarded fun _ a _ => a.NulFree

def Bridge.HandedBack (s : Bridge) : Prop := ∃ how, s.ended = some how ∧ how.reclaims = true

/-- Each client message is on the pipe as a whole with its terminator or not at all, and a
command written next is a frame of its own. -/
structure Bridge.OnBoundary (start : List UInt8) (s : Bridge) : Prop where
  messages : s.written = start ++ s.sent.flatMap (· ++ [0])
  unfinished : restOf 0 s.written = []
  command : ∀ command, 0 ∉ command →
    framesOf 0 (s.written ++ command ++ [0]) = framesOf 0 s.written ++ [command]

/-- What the pipe holds after its last terminator between two messages of the client. -/
def Bridge.unfinishedBefore (start : List UInt8) (s : Bridge) : List UInt8 :=
  if s.sent = [] then restOf 0 start else []

/-- A step that does not end the bridge with a client message written in part, nor before
any client message ended what the pipe held unfinished. -/
def Bridge.EndsBetween (start : List UInt8) (s : Bridge) (_ : BridgeAction) (t : Bridge) : Prop :=
  s.ended = none → t.HandedBack →
    s.clientPump.unterminated = [] ∧ (restOf 0 start = [] ∨ s.sent ≠ [])

/-- What the pumps keep of the bytes written: whole messages, then what is unterminated. -/
structure Bridge.Framed (start : List UInt8) (s : Bridge) : Prop where
  inbox : ∀ message bytes, some message ∈ s.inbox → message.payload = some bytes → 0 ∉ bytes
  writing : ∀ done rest, s.clientPump = .writing done rest → 0 ∉ rest
  messages : s.written = start ++ s.sent.flatMap (· ++ [0]) ++ s.clientPump.unterminated
  unfinished : restOf 0 s.written = s.unfinishedBefore start ++ s.clientPump.unterminated

theorem Bridge.unfinishedBefore_eq_nil {s : Bridge} :
    s.unfinishedBefore start = [] ↔ restOf 0 start = [] ∨ s.sent ≠ [] := by
  unfold unfinishedBefore
  by_cases hsent : s.sent = []
  · simp [hsent]
  · simp [hsent]

theorem Bridge.Framed.onBoundary_iff {s : Bridge} (h : s.Framed start) :
    s.OnBoundary start ↔
      s.clientPump.unterminated = [] ∧ (restOf 0 start = [] ∨ s.sent ≠ []) := by
  rw [← unfinishedBefore_eq_nil]
  constructor
  · intro hb
    have hnone := h.unfinished.symm.trans hb.unfinished
    obtain ⟨hbefore, hpart⟩ := List.append_eq_nil_iff.1 hnone
    exact ⟨hpart, hbefore⟩
  · intro hnone
    obtain ⟨hpart, hbefore⟩ := hnone
    have hmessages := h.messages
    have hunfinished := h.unfinished
    rw [hpart, List.append_nil] at hmessages hunfinished
    rw [hbefore] at hunfinished
    refine ⟨hmessages, hunfinished, ?_⟩
    intro command hcommand
    rw [framesOf_send 0 hcommand, hunfinished, List.nil_append]

/-- A step keeps what is written: whole messages, then what is unterminated. -/
theorem Bridge.Step.written (h : Bridge.Step s a t)
    (hs : s.written = start ++ s.sent.flatMap (· ++ [0]) ++ s.clientPump.unterminated) :
    t.written = start ++ t.sent.flatMap (· ++ [0]) ++ t.clientPump.unterminated := by
  cases h with
  | message hr hp =>
    rw [hp] at hs
    exact hs
  | control hr hp =>
    rw [hp] at hs
    exact hs
  | @write _ done rest count hr hp =>
    rw [hp] at hs
    show s.written ++ rest.take count = _
    rw [hs, List.append_assoc]
    rfl
  | writeAll hr hp =>
    rw [hp] at hs
    exact hs
  | @terminate _ done hr hp =>
    rw [hp] at hs
    show s.written ++ [0] = start ++ (s.sent ++ [done]).flatMap (· ++ [0]) ++ []
    rw [hs]
    simp [ClientPump.unterminated]
  | idle hr hp =>
    rw [hp] at hs
    exact hs
  | _ => exact hs

theorem Bridge.Step.framed (h : Bridge.Step s a t) (ha : a.NulFree) (hf : s.Framed start) :
    t.Framed start := by
  have hrest {item : Option Message} {rest : List (Option Message)} (hi : s.inbox = item :: rest)
      (message : Message) (bytes : List UInt8) (hmem : some message ∈ rest)
      (hm : message.payload = some bytes) : 0 ∉ bytes :=
    hf.inbox message bytes (by rw [hi]; exact List.mem_cons_of_mem _ hmem) hm
  have hmessages := h.written hf.messages
  have hunfinished := hf.unfinished
  cases h with
  | arrive =>
    refine ⟨?_, hf.writing, hmessages, hunfinished⟩
    intro message bytes hmem hm
    cases List.mem_append.1 hmem with
    | inl hmem => exact hf.inbox message bytes hmem hm
    | inr hmem =>
      cases List.mem_singleton.1 hmem
      exact ha bytes hm
  | message hr hp hi hm =>
    rw [hp] at hunfinished
    refine ⟨hrest hi, ?_, hmessages, hunfinished⟩
    intro done rest hw
    cases hw
    exact hf.inbox _ _ (by rw [hi]; exact List.mem_cons_self) hm
  | control hr hp hi hm =>
    rw [hp] at hunfinished
    exact ⟨hrest hi, fun done rest hw => (nomatch hw), hmessages, hunfinished⟩
  | close hr hp hi => exact ⟨hrest hi, hf.writing, hmessages, hunfinished⟩
  | broken hr hp hi => exact ⟨hrest hi, hf.writing, hmessages, hunfinished⟩
  | @write _ done rest count hr hp _ _ =>
    have hnul := hf.writing done rest hp
    have htake : 0 ∉ rest.take count := fun hmem => hnul (List.mem_of_mem_take hmem)
    rw [hp] at hunfinished
    refine ⟨hf.inbox, ?_, hmessages, ?_⟩
    · intro _ _ hw hmem
      cases hw
      exact hnul (List.mem_of_mem_drop hmem)
    · show restOf 0 (s.written ++ rest.take count) = _
      rw [restOf_append 0 htake, hunfinished, List.append_assoc]
      rfl
  | writeAll hr hp =>
    rw [hp] at hunfinished
    exact ⟨hf.inbox, fun done rest hw => (nomatch hw), hmessages, hunfinished⟩
  | @terminate _ done hr hp =>
    refine ⟨hf.inbox, fun done rest hw => (nomatch hw), hmessages, ?_⟩
    show restOf 0 (s.written ++ [0]) = _
    rw [restOf_terminate]
    simp [unfinishedBefore, ClientPump.unterminated]
  | idle hr hp =>
    rw [hp] at hunfinished
    exact ⟨hf.inbox, fun done rest hw => (nomatch hw), hmessages, hunfinished⟩
  | _ => exact ⟨hf.inbox, hf.writing, hmessages, hunfinished⟩

theorem Bridge.framed (h : (Bridge.nulFreeSystem (.new timeout begun start)).Reachable s) :
    s.Framed start := by
  apply h.invariant ?_ fun _ _ _ _ hi hs => hs.1.framed hs.2 hi
  intro _ hinit
  cases hinit
  exact ⟨fun message bytes hmem => (nomatch hmem), fun done rest hp => (nomatch hp),
    by simp [new, ClientPump.unterminated],
    by simp [new, unfinishedBefore, ClientPump.unterminated]⟩

/-- The messages the client pump read and did not write as a whole. -/
def ClientPump.current : ClientPump → List (List UInt8)
  | .writing done rest => [done ++ rest]
  | .terminating done => [done]
  | _ => []

def arrivedPayload : BridgeAction → Option (List UInt8)
  | .arrive item => item.bind Message.payload
  | _ => none

/-- The messages a bridge read or will read, in the order they arrived. -/
def Bridge.messages (s : Bridge) : List (List UInt8) :=
  s.sent ++ s.clientPump.current ++ s.inbox.filterMap (·.bind Message.payload)

theorem Bridge.Step.messages (h : Bridge.Step s a t) :
    t.messages = s.messages ++ (arrivedPayload a).toList := by
  cases h with
  | @arrive _ item =>
    cases hitem : item.bind Message.payload with
    | none => simp [Bridge.messages, arrivedPayload, hitem]
    | some bytes => simp [Bridge.messages, arrivedPayload, hitem]
  | message hr hp hi hm => simp [Bridge.messages, arrivedPayload, ClientPump.current, hp, hi, hm]
  | control hr hp hi hm =>
    rcases hm with rfl | rfl
    · simp [Bridge.messages, arrivedPayload, ClientPump.current, hp, hi, Message.payload,
        List.filterMap_cons]
    · simp [Bridge.messages, arrivedPayload, ClientPump.current, hp, hi, Message.payload,
        List.filterMap_cons]
  | close hr hp hi =>
    simp [Bridge.messages, arrivedPayload, hi, Message.payload, List.filterMap_cons]
  | broken hr hp hi => simp [Bridge.messages, arrivedPayload, hi]
  | write hr hp => simp [Bridge.messages, arrivedPayload, ClientPump.current, hp]
  | writeAll hr hp => simp [Bridge.messages, arrivedPayload, ClientPump.current, hp]
  | terminate hr hp => simp [Bridge.messages, arrivedPayload, ClientPump.current, hp]
  | idle hr hp => simp [Bridge.messages, arrivedPayload, ClientPump.current, hp]
  | _ => exact (List.append_nil _).symm

theorem Bridge.run_messages
    (h : (Bridge.system (.new timeout begun start)).Run (.new timeout begun start) as s) :
    s.messages = as.filterMap arrivedPayload := by
  induction h with
  | nil => rfl
  | @snoc as _ a _ _ hst ih =>
    rw [hst.messages, ih, List.filterMap_append]
    cases harrived : arrivedPayload a with
    | none => simp [harrived]
    | some bytes => simp [harrived]

/-- A bridge that has ended does not move its client pump nor send. -/
theorem Bridge.Step.after_end (h : Bridge.Step s a t) (he : s.ended ≠ none) :
    t.ended = s.ended ∧ t.clientPump = s.clientPump ∧ t.sent = s.sent := by
  cases h with
  | tick => exact ⟨rfl, rfl, rfl⟩
  | arrive => exact ⟨rfl, rfl, rfl⟩
  | emit => exact ⟨rfl, rfl, rfl⟩
  | idleClosed hp hnone => exact absurd hnone he
  | message hr => exact absurd hr.1 he
  | control hr => exact absurd hr.1 he
  | close hr => exact absurd hr.1 he
  | broken hr => exact absurd hr.1 he
  | write hr => exact absurd hr.1 he
  | writeAll hr => exact absurd hr.1 he
  | terminate hr => exact absurd hr.1 he
  | writeErr hr => exact absurd hr.1 he
  | idle hr => exact absurd hr.1 he
  | recv hr => exact absurd hr.1 he
  | recvErr hr => exact absurd hr.1 he
  | delivered hr => exact absurd hr.1 he
  | sendErr hr => exact absurd hr.1 he
  | closed hr => exact absurd hr.1 he

/-- The step that ends a bridge leaves its client pump where it was. -/
theorem Bridge.Step.ends (h : Bridge.Step s a t) (hs : s.ended = none) (ht : t.ended ≠ none) :
    t.clientPump = s.clientPump ∧ t.sent = s.sent := by
  cases h with
  | close => exact ⟨rfl, rfl⟩
  | broken => exact ⟨rfl, rfl⟩
  | writeErr => exact ⟨rfl, rfl⟩
  | idleClosed => exact ⟨rfl, rfl⟩
  | sendErr => exact ⟨rfl, rfl⟩
  | closed => exact ⟨rfl, rfl⟩
  | _ => exact absurd hs ht

theorem Bridge.HandedBack.ended {s : Bridge} (h : s.HandedBack) : s.ended ≠ none := by
  obtain ⟨how, he, _⟩ := h
  rw [he]
  exact Option.some_ne_none how

/-- A step keeps the hand-back on a boundary if and only if it does not end the bridge with
a message written in part. -/
theorem Bridge.Step.boundary_iff (h : Bridge.Step s a t) (hs : s.Framed start)
    (ht : t.Framed start) :
    (t.HandedBack → t.OnBoundary start) ↔
      (s.HandedBack → s.OnBoundary start) ∧ s.EndsBetween start a t := by
  rw [hs.onBoundary_iff, ht.onBoundary_iff]
  by_cases he : s.ended = none
  · have hnot : ¬ s.HandedBack := fun hback => hback.ended he
    constructor
    · intro hgood
      refine ⟨fun hback => (hnot hback).elim, ?_⟩
      intro _ hback
      obtain ⟨hpump, hsent⟩ := h.ends he hback.ended
      rw [← hpump, ← hsent]
      exact hgood hback
    · intro hboth hback
      obtain ⟨hpump, hsent⟩ := h.ends he hback.ended
      rw [hpump, hsent]
      exact hboth.2 he hback
  · obtain ⟨hended, hpump, hsent⟩ := h.after_end he
    have hsame : t.HandedBack ↔ s.HandedBack := by simp only [HandedBack, hended]
    rw [hsame, hpump, hsent]
    constructor
    · intro hgood
      exact ⟨hgood, fun hnone => (he hnone).elim⟩
    · intro hboth
      exact hboth.1

/-- Over every run of a bridge whose clients send no NUL byte: the messages written as a
whole are the first that arrived, and the pipe is on a frame boundary when it is handed back
if and only if no step of the run ends the bridge with a client message written in part, or
before any client message ended what the pipe held unfinished when the bridge got it. -/
theorem handed_back_on_boundary_iff
    (h : (Bridge.nulFreeSystem (.new timeout begun start)).Run (.new timeout begun start) as s) :
    s.sent <+: as.filterMap arrivedPayload ∧
      ((s.HandedBack → s.OnBoundary start) ↔
        ((Bridge.nulFreeSystem (.new timeout begun start)).guarded
          (Bridge.EndsBetween start)).Run (.new timeout begun start) as s) := by
  constructor
  · rw [← Bridge.run_messages h.unguarded, Bridge.messages, List.append_assoc]
    exact List.prefix_append _ _
  · apply h.guarded_iff (I := fun s => s.HandedBack → s.OnBoundary start) (.init rfl)
    · intro hback
      exact absurd rfl hback.ended
    · intro s a t hr hst
      exact hst.1.boundary_iff (Bridge.framed hr) (Bridge.framed (hr.step hst))

/-- A client message that is written in two parts and ended, and then a normal close. -/
theorem handed_back_on_boundary_iff_finished :
    ∃ as s, s.ended = some .clientFinished ∧ s.written = [97, 98, 0] ∧
      s.sent <+: as.filterMap arrivedPayload ∧
      ((s.HandedBack → s.OnBoundary []) ↔
        ((Bridge.nulFreeSystem (.new none 0 [])).guarded (Bridge.EndsBetween [])).Run
          (.new none 0 []) as s) := by
  have hrun : (Bridge.nulFreeSystem (.new none 0 [])).Run (.new none 0 [])
      [.arrive (some (.text [97, 98])), .next, .write 1, .write 1, .write 0, .terminate,
        .arrive (some (.close none)), .next] _ :=
    .cons ⟨.arrive, by rintro _ ⟨⟩; decide⟩ <|
      .cons ⟨.message ⟨rfl, fun _ hp => (nomatch hp)⟩ rfl rfl rfl, trivial⟩ <|
      .cons ⟨.write ⟨rfl, fun _ hp => (nomatch hp)⟩ rfl (by decide) (by decide), trivial⟩ <|
      .cons ⟨.write ⟨rfl, fun _ hp => (nomatch hp)⟩ rfl (by decide) (by decide), trivial⟩ <|
      .cons ⟨.writeAll ⟨rfl, fun _ hp => (nomatch hp)⟩ rfl, trivial⟩ <|
      .cons ⟨.terminate ⟨rfl, fun _ hp => (nomatch hp)⟩ rfl, trivial⟩ <|
      .cons ⟨.arrive, by rintro _ ⟨⟩⟩ <|
      .single ⟨.close ⟨rfl, fun _ hp => (nomatch hp)⟩ rfl rfl, trivial⟩
  exact ⟨_, _, rfl, rfl, handed_back_on_boundary_iff hrun⟩

/-- The browser takes one byte of a two-byte message, and sending a frame to the client
fails: the bridge hands the pipe back within the message, and the next command joins it. -/
theorem message_cut_by_send_error :
    ∃ as s, (Bridge.nulFreeSystem (.new none 0 [])).Run (.new none 0 []) as s ∧
      s.ended = some .clientGone ∧ restOf 0 s.written = [97] ∧
      framesOf 0 (s.written ++ [99] ++ [0]) = [[97, 99]] ∧ ¬ s.OnBoundary [] := by
  have hrun : (Bridge.nulFreeSystem (.new none 0 [])).Run (.new none 0 [])
      [.arrive (some (.text [97, 98])), .next, .write 1, .emit [98], .recv, .sendErr] _ :=
    .cons ⟨.arrive, by rintro _ ⟨⟩; decide⟩ <|
      .cons ⟨.message ⟨rfl, fun _ hp => (nomatch hp)⟩ rfl rfl rfl, trivial⟩ <|
      .cons ⟨.write ⟨rfl, fun _ hp => (nomatch hp)⟩ rfl (by decide) (by decide), trivial⟩ <|
      .cons ⟨.emit, trivial⟩ <|
      .cons ⟨.recv ⟨rfl, fun _ hp => (nomatch hp)⟩ rfl rfl, trivial⟩ <|
      .single ⟨.sendErr ⟨rfl, fun _ hp => (nomatch hp)⟩ rfl, trivial⟩
  refine ⟨_, _, hrun, rfl, by decide, by decide, ?_⟩
  intro hb
  exact absurd hb.unfinished (by decide)

end BrowserServe
