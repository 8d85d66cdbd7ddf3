import BrowserServe.BridgeStep

namespace BrowserServe
open Library
set_option autoImplicit true

def emittedFrame : BridgeAction → Option (List UInt8)
  | .emit frame => some frame
  | _ => none

/-- The frame the browser pump took off the pipe and has not delivered. -/
def BrowserPump.current : BrowserPump → List (List UInt8)
  | .sending message => message.payload.toList
  | _ => []

def idleClose (dur : Nat) : Message :=
  .close (some ⟨CLOSE_IDLE_TIMEOUT, "idle-timeout after " ++ toString dur ++ "ms"⟩)

def goneClose : Message := .close (some ⟨CLOSE_BROWSER_GONE, "browser closed"⟩)

/-- The close frame that the end of a bridge puts behind the browser's messages. -/
def Bridge.farewell (s : Bridge) : List Message :=
  match s.ended with
  | some .idleTimeout => s.idleTimeout.toList.map idleClose
  | some .browserGone => [goneClose]
  | _ => []

theorem clientMessage_payload (frame : List UInt8) :
    (clientMessage frame).payload = some frame := by
  unfold clientMessage
  split <;> rfl

/-- A frame goes to the client as text exactly when it is text. -/
theorem clientMessage_text_iff (frame : List UInt8) :
    clientMessage frame = .text frame ↔ (String.fromUTF8? ⟨frame.toArray⟩).isSome = true := by
  unfold clientMessage
  split
  · rename_i h
    simp only [h]
  · rename_i h
    simp [h]

/-- Every frame of the browser is with its client as one message, in the pump's hand or still
on the pipe, in the order the browser wrote them. -/
structure Bridge.Relays (emitted : List (List UInt8)) (s : Bridge) : Prop where
  order : ∃ delivered, s.outbox = delivered.map clientMessage ++ s.farewell ∧
    emitted = delivered ++ s.browserPump.current ++ s.frames
  holds : ∀ message, s.browserPump = .sending message → ∃ frame, message = clientMessage frame
  idled : ∀ dur, s.clientPump = .idled dur → s.idleTimeout = some dur

theorem Bridge.Relays.keep {s t : Bridge} (h : s.Relays emitted) (houtbox : t.outbox = s.outbox)
    (hfarewell : t.farewell = s.farewell) (hpump : t.browserPump = s.browserPump)
    (hframes : t.frames = s.frames)
    (hidled : ∀ dur, t.clientPump = .idled dur → t.idleTimeout = some dur) : t.Relays emitted := by
  refine ⟨?_, ?_, hidled⟩
  · rw [houtbox, hfarewell, hpump, hframes]
    exact h.order
  · rw [hpump]
    exact h.holds

theorem Bridge.farewell_running {s : Bridge} (h : s.ended = none) : s.farewell = [] := by
  simp only [farewell, h]

theorem closeExit_ended (frame : Option CloseFrame) :
    (closeExit frame).ended = .clientFinished ∨ (closeExit frame).ended = .clientGone := by
  unfold closeExit
  split
  · exact .inl rfl
  · split
    · exact .inl rfl
    · exact .inr rfl

/-- A bridge that the client ends says nothing more to it. -/
theorem Bridge.farewell_client {s : Bridge}
    (h : s.ended = some .clientFinished ∨ s.ended = some .clientGone) : s.farewell = [] := by
  cases h with
  | inl h => simp only [farewell, h]
  | inr h => simp only [farewell, h]

theorem Bridge.Step.relays_quiet (h : Bridge.Step s a t) (ha : emittedFrame a = none)
    (hs : s.Relays emitted) : t.Relays emitted := by
  cases h with
  | emit => cases ha
  | tick => exact hs.keep rfl rfl rfl rfl hs.idled
  | arrive => exact hs.keep rfl rfl rfl rfl hs.idled
  | message => exact hs.keep rfl rfl rfl rfl fun dur hidled => (nomatch hidled)
  | control => exact hs.keep rfl rfl rfl rfl fun dur hidled => (nomatch hidled)
  | write => exact hs.keep rfl rfl rfl rfl fun dur hidled => (nomatch hidled)
  | writeAll => exact hs.keep rfl rfl rfl rfl fun dur hidled => (nomatch hidled)
  | terminate => exact hs.keep rfl rfl rfl rfl fun dur hidled => (nomatch hidled)
  | @close _ _ frame rest hr =>
    refine hs.keep rfl ?_ rfl rfl hs.idled
    rw [Bridge.farewell_running hr.1]
    apply Bridge.farewell_client
    cases closeExit_ended frame with
    | inl h => exact .inl (congrArg some h)
    | inr h => exact .inr (congrArg some h)
  | broken hr =>
    refine hs.keep rfl ?_ rfl rfl hs.idled
    rw [Bridge.farewell_running hr.1]
    exact Bridge.farewell_client (.inr rfl)
  | writeErr hr =>
    refine hs.keep rfl ?_ rfl rfl hs.idled
    rw [Bridge.farewell_running hr.1]
    exact Bridge.farewell_client (.inr rfl)
  | sendErr hr =>
    refine hs.keep rfl ?_ rfl rfl hs.idled
    rw [Bridge.farewell_running hr.1]
    exact Bridge.farewell_client (.inr rfl)
  | idle hr hp hi hd =>
    refine hs.keep rfl rfl rfl rfl fun dur hidled => ?_
    cases hidled
    exact hd
  | idleClosed hp he =>
    obtain ⟨delivered, hout, hall⟩ := hs.order
    refine ⟨⟨delivered, ?_, hall⟩, hs.holds, hs.idled⟩
    rw [Bridge.farewell_running he, List.append_nil] at hout
    simp [Bridge.farewell, PumpExit.ended, hs.idled _ hp, hout, idleClose]
  | recv hr hp hf =>
    obtain ⟨delivered, hout, hall⟩ := hs.order
    refine ⟨⟨delivered, hout, ?_⟩, fun message hsending => ?_, hs.idled⟩
    · rw [hall, hp, hf]
      simp [BrowserPump.current, clientMessage_payload]
    · cases hsending
      exact ⟨_, rfl⟩
  | delivered hr hp =>
    obtain ⟨delivered, hout, hall⟩ := hs.order
    obtain ⟨frame, rfl⟩ := hs.holds _ hp
    refine ⟨⟨delivered ++ [frame], ?_, ?_⟩, fun message hsending => (nomatch hsending), hs.idled⟩
    · rw [Bridge.farewell_running hr.1, List.append_nil] at hout
      simp [Bridge.farewell, hr.1, hout]
    · rw [hall, hp]
      simp [BrowserPump.current, clientMessage_payload]
  | recvErr hr hp =>
    obtain ⟨delivered, hout, hall⟩ := hs.order
    refine ⟨⟨delivered, hout, ?_⟩, fun message hsending => (nomatch hsending), hs.idled⟩
    rw [hall, hp]
    rfl
  | closed hr hp =>
    obtain ⟨delivered, hout, hall⟩ := hs.order
    refine ⟨⟨delivered, ?_, hall⟩, hs.holds, hs.idled⟩
    rw [Bridge.farewell_running hr.1, List.append_nil] at hout
    simp [Bridge.farewell, hout, goneClose]

/-- What a step puts on the pipe comes behind what is there. -/
theorem Bridge.Step.relays (h : Bridge.Step s a t) (hs : s.Relays emitted) :
    t.Relays (emitted ++ (emittedFrame a).toList) := by
  cases hframe : emittedFrame a with
  | none =>
    rw [Option.toList_none, List.append_nil]
    exact h.relays_quiet hframe hs
  | some frame =>
    cases h with
    | emit =>
      cases hframe
      obtain ⟨delivered, hout, hall⟩ := hs.order
      refine ⟨⟨delivered, hout, ?_⟩, hs.holds, hs.idled⟩
      rw [hall]
      simp only [Option.toList_some, List.append_assoc]
    | _ => cases hframe

theorem Bridge.relays
    (h : (Bridge.system (.new timeout begun start)).Run (.new timeout begun start) as s) :
    s.Relays (as.filterMap emittedFrame) := by
  induction h with
  | nil => exact ⟨⟨[], rfl, rfl⟩, fun _ hp => (nomatch hp), fun _ hp => (nomatch hp)⟩
  | @snoc as _ a _ _ hst ih =>
    have hnext := hst.relays ih
    rw [List.filterMap_append]
    cases hframe : emittedFrame a with
    | none => simpa [hframe] using hnext
    | some frame => simpa [hframe] using hnext

/-- For every run of a bridge: the client was given a first part of the frames the browser
wrote, each as one message with the frame's bytes (as text where they are text), in order and
none twice, and behind them the close frame of the bridge's end, if it has one. The rest is still
on the pipe, but for one frame at most, which the pump took off and has not delivered. -/
theorem browser_frames_in_order
    (h : (Bridge.system (.new timeout begun start)).Run (.new timeout begun start) as s) :
    ∃ delivered held, as.filterMap emittedFrame = delivered ++ held ++ s.frames ∧
      s.outbox = delivered.map clientMessage ++ s.farewell ∧ held.length ≤ 1 ∧
      (held ≠ [] → ∃ message, s.browserPump = .sending message) ∧
      ∀ frame ∈ delivered, (clientMessage frame).payload = some frame ∧
        (clientMessage frame = .text frame ↔
          (String.fromUTF8? ⟨frame.toArray⟩).isSome = true) := by
  obtain ⟨delivered, hout, hall⟩ := (Bridge.relays h).order
  refine ⟨delivered, s.browserPump.current, hall, hout, ?_, ?_, fun frame _ =>
    ⟨clientMessage_payload frame, clientMessage_text_iff frame⟩⟩
  · cases s.browserPump with
    | sending message => cases message <;> simp [BrowserPump.current, Message.payload]
    | _ => exact Nat.zero_le _
  · intro hheld
    cases hpump : s.browserPump with
    | sending message => exact ⟨message, rfl⟩
    | recv =>
      rw [hpump] at hheld
      exact absurd rfl hheld
    | closing =>
      rw [hpump] at hheld
      exact absurd rfl hheld

/-- Two frames, the second not text: the client leaves while it is being sent. -/
theorem browser_frames_in_order_cut :
    ∃ (as : List BridgeAction) (s : Bridge), s.ended = some .clientGone ∧ s.outbox = [.text [97]] ∧
      as.filterMap emittedFrame = [[97], [255], [98]] ∧ s.frames = [[98]] ∧
      ∃ delivered held, [[97], [255], [98]] = delivered ++ held ++ s.frames ∧
        s.outbox = delivered.map clientMessage ++ s.farewell ∧ held.length ≤ 1 := by
  have hrun : (Bridge.system (.new none 0 [])).Run (.new none 0 [])
      [.emit [97], .emit [255], .recv, .emit [98], .delivered, .recv, .arrive none, .next] _ :=
    .cons .emit <| .cons .emit <| .cons (.recv ⟨rfl, fun _ hp => (nomatch hp)⟩ rfl rfl) <|
      .cons .emit <| .cons (.delivered ⟨rfl, fun _ hp => (nomatch hp)⟩ rfl) <|
      .cons (.recv ⟨rfl, fun _ hp => (nomatch hp)⟩ rfl rfl) <| .cons .arrive <|
      .single (.broken ⟨rfl, fun _ hp => (nomatch hp)⟩ rfl rfl)
  obtain ⟨delivered, held, hall, hout, hheld, _⟩ := browser_frames_in_order hrun
  exact ⟨[.emit [97], .emit [255], .recv, .emit [98], .delivered, .recv, .arrive none, .next], _,
    rfl, by decide, rfl, rfl, delivered, held, hall, hout, hheld⟩

end BrowserServe
