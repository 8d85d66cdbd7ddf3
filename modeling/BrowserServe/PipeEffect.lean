import BrowserServe.PipeLife

namespace BrowserServe
open Library
set_option autoImplicit true

theorem getElem?_commands_append {commands : List Command} {n : Nat}
    (h : commands[n]? = some command) : (commands ++ more)[n]? = some command := by
  rw [List.getElem?_append_left (List.getElem?_eq_some_iff.1 h).1]
  exact h

/-- A command whose reply the server may still read. -/
def PipeLife.Outstanding (s : PipeLife) (n : Nat) : Prop :=
  n ∈ s.unanswered ∨ ∃ frame ∈ s.frames, frame.answers = some n

/-- What the browser is assumed to do: a reply carries the id of its command, an event none. -/
def Frame.Echoes (commands : List Command) (frame : Frame) : Prop :=
  match frame.answers with
  | some n => ∃ command, commands[n]? = some command ∧
      frame.body.get "id" = command.envelope.get "id"
  | none => frame.body.get "id" = none

structure PipeLife.Sound (s : PipeLife) : Prop where
  asked : ∀ n ∈ s.unanswered, n < s.commands.length
  echo : ∀ frame ∈ s.frames, frame.Echoes s.commands
  awaiting : ∀ call, s.phase.awaiting = some call →
    ∃ command, s.commands[call.serial]? = some command ∧
      messageId command.envelope = some call.id

theorem Frame.Echoes.append {frame : Frame} (h : frame.Echoes commands) :
    frame.Echoes (commands ++ more) := by
  unfold Echoes at *
  split
  · next n hn =>
    rw [hn] at h
    obtain ⟨command, hc, hid⟩ := h
    exact ⟨command, getElem?_commands_append hc, hid⟩
  · next hn =>
    rw [hn] at h
    exact h

theorem PipePhase.awaiting_after {phase : PipePhase} (h : phase.awaiting = some call)
    (reply : Except CdpError Value) : (phase.after reply).awaiting = none := by
  cases phase with
  | probing => cases reply with
    | ok => rfl
    | error e => cases e <;> rfl
  | seeding client awaiting => cases reply <;> rfl
  | cleaning client awaiting rest =>
    cases h
    rfl
  | capturing => rfl
  | _ => cases h

theorem PipeLife.Outstanding.lt {s : PipeLife} (h : s.Outstanding n) (hs : s.Sound) :
    n < s.commands.length := by
  rcases h with hn | ⟨frame, hf, hn⟩
  · exact hs.asked n hn
  · have hecho := hs.echo frame hf
    simp only [Frame.Echoes, hn] at hecho
    obtain ⟨command, hc, _⟩ := hecho
    exact (List.getElem?_eq_some_iff.1 hc).1

/-- The id of the call a step starts, if it starts one. -/
def PipePhase.callId : PipePhase → PipeAction → Option Nat
  | .seeding client none, .seedCall _ _ _ => some client.nextId
  | .cleaning client none _, .cleanCall => some client.nextId
  | .served, .capture => some CdpClient.new.nextId
  | _, _ => none

/-- What a step does to the pipe: the browser answers or emits, somebody writes a command,
or frames and commands only go away. -/
inductive PipeLife.Effect (s : PipeLife) (a : PipeAction) (t : PipeLife) : Prop
  | answered (n : Nat) (command : Command) (body : Value) (hn : n ∈ s.unanswered)
      (hc : s.commands[n]? = some command) (hid : body.get "id" = command.envelope.get "id")
      (ht : t = { s with
        unanswered := s.unanswered.erase n, frames := s.frames ++ [⟨body, some n⟩] })
  | emitted (body : Value) (hid : body.get "id" = none)
      (ht : t = { s with frames := s.frames ++ [⟨body, none⟩] })
  | sent (envelope : Value) (origin : Origin) (phase : PipePhase)
      (ht : t = s.send envelope origin phase)
      (ha : ∀ call, phase.awaiting = some call → call.serial = s.commands.length ∧
        messageId envelope = some call.id ∧ s.phase.callId a = some call.id)
      (ho : ∀ k, origin = .client k → k = s.clients ∧ s.phase = .bridged ∧ phase = .bridged)
      (hp : phase = .bridged → s.phase = .bridged)
  | read (hc : t.commands = s.commands) (hu : ∀ n ∈ t.unanswered, n ∈ s.unanswered)
      (hf : ∀ frame ∈ t.frames, frame ∈ s.frames)
      (ha : t.phase.awaiting = none ∨ t.phase.awaiting = s.phase.awaiting)

theorem PipeLife.Step.effect (h : PipeLife.Step s a t) : s.Effect a t := by
  cases h with
  | answer hn hc hid => exact .answered _ _ _ hn hc hid rfl
  | event hx hid => exact .emitted _ hid rfl
  | exit => exact .read rfl (fun n hn => (nomatch hn)) (fun frame hf => hf) (.inr rfl)
  | skip ha hf => exact .read rfl (fun n hn => hn) (fun frame h => by simp [hf, h]) (.inr rfl)
  | reply ha hf =>
    exact .read rfl (fun n hn => hn) (fun frame h => by simp [hf, h])
      (.inl (PipePhase.awaiting_after ha _))
  | @fail _ call error ha =>
    have hnone := PipePhase.awaiting_after ha (.error (.pipe error))
    exact .read rfl (fun n hn => hn) (fun frame h => h) (.inl hnone)
  | seedSend hp =>
    exact .sent _ _ _ rfl (fun call hc => (nomatch hc)) (fun k hk => (nomatch hk))
      (fun hb => (nomatch hb))
  | seedCall hp =>
    refine .sent _ _ _ rfl ?_ (fun k hk => (nomatch hk)) (fun hb => (nomatch hb))
    rintro _ ⟨⟩
    exact ⟨rfl, CdpClient.messageId_envelope _ _ _ _, by rw [hp]; rfl⟩
  | seedRecv hp hf =>
    exact .read rfl (fun n hn => hn) (fun frame h => by simp [hf, h]) (.inr rfl)
  | clientSend hp =>
    refine .sent _ _ _ rfl (fun call hc => (nomatch hc)) ?_ (fun _ => hp)
    rintro _ ⟨⟩
    exact ⟨rfl, hp, rfl⟩
  | deliver hp hf =>
    exact .read rfl (fun n hn => hn) (fun frame h => by simp [hf, h]) (.inr rfl)
  | sendFailed hp hf =>
    exact .read rfl (fun n hn => hn) (fun frame h => by simp [hf, h]) (.inl rfl)
  | discard hp hf =>
    exact .read rfl (fun n hn => hn) (fun frame h => by simp [hf, h]) (.inr rfl)
  | cleanCall hp =>
    refine .sent _ _ _ rfl ?_ (fun k hk => (nomatch hk)) (fun hb => (nomatch hb))
    rintro _ ⟨⟩
    exact ⟨rfl, CdpClient.messageId_envelope _ _ _ _, by rw [hp]; rfl⟩
  | capture hp =>
    refine .sent _ _ _ rfl ?_ (fun k hk => (nomatch hk)) (fun hb => (nomatch hb))
    rintro _ ⟨⟩
    exact ⟨rfl, CdpClient.messageId_envelope _ _ _ _, by rw [hp]; rfl⟩
  | close hp =>
    exact .sent _ _ _ rfl (fun call hc => (nomatch hc)) (fun k hk => (nomatch hk))
      (fun hb => (nomatch hb))
  | drain hp hf =>
    exact .read rfl (fun n hn => hn) (fun frame h => by simp [hf, h]) (.inr rfl)
  | _ => exact .read rfl (fun n hn => hn) (fun frame h => h) (.inl rfl)

theorem PipeLife.Step.sound (h : PipeLife.Step s a t) (hs : s.Sound) : t.Sound := by
  cases h.effect with
  | answered n command body hn hc hid ht =>
    subst t
    refine ⟨fun m hm => hs.asked m (List.mem_of_mem_erase hm), ?_, hs.awaiting⟩
    intro frame hf
    cases List.mem_append.1 hf with
    | inl hf => exact hs.echo frame hf
    | inr hf =>
      cases List.mem_singleton.1 hf
      exact ⟨command, hc, hid⟩
  | emitted body hid ht =>
    subst t
    refine ⟨hs.asked, ?_, hs.awaiting⟩
    intro frame hf
    cases List.mem_append.1 hf with
    | inl hf => exact hs.echo frame hf
    | inr hf =>
      cases List.mem_singleton.1 hf
      exact hid
  | sent envelope origin phase ht ha _ _ =>
    subst t
    refine ⟨?_, fun frame hf => (hs.echo frame hf).append, ?_⟩
    · intro n hn
      simp only [send, List.length_append, List.length_singleton]
      cases List.mem_cons.1 hn with
      | inl heq => omega
      | inr hn =>
        have := hs.asked n hn
        omega
    · intro call hcall
      obtain ⟨hserial, hid, _⟩ := ha call hcall
      exact ⟨⟨envelope, origin⟩, by simp [send, hserial], hid⟩
  | read hc hu hf ha =>
    refine ⟨fun n hn => hc ▸ hs.asked n (hu n hn),
      fun frame h => hc ▸ hs.echo frame (hf frame h), ?_⟩
    intro call hcall
    cases ha with
    | inl hnone =>
      rw [hnone] at hcall
      cases hcall
    | inr hsame => exact hc ▸ hs.awaiting call (hsame ▸ hcall)

theorem PipeLife.sound (h : PipeLife.system.Reachable s) : s.Sound := by
  apply h.invariant ?_ fun _ _ _ _ hi hs => hs.sound hi
  intro _ hinit
  cases hinit
  refine ⟨?_, fun frame hf => (nomatch hf), ?_⟩
  · intro n hn
    cases List.mem_singleton.1 hn
    exact Nat.one_pos
  · rintro _ ⟨⟩
    exact ⟨_, rfl, rfl⟩

/-- A step leaves no command outstanding that was not, except the one it writes. -/
theorem PipeLife.Step.outstanding (h : PipeLife.Step s a t) (hn : t.Outstanding n) :
    s.Outstanding n ∨ n = s.commands.length ∧ t.commands.length = s.commands.length + 1 := by
  cases h.effect with
  | answered m command body hm hc hid ht =>
    subst t
    rcases hn with hn | ⟨frame, hf, hn⟩
    · exact .inl (.inl (List.mem_of_mem_erase hn))
    · cases List.mem_append.1 hf with
      | inl hf => exact .inl (.inr ⟨frame, hf, hn⟩)
      | inr hf =>
        cases List.mem_singleton.1 hf
        cases hn
        exact .inl (.inl hm)
  | emitted body hid ht =>
    subst t
    rcases hn with hn | ⟨frame, hf, hn⟩
    · exact .inl (.inl hn)
    · cases List.mem_append.1 hf with
      | inl hf => exact .inl (.inr ⟨frame, hf, hn⟩)
      | inr hf =>
        cases List.mem_singleton.1 hf
        cases hn
  | sent envelope origin phase ht _ _ _ =>
    subst t
    rcases hn with hn | hn
    · cases List.mem_cons.1 hn with
      | inl heq => exact .inr ⟨heq, by simp [send]⟩
      | inr hn => exact .inl (.inl hn)
    · exact .inl (.inr hn)
  | read hc hu hf ha =>
    rcases hn with hn | ⟨frame, h, hn⟩
    · exact .inl (.inl (hu n hn))
    · exact .inl (.inr ⟨frame, hf frame h, hn⟩)

/-- The browser may answer what it has not yet. -/
theorem PipeLife.Sound.answers {s : PipeLife} (hs : s.Sound) (hn : s.Outstanding n)
    (hc : s.commands[n]? = some command) :
    ∃ as frame, frame.answers = some n ∧ frame.body.get "id" = command.envelope.get "id" ∧
      ∃ t, PipeLife.system.Run s as t ∧ frame ∈ t.frames ∧ t.phase = s.phase ∧
        t.clients = s.clients ∧ t.commands = s.commands ∧
        ∀ other ∈ t.frames, other ∈ s.frames ∨ other = frame := by
  rcases hn with hn | ⟨frame, hf, hn⟩
  · refine ⟨_, ⟨command.envelope, some n⟩, rfl, rfl, _, .single (.answer hn hc rfl), ?_, rfl, rfl,
      rfl, ?_⟩
    · exact List.mem_append_right _ (List.mem_singleton.2 rfl)
    · intro other hother
      exact (List.mem_append.1 hother).imp id List.mem_singleton.1
  · have hecho := hs.echo frame hf
    simp only [Frame.Echoes, hn] at hecho
    obtain ⟨command', hc', hid⟩ := hecho
    rw [hc] at hc'
    cases hc'
    exact ⟨_, frame, hn, hid, s, .nil, hf, rfl, rfl, rfl, fun other h => .inl h⟩

/-- A reply to the command with the given id. -/
def replyBody (id : Nat) (result : Value) : Value := .obj [("id", .int id), ("result", result)]

end BrowserServe
