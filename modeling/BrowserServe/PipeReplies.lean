import BrowserServe.PipeEffect

namespace BrowserServe
open Library
set_option autoImplicit true

/-- Every call got the reply to its own command. -/
def PipeLife.OwnReplies (s : PipeLife) : Prop :=
  ∀ call frame, (call, frame) ∈ s.returned → frame.answers = some call.serial

/-- A step that starts no call under an id some outstanding command has. -/
def PipeLife.FreshId (s : PipeLife) (a : PipeAction) : Prop :=
  ∀ id, s.phase.callId a = some id → ∀ n command, s.Outstanding n →
    s.commands[n]? = some command → messageId command.envelope ≠ some id

/-- No outstanding command but its own has the id of the call that waits. -/
def PipeLife.Alone (s : PipeLife) : Prop :=
  ∀ call, s.phase.awaiting = some call → ∀ n command, s.Outstanding n →
    s.commands[n]? = some command → messageId command.envelope = some call.id → n = call.serial

theorem PipeLife.Step.alone (h : PipeLife.Step s a t) (hs : s.Sound) (hfresh : s.FreshId a)
    (ha : s.Alone) : t.Alone := by
  intro call hcall n command hn hc hid
  have hout := h.outstanding hn
  cases h.effect with
  | answered m _ _ hm _ _ ht =>
    subst t
    rcases hout with hn | ⟨_, hlen⟩
    · exact ha call hcall n command hn hc hid
    · exact absurd hlen (Nat.ne_of_lt (Nat.lt_succ_self _))
  | emitted _ _ ht =>
    subst t
    rcases hout with hn | ⟨_, hlen⟩
    · exact ha call hcall n command hn hc hid
    · exact absurd hlen (Nat.ne_of_lt (Nat.lt_succ_self _))
  | sent envelope origin phase ht hcalls _ _ =>
    subst t
    obtain ⟨hserial, _, hcallId⟩ := hcalls call hcall
    rcases hout with hn | ⟨heq, _⟩
    · have hold := (List.getElem?_append_left (hn.lt hs)).symm.trans hc
      exact absurd hid (hfresh call.id hcallId n command hn hold)
    · exact heq.trans hserial.symm
  | read hcommands _ _ hkeep =>
    cases hkeep with
    | inl hnone =>
      rw [hnone] at hcall
      cases hcall
    | inr hsame =>
      rcases hout with hn | ⟨_, hlen⟩
      · exact ha call (hsame ▸ hcall) n command hn (hcommands ▸ hc) hid
      · exact absurd (hcommands ▸ hlen) (Nat.ne_of_lt (Nat.lt_succ_self _))

theorem PipeLife.Step.returned (h : PipeLife.Step s a t) :
    t.returned = s.returned ∨ ∃ call frame rest, s.phase.awaiting = some call ∧
      s.frames = frame :: rest ∧ messageId frame.body = some call.id ∧
      t.returned = (call, frame) :: s.returned := by
  cases h with
  | reply ha hf hid => exact .inr ⟨_, _, _, ha, hf, hid, rfl⟩
  | _ => exact .inl rfl

theorem PipeLife.Step.ownReplies (h : PipeLife.Step s a t) (hs : s.Sound) (ha : s.Alone)
    (ho : s.OwnReplies) : t.OwnReplies := by
  rcases h.returned with hr | ⟨call, frame, rest, hcall, hf, hid, hr⟩
  · unfold OwnReplies
    rw [hr]
    exact ho
  · intro call' frame' hmem
    rw [hr] at hmem
    cases List.mem_cons.1 hmem with
    | inr hmem => exact ho call' frame' hmem
    | inl heq =>
      cases heq
      have hframe : frame ∈ s.frames := by rw [hf]; exact List.mem_cons_self
      have hecho := hs.echo frame hframe
      cases hans : frame.answers with
      | none =>
        simp only [Frame.Echoes, hans] at hecho
        simp only [messageId, hecho, Option.bind_none] at hid
        cases hid
      | some n =>
        simp only [Frame.Echoes, hans] at hecho
        obtain ⟨command, hc, hsame⟩ := hecho
        have hid' : messageId command.envelope = some call.id := by
          rw [← hid, messageId, messageId, hsame]
        rw [ha call hcall n command (.inr ⟨frame, hframe, hans⟩) hc hid']

/-- A call that waits with a stale reply in its way reads it sooner or later. -/
theorem PipeLife.reads_stale (frames : List Frame) {s : PipeLife} (hf : s.frames = frames)
    (hcall : s.phase.awaiting = some call)
    (hown : ∀ frame ∈ frames, frame.answers ≠ some call.serial)
    (hstale : ∃ frame ∈ frames, messageId frame.body = some call.id) :
    ∃ as t, PipeLife.system.Run s as t ∧ ¬ t.OwnReplies := by
  induction frames generalizing s with
  | nil =>
    obtain ⟨frame, hmem, _⟩ := hstale
    cases hmem
  | cons frame rest ih =>
    by_cases hid : messageId frame.body = some call.id
    · refine ⟨_, _, .single (.reply hcall hf hid), fun ho => ?_⟩
      exact hown frame List.mem_cons_self (ho call frame List.mem_cons_self)
    · obtain ⟨stale, hmem, hsid⟩ := hstale
      have hrest : stale ∈ rest := by
        cases List.mem_cons.1 hmem with
        | inl heq => exact absurd (heq ▸ hsid) hid
        | inr hmem => exact hmem
      obtain ⟨as, t, hrun, ht⟩ := ih (s := { s with frames := rest }) rfl hcall
        (fun frame h => hown frame (List.mem_cons_of_mem _ h)) ⟨stale, hrest, hsid⟩
      exact ⟨_, t, .cons (.skip hcall hf hid) hrun, ht⟩

theorem PipeLife.Step.starts {k : Nat} (h : PipeLife.Step s a t)
    (hid : s.phase.callId a = some k) :
    ∃ envelope phase call, t = s.send envelope .internal phase ∧ phase.awaiting = some call ∧
      call.serial = s.commands.length ∧ call.id = k := by
  unfold PipePhase.callId at hid
  split at hid
  · next hp =>
    cases h with
    | seedCall hp' =>
      rw [hp'] at hp
      cases hp
      cases hid
      exact ⟨_, _, _, rfl, rfl, rfl, rfl⟩
  · next hp =>
    cases h with
    | cleanCall hp' =>
      rw [hp'] at hp
      cases hp
      cases hid
      exact ⟨_, _, _, rfl, rfl, rfl, rfl⟩
  · cases h with
    | capture =>
      cases hid
      exact ⟨_, _, _, rfl, rfl, rfl, rfl⟩
  · cases hid

/-- A call under the id of an outstanding command can return that command's reply. -/
theorem PipeLife.Step.stale (h : PipeLife.Step s a t) (hs : s.Sound) (hfresh : ¬ s.FreshId a) :
    ∃ as u, PipeLife.system.Run t as u ∧ ¬ u.OwnReplies := by
  simp only [FreshId, not_forall, not_not] at hfresh
  obtain ⟨k, hid, n, command, hn, hc, hsame⟩ := hfresh
  have ht := h.sound hs
  obtain ⟨envelope, phase, call, rfl, hcall, hserial, rfl⟩ := h.starts hid
  have hout : (s.send envelope .internal phase).Outstanding n :=
    hn.imp (List.mem_cons_of_mem _) fun hframe => hframe
  obtain ⟨as, frame, hans, hecho, u, hrun, hframe, hphase, _, _, hframes⟩ :=
    ht.answers hout (getElem?_commands_append hc)
  have hlt := hn.lt hs
  have hown : ∀ other ∈ u.frames, other.answers ≠ some call.serial := by
    intro other hother hown
    rw [hserial] at hown
    cases hframes other hother with
    | inl hold =>
      have hout' : s.Outstanding s.commands.length := .inr ⟨other, hold, hown⟩
      exact Nat.lt_irrefl _ (hout'.lt hs)
    | inr heq =>
      rw [heq, hans] at hown
      cases hown
      exact Nat.lt_irrefl _ hlt
  have hwaits : u.phase.awaiting = some call := by rw [hphase]; exact hcall
  obtain ⟨bs, v, hrun', hv⟩ := reads_stale u.frames rfl hwaits hown
    ⟨frame, hframe, by rw [messageId, hecho]; exact hsame⟩
  exact ⟨as ++ bs, v, hrun.trans hrun', hv⟩

/-- Over every lifetime of a session's pipe: as long as no call starts under the id of an
outstanding command, every call returns the reply to its own command; and whenever one does,
the browser can answer so that a call returns another command's reply. -/
theorem calls_get_own_replies (s : PipeLife) :
    ((PipeLife.system.guarded fun s a _ => s.FreshId a).Reachable s → s.OwnReplies) ∧
    (PipeLife.system.Reachable s → ∀ a t, PipeLife.Step s a t → ¬ s.FreshId a →
      ∃ as u, PipeLife.system.Run t as u ∧ ¬ u.OwnReplies) := by
  constructor
  · intro h
    have hboth : s.Alone ∧ s.OwnReplies := by
      apply h.invariant (I := fun s => s.Alone ∧ s.OwnReplies) ?_ ?_
      · intro _ hinit
        cases hinit
        refine ⟨?_, fun call frame hmem => (nomatch hmem)⟩
        rintro _ ⟨⟩ n command hn _ _
        rcases hn with hn | ⟨frame, hf, _⟩
        · exact List.mem_singleton.1 hn
        · cases hf
      · intro s a t hr hi hst
        have hs := PipeLife.sound (System.guarded_reachable hr)
        exact ⟨hst.1.alone hs hst.2 hi.1, hst.1.ownReplies hs hi.1 hi.2⟩
    exact hboth.2
  · intro hr a t hst hfresh
    exact hst.stale (PipeLife.sound hr) hfresh

/-- What a browser with one page lists. -/
def onePage : Value :=
  .obj [("targetInfos", .arr [.obj [("targetId", .str "P"), ("type", .str "page")]])]

/-- A profile session's client leaves its command 1 unanswered; `Storage.getCookies`, the
first command of a new `CdpClient`, returns the late answer to it. -/
theorem capture_returns_client_reply :
    ∃ as s, PipeLife.system.Run .new as s ∧
      (∃ call frame n command, (call, frame) ∈ s.returned ∧ call.method = "Storage.getCookies" ∧
        frame.answers = some n ∧ s.commands[n]? = some command ∧
        command.origin = .client 1) ∧ ¬ s.OwnReplies := by
  have hrun : PipeLife.system.Run .new
      [.answer 0 (replyBody 1 .null), .reply, .seed,
        .seedCall "Target.getTargets" (.obj []) none, .answer 1 (replyBody 1 onePage), .reply,
        .seedCall "Target.attachToTarget"
          (.obj [("targetId", .str "P"), ("flatten", .bool true)]) none,
        .answer 2 (replyBody 2 (.obj [("sessionId", .str "S")])), .reply, .bridge,
        .clientSend (CdpClient.envelope 1 "Runtime.evaluate" .null none),
        .bridgeEnd .clientFinished, .capture, .answer 3 (replyBody 1 (.obj [])), .reply] _ :=
    .cons (.answer (by decide) rfl rfl) <| .cons (.reply rfl rfl rfl) <| .cons (.seed rfl) <|
      .cons (.seedCall rfl rfl) <| .cons (.answer (by decide) rfl rfl) <|
      .cons (.reply rfl rfl rfl) <| .cons (.seedCall rfl rfl) <|
      .cons (.answer (by decide) rfl rfl) <| .cons (.reply rfl rfl rfl) <|
      .cons (.bridge (.inr ⟨_, rfl⟩)) <| .cons (.clientSend rfl rfl) <|
      .cons (.clientFinished rfl) <| .cons (.capture rfl rfl) <|
      .cons (.answer (by decide) rfl rfl) <| .single (.reply rfl rfl rfl)
  refine ⟨_, _, hrun, ⟨_, _, 3, _, List.mem_cons_self, rfl, rfl, rfl, rfl⟩, fun ho => ?_⟩
  exact absurd (ho _ _ List.mem_cons_self) (by decide)

end BrowserServe
