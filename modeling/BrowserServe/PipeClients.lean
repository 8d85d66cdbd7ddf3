import BrowserServe.PipeEffect

namespace BrowserServe
open Library
set_option autoImplicit true

/-- No client got the reply to another client's command. -/
def PipeLife.NoStale (s : PipeLife) : Prop :=
  ∀ k frame, (k, frame) ∈ s.delivered → ∀ n, frame.answers = some n →
    ∃ command, s.commands[n]? = some command ∧ ∀ j, command.origin = .client j → j = k

/-- A step that gives the pipe to no new client while a client's command is outstanding. -/
def PipeLife.Settled (s : PipeLife) : PipeAction → Prop
  | .cleaned => ∀ n command k, s.Outstanding n → s.commands[n]? = some command →
      command.origin ≠ .client k
  | _ => True

/-- The phases before the first client. -/
def PipePhase.early : PipePhase → Bool
  | .probing _ | .ready | .seeding _ _ => true
  | _ => false

/-- Clients are numbered as they come; none wrote to the pipe before the first. -/
structure PipeLife.Numbered (s : PipeLife) : Prop where
  early : s.phase.early = true → ∀ command ∈ s.commands, ∀ k, command.origin ≠ .client k
  number : ∀ command ∈ s.commands, ∀ k, command.origin = .client k → k ≤ s.clients

/-- While a client is bridged, no other client's command is outstanding. -/
def PipeLife.Private (s : PipeLife) : Prop :=
  s.phase = .bridged → ∀ n command k, s.Outstanding n → s.commands[n]? = some command →
    command.origin = .client k → k = s.clients

theorem PipePhase.early_after {phase : PipePhase} (reply : Except CdpError Value)
    (h : (phase.after reply).early = true) :
    phase.early = true := by
  cases phase with
  | cleaning client awaiting rest => cases awaiting <;> cases h
  | capturing => cases h
  | _ => first | rfl | exact h

theorem PipePhase.bridged_after {phase : PipePhase} (reply : Except CdpError Value)
    (h : phase.after reply = .bridged) :
    phase = .bridged := by
  cases phase with
  | probing => cases reply with
    | ok => cases h
    | error e => cases e <;> cases h
  | seeding => cases reply <;> cases h
  | cleaning client awaiting rest => cases awaiting <;> cases h
  | capturing => cases h
  | _ => exact h

theorem PipeLife.Step.early (h : PipeLife.Step s a t) (ht : t.phase.early = true) :
    s.phase.early = true := by
  cases h with
  | reply => exact PipePhase.early_after _ ht
  | @fail _ call error => exact PipePhase.early_after (.error (.pipe error)) ht
  | seed hp => rw [hp]; rfl
  | seedSend hp => rw [hp]; rfl
  | seedCall hp => rw [hp]; rfl
  | _ => first | exact ht | cases ht

/-- A client is bridged by keeping its bridge, by being the first, or after `clean_slate`. -/
theorem PipeLife.Step.bridged (h : PipeLife.Step s a t) (ht : t.phase = .bridged) :
    s.phase = .bridged ∧ t.clients = s.clients ∨
      t.commands = s.commands ∧ (s.phase.early = true ∨ a = .cleaned) := by
  cases h with
  | reply => exact .inl ⟨PipePhase.bridged_after _ ht, rfl⟩
  | @fail _ call error => exact .inl ⟨PipePhase.bridged_after (.error (.pipe error)) ht, rfl⟩
  | bridge hp =>
    refine .inr ⟨rfl, .inl ?_⟩
    rcases hp with hp | ⟨_, hp⟩ <;> rw [hp] <;> rfl
  | clientSend hp => exact .inl ⟨hp, rfl⟩
  | cleaned => exact .inr ⟨rfl, .inr rfl⟩
  | _ => first | exact .inl ⟨ht, rfl⟩ | cases ht

theorem PipeLife.Step.commands (h : PipeLife.Step s a t) :
    t.commands = s.commands ∨ ∃ envelope origin, t.commands = s.commands ++ [⟨envelope, origin⟩] ∧
      ∀ k, origin = .client k → k = s.clients ∧ t.phase = .bridged := by
  cases h.effect with
  | answered _ _ _ _ _ _ ht => exact .inl (ht ▸ rfl)
  | emitted _ _ ht => exact .inl (ht ▸ rfl)
  | sent envelope origin phase ht _ ho _ =>
    subst t
    refine .inr ⟨envelope, origin, rfl, ?_⟩
    intro k hk
    exact ⟨(ho k hk).1, (ho k hk).2.2⟩
  | read hc => exact .inl hc

theorem PipeLife.Step.clients (h : PipeLife.Step s a t) :
    s.clients ≤ t.clients ∨ s.phase.early = true ∧ t.commands = s.commands := by
  cases h with
  | bridge hp =>
    refine .inr ⟨?_, rfl⟩
    rcases hp with hp | ⟨_, hp⟩ <;> rw [hp] <;> rfl
  | cleaned => exact .inl (Nat.le_succ _)
  | _ => exact .inl (Nat.le_refl _)

theorem PipeLife.Step.numbered (h : PipeLife.Step s a t) (hn : s.Numbered) : t.Numbered := by
  constructor
  · intro hearly command hmem k hk
    rcases h.commands with hc | ⟨envelope, origin, hc, ho⟩
    · exact hn.early (h.early hearly) command (hc ▸ hmem) k hk
    · rw [hc] at hmem
      cases List.mem_append.1 hmem with
      | inl hmem => exact hn.early (h.early hearly) command hmem k hk
      | inr hmem =>
        cases List.mem_singleton.1 hmem
        rw [(ho k hk).2] at hearly
        cases hearly
  · intro command hmem k hk
    rcases h.clients with hle | ⟨hearly, hc⟩
    · rcases h.commands with hc | ⟨envelope, origin, hc, ho⟩
      · exact Nat.le_trans (hn.number command (hc ▸ hmem) k hk) hle
      · rw [hc] at hmem
        cases List.mem_append.1 hmem with
        | inl hmem => exact Nat.le_trans (hn.number command hmem k hk) hle
        | inr hmem =>
          cases List.mem_singleton.1 hmem
          exact (ho k hk).1 ▸ hle
    · exact (hn.early hearly command (hc ▸ hmem) k hk).elim

theorem PipeLife.numbered (h : PipeLife.system.Reachable s) : s.Numbered := by
  apply h.invariant ?_ fun _ _ _ _ hi hs => hs.numbered hi
  intro _ hinit
  cases hinit
  constructor
  · intro _ command hmem k hk
    cases List.mem_singleton.1 hmem
    cases hk
  · intro command hmem k hk
    cases List.mem_singleton.1 hmem
    cases hk

theorem PipeLife.Step.private (h : PipeLife.Step s a t) (hs : s.Sound) (hnum : s.Numbered)
    (hset : s.Settled a) (hp : s.Private) : t.Private := by
  intro hb n command k hn hc hk
  rcases h.outstanding hn with hn | ⟨rfl, hlen⟩
  · have hold : s.commands[n]? = some command := by
      rcases h.commands with heq | ⟨_, _, heq, _⟩
      · exact heq ▸ hc
      · rw [heq, List.getElem?_append_left (hn.lt hs)] at hc
        exact hc
    rcases h.bridged hb with ⟨hsb, hclients⟩ | ⟨_, hearly | rfl⟩
    · exact hclients ▸ hp hsb n command k hn hold hk
    · exact (hnum.early hearly command (List.mem_of_getElem? hold) k hk).elim
    · exact (hset n command k hn hold hk).elim
  · rcases h.commands with heq | ⟨envelope, origin, heq, ho⟩
    · exact absurd (heq ▸ hlen) (Nat.ne_of_lt (Nat.lt_succ_self _))
    · rw [heq, List.getElem?_concat_length] at hc
      cases hc
      rcases h.bridged hb with ⟨_, hclients⟩ | ⟨hsame, _⟩
      · exact hclients ▸ (ho k hk).1
      · exact absurd (hsame ▸ hlen) (Nat.ne_of_lt (Nat.lt_succ_self _))

theorem PipeLife.Step.delivered (h : PipeLife.Step s a t) :
    t.delivered = s.delivered ∨ ∃ frame ∈ s.frames, s.phase = .bridged ∧
      t.delivered = (s.clients, frame) :: s.delivered := by
  cases h with
  | deliver hp hf => exact .inr ⟨_, by rw [hf]; exact List.mem_cons_self, hp, rfl⟩
  | _ => exact .inl rfl

theorem PipeLife.Step.noStale (h : PipeLife.Step s a t) (hs : s.Sound) (hp : s.Private)
    (hn : s.NoStale) : t.NoStale := by
  intro k frame hmem n hans
  have hold : ∃ command, s.commands[n]? = some command ∧
      ∀ j, command.origin = .client j → j = k := by
    rcases h.delivered with hd | ⟨head, hf, hb, hd⟩
    · exact hn k frame (hd ▸ hmem) n hans
    · rw [hd] at hmem
      cases List.mem_cons.1 hmem with
      | inl heq =>
        cases heq
        have hecho := hs.echo frame hf
        simp only [Frame.Echoes, hans] at hecho
        obtain ⟨command, hc, _⟩ := hecho
        exact ⟨command, hc, fun j hj => hp hb n command j (.inr ⟨frame, hf, hans⟩) hc hj⟩
      | inr hmem => exact hn k frame hmem n hans
  obtain ⟨command, hc, hj⟩ := hold
  refine ⟨command, ?_, hj⟩
  rcases h.commands with heq | ⟨_, _, heq, _⟩
  · exact heq ▸ hc
  · exact heq ▸ getElem?_commands_append hc

/-- A bridged client gets every frame on its way, sooner or later. -/
theorem PipeLife.delivers (frames : List Frame) {s : PipeLife} (hf : s.frames = frames)
    (hb : s.phase = .bridged) (hmem : frame ∈ frames) :
    ∃ as t, PipeLife.system.Run s as t ∧ (s.clients, frame) ∈ t.delivered ∧
      t.commands = s.commands := by
  induction frames generalizing s with
  | nil => cases hmem
  | cons head rest ih =>
    have hstep := PipeLife.Step.deliver hb hf
    cases List.mem_cons.1 hmem with
    | inl heq =>
      subst head
      exact ⟨_, _, .single hstep, List.mem_cons_self, rfl⟩
    | inr hmem =>
      obtain ⟨as, t, hrun, hd, hc⟩ := ih (s := { s with
        frames := rest, delivered := (s.clients, head) :: s.delivered }) rfl hb hmem
      exact ⟨_, t, .cons hstep hrun, hd, hc⟩

/-- A client that follows an unanswered one can get its reply. -/
theorem PipeLife.Step.stale_frame (h : PipeLife.Step s a t) (hs : s.Sound) (hnum : s.Numbered)
    (hset : ¬ s.Settled a) : ∃ as u, PipeLife.system.Run t as u ∧ ¬ u.NoStale := by
  have ht := h.sound hs
  cases h with
  | cleaned hp =>
    simp only [Settled, not_forall, not_not] at hset
    obtain ⟨n, command, k, hn, hc, hk⟩ := hset
    obtain ⟨as, frame, hans, _, u, hrun, hframe, hphase, hclients, hcommands, _⟩ := ht.answers hn hc
    obtain ⟨bs, v, hrun', hd, hsame⟩ := delivers u.frames rfl hphase hframe
    refine ⟨as ++ bs, v, hrun.trans hrun', fun hno => ?_⟩
    obtain ⟨command', hc', hown⟩ := hno _ frame hd n hans
    rw [hsame, hcommands, hc] at hc'
    cases hc'
    have hle := hnum.number command (List.mem_of_getElem? hc) k hk
    have heq := hown k hk
    simp only [hclients] at heq
    omega
  | _ => exact (hset trivial).elim

/-- Over every lifetime of a session's pipe: as long as `clean_slate` ends with no client's
command outstanding, no client gets a frame that answers another client's command; and
whenever one is, the browser can answer so that the next client gets it. -/
theorem clients_get_own_frames (s : PipeLife) :
    ((PipeLife.system.guarded fun s a _ => s.Settled a).Reachable s → s.NoStale) ∧
    (PipeLife.system.Reachable s → ∀ a t, PipeLife.Step s a t → ¬ s.Settled a →
      ∃ as u, PipeLife.system.Run t as u ∧ ¬ u.NoStale) := by
  constructor
  · intro h
    have hboth : s.Private ∧ s.NoStale := by
      apply h.invariant (I := fun s => s.Private ∧ s.NoStale) ?_ ?_
      · intro _ hinit
        cases hinit
        exact ⟨fun hb => (nomatch hb), fun k frame hmem => (nomatch hmem)⟩
      · intro s a t hr hi hst
        have hreach := System.guarded_reachable hr
        have hs := PipeLife.sound hreach
        exact ⟨hst.1.private hs (PipeLife.numbered hreach) hst.2 hi.1,
          hst.1.noStale hs hi.1 hi.2⟩
    exact hboth.2
  · intro hr a t hst hset
    exact hst.stale_frame (PipeLife.sound hr) (PipeLife.numbered hr) hset

/-- A client leaves its command 1 unanswered and its connection breaks; all of `clean_slate`
is answered at once, and the answer to command 1 comes when the next client is bridged. -/
theorem resumed_client_gets_stale_frame :
    ∃ as s, PipeLife.system.Run .new as s ∧
      (∃ frame n command, (2, frame) ∈ s.delivered ∧ frame.answers = some n ∧
        s.commands[n]? = some command ∧ command.origin = .client 1) ∧ ¬ s.NoStale := by
  have hrun : PipeLife.system.Run .new
      [.answer 0 (replyBody 1 (.obj [])), .reply, .bridge,
        .clientSend (CdpClient.envelope 1 "Browser.getVersion" (.obj []) none),
        .bridgeEnd .clientGone, .park, .resume,
        .cleanCall, .answer 2 (replyBody CLEANUP_FIRST_ID (.obj [])), .reply,
        .cleanCall, .answer 3 (replyBody (CLEANUP_FIRST_ID + 1) (.obj [])), .reply,
        .cleanCall, .answer 4 (replyBody (CLEANUP_FIRST_ID + 2) (.obj [])), .reply,
        .cleaned, .answer 1 (replyBody 1 (.obj [])), .deliver] _ :=
    .cons (.answer (by decide) rfl rfl) <| .cons (.reply rfl rfl rfl) <|
      .cons (.bridge (.inl rfl)) <| .cons (.clientSend rfl rfl) <|
      .cons (.clientGone rfl) <| .cons (.park rfl) <| .cons (.resume rfl) <|
      .cons (.cleanCall rfl rfl) <| .cons (.answer (by decide) rfl rfl) <|
      .cons (.reply rfl rfl rfl) <| .cons (.cleanCall rfl rfl) <|
      .cons (.answer (by decide) rfl rfl) <| .cons (.reply rfl rfl rfl) <|
      .cons (.cleanCall rfl rfl) <| .cons (.answer (by decide) rfl rfl) <|
      .cons (.reply rfl rfl rfl) <| .cons (.cleaned rfl) <|
      .cons (.answer (by decide) rfl rfl) <| .single (.deliver rfl rfl)
  refine ⟨_, _, hrun, ⟨_, 1, _, List.mem_cons_self, rfl, rfl, rfl⟩, fun hno => ?_⟩
  obtain ⟨command, hc, hj⟩ := hno _ _ List.mem_cons_self 1 rfl
  cases hc
  exact absurd (hj 1 rfl) (by decide)

end BrowserServe
