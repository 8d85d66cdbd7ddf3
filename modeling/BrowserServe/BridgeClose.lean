import BrowserServe.BridgeFraming

namespace BrowserServe
open Library
set_option autoImplicit true

def arrivedItem : BridgeAction → Option (Option Message)
  | .arrive item => some item
  | _ => none

/-- What does not end a client's stream: every message but a close frame. -/
def goesOn : Option Message → Bool
  | none | some (.close _) => false
  | some _ => true

/-- What ends a client's stream is a close frame with code 1000 or no code. -/
def finishes (items : List (Option Message)) : Bool :=
  match items.find? fun item => !goesOn item with
  | some (some (.close frame)) => closeExit frame = .clientFinished
  | _ => false

/-- The messages of a client before its stream ends. -/
def messagesBefore (items : List (Option Message)) : List (List UInt8) :=
  (items.takeWhile goesOn).filterMap (·.bind Message.payload)

/-- What is asked of the step that ends a bridge, if the client had said that it is finished: the
bridge has heard it and written what was sent before it, unless the browser went first or the
client was idle first. -/
structure Bridge.HearsClose (as : List BridgeAction) (t : Bridge) (how : BridgeEnd) : Prop where
  notGone : finishes (as.filterMap arrivedItem) = true → how ≠ .clientGone
  finished : finishes (as.filterMap arrivedItem) = true → how = .clientFinished ∨
    (how = .browserGone ∧ .recvErr ∈ as) ∨
    (how = .idleTimeout ∧ ∃ before after, as = before ++ .idle :: after ∧
      finishes (before.filterMap arrivedItem) = false)
  written : finishes (as.filterMap arrivedItem) = true → how = .clientFinished →
    t.sent = messagesBefore (as.filterMap arrivedItem)

/-- A write to either side fails while the close frame of a finished client is there unread. -/
def Bridge.Overhears (s : Bridge) (a : BridgeAction) : Prop :=
  (a = .sendErr ∨ a = .writeErr) ∧ finishes s.inbox = true

theorem finishes_append {read : List (Option Message)} (h : ∀ item ∈ read, goesOn item = true)
    (items : List (Option Message)) : finishes (read ++ items) = finishes items := by
  have hnone : read.find? (fun item => !goesOn item) = none := by
    rw [List.find?_eq_none]
    intro item hmem
    simp [h item hmem]
  rw [finishes, List.find?_append, hnone]
  rfl

theorem goesOn_of_payload {message : Message} (h : message.payload = some bytes) :
    goesOn (some message) = true := by
  cases message with
  | close frame => cases h
  | _ => rfl

/-- What the client pump has read of what arrived: messages, all written or being written. -/
def Bridge.Reading (items : List (Option Message)) (s : Bridge) : Prop :=
  ∃ read, items = read ++ s.inbox ∧ (∀ item ∈ read, goesOn item = true) ∧
    read.filterMap (·.bind Message.payload) = s.sent ++ s.clientPump.current

theorem Bridge.Step.running_before (h : Bridge.Step s a t) (ht : t.ended = none) :
    s.ended = none := by
  by_contra hs
  rw [(h.after_end hs).1] at ht
  exact hs ht

theorem Bridge.Reading.snoc {s t : Bridge} {message : Message} (h : s.Reading items)
    (hinbox : s.inbox = some message :: t.inbox) (hgoes : goesOn (some message) = true)
    (hcurrent : t.sent ++ t.clientPump.current =
      s.sent ++ s.clientPump.current ++ message.payload.toList) : t.Reading items := by
  obtain ⟨read, hitems, hread, hpayloads⟩ := h
  refine ⟨read ++ [some message], ?_, ?_, ?_⟩
  · rw [hitems, hinbox, List.append_assoc]
    rfl
  · intro item hmem
    cases List.mem_append.mp hmem with
    | inl hmem => exact hread item hmem
    | inr hmem =>
      rw [List.mem_singleton.mp hmem]
      exact hgoes
  · rw [List.filterMap_append, hpayloads, hcurrent]
    cases hm : message.payload <;> simp [hm]

theorem Bridge.Reading.same {s t : Bridge} (h : s.Reading items) (hinbox : t.inbox = s.inbox)
    (hcurrent : t.sent ++ t.clientPump.current = s.sent ++ s.clientPump.current) :
    t.Reading items := by
  obtain ⟨read, hitems, hread, hpayloads⟩ := h
  exact ⟨read, hinbox ▸ hitems, hread, hpayloads.trans hcurrent.symm⟩

theorem Bridge.Step.reading (h : Bridge.Step s a t) (ht : t.ended = none) (hs : s.Reading items) :
    t.Reading (items ++ (arrivedItem a).toList) := by
  have hnone : t.Reading items → t.Reading (items ++ []) := by
    rw [List.append_nil]
    exact id
  cases h with
  | arrive =>
    obtain ⟨read, hitems, hread, hpayloads⟩ := hs
    refine ⟨read, ?_, hread, hpayloads⟩
    rw [hitems, List.append_assoc]
    rfl
  | message hr hp hi hm =>
    refine hnone (hs.snoc hi (goesOn_of_payload hm) ?_)
    rw [hp, hm]
    simp [ClientPump.current]
  | control hr hp hi hm =>
    rcases hm with rfl | rfl
    · exact hnone (hs.snoc hi rfl (by rw [hp]; simp [ClientPump.current, Message.payload]))
    · exact hnone (hs.snoc hi rfl (by rw [hp]; simp [ClientPump.current, Message.payload]))
  | close => cases ht
  | broken => cases ht
  | write hr hp => exact hnone (hs.same rfl (by rw [hp]; simp [ClientPump.current]))
  | writeAll hr hp => exact hnone (hs.same rfl (by rw [hp]; simp [ClientPump.current]))
  | terminate hr hp => exact hnone (hs.same rfl (by rw [hp]; simp [ClientPump.current]))
  | idle hr hp => exact hnone (hs.same rfl (by rw [hp]; rfl))
  | _ => exact hnone (hs.same rfl rfl)

theorem Bridge.run_reading
    (h : (Bridge.system (.new timeout begun start)).Run (.new timeout begun start) as s)
    (hs : s.ended = none) : s.Reading (as.filterMap arrivedItem) := by
  induction h with
  | nil => exact ⟨[], rfl, fun item hmem => absurd hmem List.not_mem_nil, rfl⟩
  | @snoc as _ a _ _ hstep ih =>
    have hnext := hstep.reading hs (ih (hstep.running_before hs))
    rw [List.filterMap_append]
    cases harrived : arrivedItem a <;> simpa [harrived] using hnext

theorem Bridge.Reading.finishes {s : Bridge} (h : s.Reading items) :
    finishes items = BrowserServe.finishes s.inbox := by
  obtain ⟨read, hitems, hread, _⟩ := h
  rw [hitems, finishes_append hread]

/-- The close frame is next, so what was sent before it has been read. -/
theorem Bridge.Reading.written {s : Bridge} (h : s.Reading items)
    (hinbox : s.inbox = some (.close frame) :: rest) :
    messagesBefore items = s.sent ++ s.clientPump.current := by
  obtain ⟨read, hitems, hread, hpayloads⟩ := h
  rw [← hpayloads, messagesBefore, hitems, hinbox, List.takeWhile_append_of_pos hread]
  simp [goesOn]

theorem Bridge.run_idled
    (h : (Bridge.system (.new timeout begun start)).Run (.new timeout begun start) as s)
    (hs : s.ended = none) (hp : s.clientPump = .idled dur) :
    ∃ before after, as = before ++ .idle :: after ∧
      finishes (before.filterMap arrivedItem) = false := by
  induction h with
  | nil => cases hp
  | @snoc as s a t hrun hstep ih =>
    have hbefore := hstep.running_before hs
    have hlater : s.clientPump = .idled dur → ∃ before after, as ++ [a] = before ++ .idle :: after ∧
        finishes (before.filterMap arrivedItem) = false := by
      intro hidled
      obtain ⟨before, after, has, hfinishes⟩ := ih hbefore hidled
      refine ⟨before, after ++ [a], ?_, hfinishes⟩
      rw [has, List.append_assoc]
      rfl
    cases hstep with
    | idle hr _ hi =>
      refine ⟨as, [], rfl, ?_⟩
      rw [(Bridge.run_reading hrun hbefore).finishes, hi]
      rfl
    | message => cases hp
    | control => cases hp
    | write => cases hp
    | writeAll => cases hp
    | terminate => cases hp
    | _ => exact hlater hp

theorem Bridge.run_closing
    (h : (Bridge.system (.new timeout begun start)).Run (.new timeout begun start) as s)
    (hp : s.browserPump = .closing) : .recvErr ∈ as := by
  induction h with
  | nil => cases hp
  | @snoc as s a t hrun hstep ih =>
    have hlater : s.browserPump = .closing → .recvErr ∈ as ++ [a] := fun hclosing =>
      List.mem_append_left _ (ih hclosing)
    cases hstep with
    | recvErr => exact List.mem_append_right _ List.mem_cons_self
    | recv => cases hp
    | delivered => cases hp
    | _ => exact hlater hp

/-- Over every run of a bridge, whatever its step that ends it: a client that said it is finished
is heard if and only if that step is no failed write with the close frame there unread. -/
theorem close_is_heard_iff
    (h : (Bridge.system (.new timeout begun start)).Run (.new timeout begun start) as s)
    (hstep : Bridge.Step s a t) (hs : s.ended = none) (ht : t.ended = some how) :
    Bridge.HearsClose as t how ↔ ¬s.Overhears a := by
  have hreading := Bridge.run_reading h hs
  have hfinishes := hreading.finishes
  constructor
  · rintro hheard ⟨ha, hunread⟩
    refine hheard.notGone (hfinishes.trans hunread) ?_
    cases hstep with
    | writeErr =>
      cases ht
      rfl
    | sendErr =>
      cases ht
      rfl
    | _ =>
      rcases ha with ha | ha
      · cases ha
      · cases ha
  · intro hoverhears
    have hfail : a = .sendErr ∨ a = .writeErr → finishes (as.filterMap arrivedItem) = true →
        False := by
      intro ha hfinished
      exact hoverhears ⟨ha, hfinishes.symm.trans hfinished⟩
    cases hstep with
    | @close _ _ frame rest hr hp hi =>
      cases ht
      have hnormal : finishes (as.filterMap arrivedItem) = true →
          closeExit frame = .clientFinished := by
        intro hfinished
        rw [hfinishes, hi] at hfinished
        simpa [finishes, goesOn] using hfinished
      refine ⟨fun hfinished => ?_, fun hfinished => .inl ?_, fun hfinished _ => ?_⟩
      · rw [hnormal hfinished]
        decide
      · rw [hnormal hfinished]
        rfl
      · rw [hreading.written hi, hp]
        exact (List.append_nil _).symm
    | broken hr hp hi =>
      cases ht
      have hnot : finishes (as.filterMap arrivedItem) = false := by
        rw [hfinishes, hi]
        rfl
      rw [Bool.eq_false_iff] at hnot
      exact ⟨fun hfinished => absurd hfinished hnot, fun hfinished => absurd hfinished hnot,
        fun hfinished => absurd hfinished hnot⟩
    | writeErr =>
      exact ⟨fun hfinished => (hfail (.inr rfl) hfinished).elim,
        fun hfinished => (hfail (.inr rfl) hfinished).elim,
        fun hfinished => (hfail (.inr rfl) hfinished).elim⟩
    | sendErr =>
      exact ⟨fun hfinished => (hfail (.inl rfl) hfinished).elim,
        fun hfinished => (hfail (.inl rfl) hfinished).elim,
        fun hfinished => (hfail (.inl rfl) hfinished).elim⟩
    | idleClosed hp =>
      cases ht
      exact ⟨fun _ hgone => (by cases hgone), fun _ => .inr (.inr ⟨rfl, Bridge.run_idled h hs hp⟩),
        fun _ hclient => (by cases hclient)⟩
    | closed hr hp =>
      cases ht
      exact ⟨fun _ hgone => (by cases hgone), fun _ => .inr (.inl ⟨rfl, Bridge.run_closing h hp⟩),
        fun _ hclient => (by cases hclient)⟩
    | _ =>
      rw [hs] at ht
      cases ht

/-- A client that closes with code 1000. -/
theorem close_is_heard_iff_normal :
    ∃ as s a t, Bridge.Step s a t ∧ t.ended = some .clientFinished ∧
      (Bridge.HearsClose as t .clientFinished ↔ ¬s.Overhears a) := by
  have hrun : (Bridge.system (.new none 0 [])).Run (.new none 0 [])
      [.arrive (some (.close (some ⟨1000, "bye"⟩)))] _ := .single .arrive
  have hstep := Bridge.Step.close (s := { Bridge.new none 0 [] with
    inbox := [some (.close (some ⟨1000, "bye"⟩))] }) ⟨rfl, fun _ hp => (nomatch hp)⟩ rfl rfl
  exact ⟨_, _, _, _, hstep, rfl, close_is_heard_iff hrun hstep rfl rfl⟩

/-- The client closes with code 1000 while a frame is being sent to it, and sending it fails: the
bridge takes the client for gone. -/
theorem close_unheard :
    ∃ as s t, (Bridge.system (.new none 0 [])).Run (.new none 0 []) as s ∧
      Bridge.Step s .sendErr t ∧ t.ended = some .clientGone ∧
      .arrive (some (.close (some ⟨1000, "bye"⟩))) ∈ as ∧ ¬Bridge.HearsClose as t .clientGone := by
  have hrun : (Bridge.system (.new none 0 [])).Run (.new none 0 [])
      [.emit [98], .recv, .arrive (some (.close (some ⟨1000, "bye"⟩)))] _ :=
    .cons .emit <|
      .cons (.recv ⟨rfl, fun _ hp => (nomatch hp)⟩ rfl rfl) <|
      .single .arrive
  refine ⟨_, _, _, hrun, .sendErr ⟨rfl, fun _ hp => (nomatch hp)⟩ rfl, rfl, by simp, ?_⟩
  intro hheard
  exact hheard.notGone (by decide) rfl

end BrowserServe
