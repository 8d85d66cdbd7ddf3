import BrowserServe.CalibrateFrames
import Mathlib.Data.List.Induction

namespace BrowserServe
open Library
set_option autoImplicit true

namespace Recording

/-- A session by the time that the browser has sent so much, with what it is doing. -/
def drained (workload : String) (sent : Except PipeError Unit) (ds : List Delivery) : Draining :=
  match Link.setupRecording workload ⟨.new, sent, [], ds⟩ with
  | (.ok (), link) =>
    link.inbound.foldl Draining.next ⟨.listening, ({ link with client := .new } : Link).taken, 0⟩
  | (.error _, link) => ⟨.starting, link.taken, 0⟩

/-- A frame is answered when it comes: with its own acknowledgement and no other, and it is
counted once. -/
structure FrameServed (workload : String) (sent : Except PipeError Unit) (ds : List Delivery)
    (d : Delivery) (msg : Value) : Prop where
  acknowledged : ∃ id, (after workload sent (ds ++ [d])).acks = (after workload sent ds).acks ++
    [CdpClient.envelope id "Page.screencastFrameAck" (ackParams msg) (frameSessionId msg)]
  counted : (after workload sent (ds ++ [d])).frames = (after workload sent ds).frames + 1

/-- The frame comes while the loop receives, it names its session, and its acknowledgement can be
sent. -/
def Heard (workload : String) (sent : Except PipeError Unit) (ds : List Delivery) (d : Delivery)
    (msg : Value) : Prop :=
  (drained workload sent ds).phase = .listening ∧ (frameSessionId msg).isSome = true ∧
    d.sent = .ok ()

variable {workload : String} {sent : Except PipeError Unit} {ds more : List Delivery} {d : Delivery}
  {msg : Value}

theorem after_agrees (workload : String) (sent : Except PipeError Unit) (ds : List Delivery) :
    (after workload sent ds).Agrees (drained workload sent ds) := by
  unfold after session drained
  cases hrun : Link.setupRecording workload ⟨.new, sent, [], ds⟩ with
  | mk r link =>
    have hsetup : onLink (Link.setupRecording workload) ⟨⟨.new, sent, [], ds⟩, 0⟩ =
        (r, ⟨link, 0⟩) :=
      Async.on_of hrun
    cases r with
    | ok _ =>
      rw [Async.bind_of_ok hsetup]
      let recording : Recording := ⟨{ link with client := .new }, 0⟩
      exact drainFrames_agrees (Nat.lt_succ_self recording.link.inbound.length)
    | error stop =>
      rw [Async.bind_of_error hsetup]
      exact ⟨rfl, rfl⟩

theorem after_acks (workload : String) (sent : Except PipeError Unit) (ds : List Delivery) :
    (after workload sent ds).acks = (drained workload sent ds).link.acks := by
  rw [acks, (after_agrees workload sent ds).written]
  rfl

end Recording

namespace Draining

/-- What one delivery does to what is acknowledged and counted. -/
inductive Stepped (s : Draining) (d : Delivery) (t : Draining) : Prop
  | acked {id : Nat} (hphase : s.phase = .listening) (hframe : d.frame = some msg)
      (hsid : frameSessionId msg = some sid) (hsent : d.sent = .ok ())
      (hacks : t.link.acks = s.link.acks ++ [CdpClient.envelope id "Page.screencastFrameAck"
        (Recording.ackParams msg) (some sid)])
      (hframes : t.frames = s.frames + 1)
  | counted (hphase : s.phase = .listening) (hframe : d.frame = some msg)
      (hnot : ¬((frameSessionId msg).isSome = true ∧ d.sent = .ok ()))
      (hacks : t.link.acks = s.link.acks) (hframes : t.frames = s.frames + 1)
  | idle (hidle : s.phase = .listening → d.frame = none)
      (hacks : t.link.acks = s.link.acks) (hframes : t.frames = s.frames)

theorem frame_of_received {d : Delivery} (h : d.received = .ok msg) :
    d.frame = if isScreencastFrame msg then some msg else none := by
  rw [Delivery.frame, h]
  rfl

theorem frame_of_error {d : Delivery} (h : d.received = .error e) : d.frame = none := by
  rw [Delivery.frame, h]
  rfl

theorem acks_ack {link next : Link} {id : Nat} (h : next.written = link.written ++
      [CdpClient.envelope id "Page.screencastFrameAck" params sessionId]) :
    next.acks = link.acks ++
      [CdpClient.envelope id "Page.screencastFrameAck" params sessionId] := by
  rw [Link.acks, h, List.filter_append, List.filter_singleton, Link.isAck_envelope,
    decide_eq_true rfl]
  rfl

theorem next_stepped (s : Draining) (d : Delivery) : s.Stepped d (s.next d) := by
  have hbusy : s.phase ≠ .listening → s.phase = .listening → d.frame = none :=
    fun hne heq => absurd heq hne
  cases hphase : s.phase with
  | starting =>
    rw [hphase] at hbusy
    rw [next, hphase]
    exact .idle (hphase ▸ hbusy (by decide)) rfl rfl
  | ended =>
    rw [hphase] at hbusy
    rw [next, hphase]
    exact .idle (hphase ▸ hbusy (by decide)) rfl rfl
  | awaiting id =>
    rw [hphase] at hbusy
    have hidle := hbusy (by intro heq; cases heq)
    rw [next, hphase]
    cases d.received with
    | error e => exact .idle (hphase ▸ hidle) rfl rfl
    | ok msg => exact .idle (hphase ▸ hidle) rfl rfl
  | listening =>
    rw [next, hphase]
    cases hreceived : d.received with
    | error e => exact .idle (fun _ => frame_of_error hreceived) rfl rfl
    | ok msg =>
      have hframe := frame_of_received hreceived
      dsimp only
      split
      · rename_i hyes
        rw [if_pos hyes] at hframe
        cases hsid : frameSessionId msg with
        | none =>
          refine .counted hphase hframe ?_ rfl rfl
          rw [hsid]
          rintro ⟨hsome, _⟩
          cases hsome
        | some sid =>
          cases hsent : d.sent with
          | ok sent =>
            have hsend := Link.send_ok "Page.screencastFrameAck" (Recording.ackParams msg)
                (some sid)
              (show ({ s.link with sent := .ok sent } : Link).sent = .ok () from rfl)
            dsimp only
            rw [hsend]
            exact .acked hphase hframe hsid hsent
              (@acks_ack _ _ s.link _ s.link.client.nextId rfl) rfl
          | error e =>
            have hsend := Link.send_error "Page.screencastFrameAck" (Recording.ackParams msg)
              (some sid) (show ({ s.link with sent := .error e } : Link).sent = .error e from rfl)
            dsimp only
            rw [hsend]
            refine .counted hphase hframe ?_ rfl rfl
            rw [hsent]
            rintro ⟨_, hok⟩
            cases hok
      · rename_i hno
        rw [if_neg hno] at hframe
        exact .idle (fun _ => hframe) rfl rfl

theorem next_ne_starting {s : Draining} (h : s.phase ≠ .starting) (d : Delivery) :
    (s.next d).phase ≠ .starting := by
  intro heq
  unfold next at heq
  cases hphase : s.phase with
  | starting => exact h hphase
  | ended =>
    rw [hphase] at heq
    exact h heq
  | awaiting id =>
    rw [hphase] at heq
    cases hreceived : d.received with
    | error e =>
      rw [hreceived] at heq
      cases heq
    | ok msg =>
      rw [hreceived] at heq
      dsimp only at heq
      split at heq
      · cases heq
      · cases heq
  | listening =>
    rw [hphase] at heq
    dsimp only at heq
    split at heq
    · cases heq
    · split at heq
      · split at heq
        · cases heq
        · split at heq
          · cases heq
          · cases heq
      · cases heq

theorem foldl_ne_starting {s : Draining} (h : s.phase ≠ .starting) (ds : List Delivery) :
    (ds.foldl next s).phase ≠ .starting := by
  induction ds generalizing s with
  | nil => exact h
  | cons d ds ih => exact ih (next_ne_starting h d)

end Draining

namespace Recording

theorem drained_append (h : (drained workload sent ds).phase ≠ .starting) (more : List Delivery) :
    drained workload sent (ds ++ more) = more.foldl Draining.next (drained workload sent ds) := by
  cases hrun : Link.setupRecording workload ⟨.new, sent, [], ds⟩ with
  | mk r link =>
    cases r with
    | error stop =>
      unfold drained at h
      rw [hrun] at h
      exact absurd rfl h
    | ok done =>
      have hmore : Link.setupRecording workload ⟨.new, sent, [], ds ++ more⟩ =
          (.ok done, { link with inbound := link.inbound ++ more }) :=
        (Link.setupRecording_setsUp workload).consumes.more hrun (by intro heq; cases heq) more
      unfold drained
      rw [hrun, hmore]
      exact List.foldl_append

/-- As long as the session is set up, it has neither acknowledged nor counted. -/
theorem drained_starting (h : (drained workload sent ds).phase = .starting) :
    (drained workload sent ds).frames = 0 ∧ (drained workload sent ds).link.acks = [] := by
  have hkeeps := (Link.setupRecording_setsUp workload).acks ⟨.new, sent, [], ds⟩
  unfold drained at h ⊢
  cases hrun : Link.setupRecording workload ⟨.new, sent, [], ds⟩ with
  | mk r link =>
    rw [hrun] at h hkeeps
    cases r with
    | error stop => exact ⟨rfl, hkeeps⟩
    | ok done =>
      refine absurd h (Draining.foldl_ne_starting ?_ _)
      intro heq
      cases heq

/-- Nor has it when one delivery more has ended the set-up. -/
theorem drained_started (h : (drained workload sent ds).phase = .starting) (d : Delivery) :
    (drained workload sent (ds ++ [d])).frames = 0 ∧
      (drained workload sent (ds ++ [d])).link.acks = [] := by
  by_cases hstill : (drained workload sent (ds ++ [d])).phase = .starting
  · exact drained_starting hstill
  · have hsetsUp := Link.setupRecording_setsUp workload
    have hkeeps := hsetsUp.acks ⟨.new, sent, [], ds ++ [d]⟩
    cases hrun : Link.setupRecording workload ⟨.new, sent, [], ds ++ [d]⟩ with
    | mk r link =>
      rw [hrun] at hkeeps
      cases r with
      | error stop =>
        unfold drained at hstill
        rw [hrun] at hstill
        exact absurd rfl hstill
      | ok done =>
        have hok : (.ok done : Except (Stop RecordError) Unit) ≠ .error .waiting := by
          intro heq
          cases heq
        have hnil : link.inbound = [] := by
          cases hbefore : Link.setupRecording workload ⟨.new, sent, [], ds⟩ with
          | mk r' link' =>
            cases r' with
            | ok done' =>
              unfold drained at h
              rw [hbefore] at h
              refine absurd h (Draining.foldl_ne_starting ?_ _)
              intro heq
              cases heq
            | error stop =>
              cases stop with
              | waiting =>
                have hput : Link.setupRecording workload (Link.inbox.put
                    (Link.inbox.get ⟨.new, sent, [], ds⟩ ++ [d]) ⟨.new, sent, [], ds⟩) =
                      (.ok done, link) := hrun
                exact hsetsUp.consumes.last (by rw [hbefore]) hput hok
              | failed e =>
                have hmore := hsetsUp.consumes.more hbefore (by intro heq; cases heq) [d]
                cases hrun.symm.trans hmore
        unfold drained
        rw [hrun]
        dsimp only
        rw [hnil]
        exact ⟨rfl, hkeeps⟩

theorem drained_stepped (workload : String) (sent : Except PipeError Unit) (ds : List Delivery)
    (d : Delivery) :
    (drained workload sent ds).Stepped d (drained workload sent (ds ++ [d])) := by
  by_cases hstart : (drained workload sent ds).phase = .starting
  · obtain ⟨hframes, hacks⟩ := drained_starting hstart
    obtain ⟨hframes', hacks'⟩ := drained_started hstart d
    refine .idle ?_ (hacks'.trans hacks.symm) (hframes'.trans hframes.symm)
    intro hlistening
    rw [hstart] at hlistening
    cases hlistening
  · rw [drained_append hstart]
    exact Draining.next_stepped _ d

/-- A frame is served when it is heard, and only then. -/
theorem frameServed_iff (hframe : d.frame = some msg) :
    FrameServed workload sent ds d msg ↔ Heard workload sent ds d msg := by
  have hstepped := drained_stepped workload sent ds d
  have hframes := fun ds => (after_agrees workload sent ds).frames
  constructor
  · intro h
    have hacknowledged := h.acknowledged
    have hcounted := h.counted
    rw [after_acks, after_acks] at hacknowledged
    rw [hframes, hframes] at hcounted
    obtain ⟨id, hacknowledged⟩ := hacknowledged
    cases hstepped with
    | acked hphase hframe' hsid hsent =>
      obtain rfl := Option.some.inj (hframe.symm.trans hframe')
      exact ⟨hphase, by rw [hsid]; rfl, hsent⟩
    | counted hphase hframe' hnot hacks =>
      rw [hacks] at hacknowledged
      have hlength := congrArg List.length hacknowledged
      simp at hlength
    | idle _ _ hsame =>
      rw [hsame] at hcounted
      exact absurd hcounted (Nat.ne_of_lt (Nat.lt_succ_self _))
  · rintro ⟨hphase, hsome, hsent⟩
    cases hstepped with
    | @acked _ _ id _ hframe' hsid _ hacks hcounted =>
      obtain rfl := Option.some.inj (hframe.symm.trans hframe')
      refine ⟨⟨id, ?_⟩, ?_⟩
      · rw [after_acks, after_acks, hsid, hacks]
      · rw [hframes, hframes, hcounted]
    | counted _ hframe' hnot =>
      obtain rfl := Option.some.inj (hframe.symm.trans hframe')
      exact absurd ⟨hsome, hsent⟩ hnot
    | idle hidle =>
      rw [hidle hphase] at hframe
      cases hframe

/-- The first frame is taken by the set-up. -/
theorem drained_no_frame (h : ∀ d ∈ ds, d.frame = none) :
    (drained workload sent ds).phase = .starting := by
  unfold drained
  cases hrun : Link.setupRecording workload ⟨.new, sent, [], ds⟩ with
  | mk r link =>
    cases r with
    | error stop => rfl
    | ok done =>
      obtain ⟨d, hmem, hframe⟩ := Link.setupRecording_ok hrun
      exact absurd (h d hmem) hframe

/-- Whether a delivery is a frame that is not heard. -/
def isLost (workload : String) (sent : Except PipeError Unit) (ds : List Delivery) (d : Delivery) :
    Bool :=
  d.frame.any fun msg => !((drained workload sent ds).phase = .listening &&
    (frameSessionId msg).isSome && d.sent.isOk)

/-- How many of the frames are not heard. -/
def lost (workload : String) (sent : Except PipeError Unit) (ds : List Delivery) : Nat :=
  (List.range ds.length).countP fun t => ds[t]?.any (isLost workload sent (ds.take t))

/-- How many frames the browser has to take for unacknowledged when all it sent is dealt with. -/
def unacknowledged (workload : String) (sent : Except PipeError Unit) (ds : List Delivery) : Int :=
  (ds.filterMap Delivery.frame).length - (after workload sent ds).acks.length

theorem lost_snoc (workload : String) (sent : Except PipeError Unit) (ds : List Delivery)
    (d : Delivery) : lost workload sent (ds ++ [d]) =
      lost workload sent ds + if isLost workload sent ds d then 1 else 0 := by
  rw [lost, List.length_append, List.length_singleton, List.range_succ, List.countP_append, lost]
  congr 1
  · apply List.countP_congr
    intro t ht
    have hlt := List.mem_range.1 ht
    rw [List.getElem?_append_left hlt, List.take_append_of_le_length (Nat.le_of_lt hlt)]
  · rw [List.countP_singleton, List.getElem?_concat_length, List.take_left]
    rfl

theorem isOk_iff {x : Except ε Unit} : x.isOk = true ↔ x = .ok () := by
  cases x with
  | ok => exact ⟨fun _ => rfl, fun _ => rfl⟩
  | error e =>
    constructor
    · intro h
      cases h
    · intro h
      cases h

theorem isLost_of_frame (hframe : d.frame = some msg) :
    isLost workload sent ds d = true ↔ ¬Heard workload sent ds d msg := by
  rw [isLost, hframe, Option.any_some, Bool.not_eq_true', Bool.eq_false_iff, ne_eq,
    Bool.and_eq_true,
    Bool.and_eq_true, decide_eq_true_iff, isOk_iff, and_assoc]
  rfl

/-- What the browser has to take for unacknowledged is what is not heard. -/
theorem unacknowledged_eq (workload : String) (sent : Except PipeError Unit) (ds : List Delivery) :
    unacknowledged workload sent ds = lost workload sent ds := by
  unfold unacknowledged
  rw [after_acks]
  induction ds using List.reverseRecOn with
  | nil =>
    have hstart : (drained workload sent []).phase = .starting :=
      drained_no_frame fun d hmem => absurd hmem List.not_mem_nil
    rw [(drained_starting hstart).2]
    rfl
  | append_singleton ds d ih =>
    have hstepped := drained_stepped workload sent ds d
    have hframes : ((ds ++ [d]).filterMap Delivery.frame).length =
        (ds.filterMap Delivery.frame).length + d.frame.toList.length := by
      rw [List.filterMap_append, List.length_append]
      cases hframe : d.frame <;> simp [hframe]
    rw [lost_snoc, hframes]
    cases hstepped with
    | acked hphase hframe hsid hsent hacks =>
      have hheard : Heard workload sent ds d _ := ⟨hphase, by rw [hsid]; rfl, hsent⟩
      have hkept : ¬isLost workload sent ds d = true := by
        rw [isLost_of_frame hframe]
        exact not_not_intro hheard
      rw [if_neg hkept, hacks, hframe, List.length_append]
      simp only [Option.toList_some, List.length_singleton]
      omega
    | counted hphase hframe hnot hacks =>
      have hgone : isLost workload sent ds d = true := by
        rw [isLost_of_frame hframe]
        exact fun hheard => hnot hheard.2
      rw [if_pos hgone, hacks, hframe]
      simp only [Option.toList_some, List.length_singleton]
      omega
    | idle hidle hacks =>
      rw [hacks]
      cases hframe : d.frame with
      | none =>
        have hkept : ¬isLost workload sent ds d = true := by
          rw [isLost, hframe]
          exact Bool.false_ne_true
        rw [if_neg hkept]
        simp only [Option.toList_none, List.length_nil]
        omega
      | some msg =>
        have hgone : isLost workload sent ds d = true := by
          rw [isLost_of_frame hframe]
          intro hheard
          rw [hidle hheard.1] at hframe
          cases hframe
        rw [if_pos hgone]
        simp only [Option.toList_some, List.length_singleton]
        omega

/-- Some frame comes while the loop receives. -/
def Heeds (workload : String) (sent : Except PipeError Unit) (ds more : List Delivery) : Prop :=
  ∃ front d back, more = front ++ d :: back ∧ d.frame ≠ none ∧
    (drained workload sent (ds ++ front)).phase = .listening

theorem heeds_cons : Heeds workload sent ds (d :: more) ↔
    (d.frame ≠ none ∧ (drained workload sent ds).phase = .listening) ∨
      Heeds workload sent (ds ++ [d]) more := by
  constructor
  · rintro ⟨front, d', back, hsplit, hframe, hphase⟩
    cases front with
    | nil =>
      cases hsplit
      rw [List.append_nil] at hphase
      exact .inl ⟨hframe, hphase⟩
    | cons first front =>
      cases hsplit
      refine .inr ⟨front, d', back, rfl, hframe, ?_⟩
      rw [List.append_assoc]
      exact hphase
  · rintro (⟨hframe, hphase⟩ | ⟨front, d', back, rfl, hframe, hphase⟩)
    · exact ⟨[], d, more, rfl, hframe, by rw [List.append_nil]; exact hphase⟩
    · refine ⟨d :: front, d', back, rfl, hframe, ?_⟩
      rw [List.append_assoc] at hphase
      exact hphase

theorem drained_frames_snoc (workload : String) (sent : Except PipeError Unit) (ds : List Delivery)
    (d : Delivery) : (drained workload sent (ds ++ [d])).frames =
    (drained workload sent ds).frames +
      if d.frame ≠ none ∧ (drained workload sent ds).phase = .listening then 1 else 0 := by
  cases drained_stepped workload sent ds d with
  | acked hphase hframe _ _ _ hcounted =>
    rw [if_pos ⟨by rw [hframe]; exact Option.some_ne_none _, hphase⟩, hcounted]
  | counted hphase hframe _ _ hcounted =>
    rw [if_pos ⟨by rw [hframe]; exact Option.some_ne_none _, hphase⟩, hcounted]
  | idle hidle _ hsame =>
    rw [if_neg fun h => h.1 (hidle h.2), hsame, Nat.add_zero]

/-- The counter of a session goes up over some deliveries when one of them is a frame that comes
while the loop receives, and only then. -/
theorem drained_frames_append (ds more : List Delivery) :
    (drained workload sent ds).frames ≤ (drained workload sent (ds ++ more)).frames ∧
      ((drained workload sent ds).frames < (drained workload sent (ds ++ more)).frames ↔
        Heeds workload sent ds more) := by
  induction more generalizing ds with
  | nil =>
    rw [List.append_nil]
    refine ⟨Nat.le_refl _, ?_⟩
    constructor
    · intro h
      exact absurd h (Nat.lt_irrefl _)
    · rintro ⟨front, d, back, hsplit, _⟩
      cases front with
      | nil => cases hsplit
      | cons => cases hsplit
  | cons d more ih =>
    obtain ⟨hle, hlt⟩ := ih (ds ++ [d])
    have hsnoc := drained_frames_snoc workload sent ds d
    rw [List.append_assoc, List.singleton_append] at hle hlt
    rw [heeds_cons, ← hlt]
    split at hsnoc
    · rename_i hcounted
      refine ⟨by omega, fun _ => .inl hcounted, fun _ => by omega⟩
    · rename_i hidle
      rw [Nat.add_zero] at hsnoc
      rw [hsnoc] at hle ⊢
      refine ⟨hle, Or.inr, ?_⟩
      rintro (hcounted | h)
      · exact absurd hcounted hidle
      · exact h

/-- A session that is held, with what its browser sends before the probe and during it. -/
structure Held where
  sent : Except PipeError Unit
  before : List Delivery
  probe : List Delivery

/-- What `count_recording` finds among sessions that are held. -/
def recording (workload : String) (held : List Held) : Nat :=
  countRecording (held.map fun h => (after workload h.sent h.before).frames)
    (held.map fun h => (after workload h.sent (h.before ++ h.probe)).frames)

open Classical in
theorem recording_eq (workload : String) (held : List Held) : recording workload held =
    Nat.min (held.countP fun h => Heeds workload h.sent h.before h.probe) (2 ^ 32 - 1) := by
  unfold recording countRecording
  congr 1
  induction held with
  | nil => rfl
  | cons h held ih =>
    rw [List.map_cons, List.map_cons, List.zip_cons_cons, List.filter_cons, List.countP_cons, ← ih]
    have hiff : (after workload h.sent h.before).frames <
        (after workload h.sent (h.before ++ h.probe)).frames ↔
          Heeds workload h.sent h.before h.probe := by
      rw [(after_agrees _ _ _).frames, (after_agrees _ _ _).frames]
      exact (drained_frames_append h.before h.probe).2
    by_cases hheeds : Heeds workload h.sent h.before h.probe
    · simp [hheeds, hiff.2 hheeds]
    · simp [hheeds, mt hiff.1 hheeds]

open Classical in
/-- A frame is acknowledged with its own number and counted, once, if and only if it is heard, which
the first one is never. What the browser has to take for unacknowledged are the frames that are
lost, and the sessions that count as recording are those of which a frame comes to a loop that
receives. -/
theorem frames_acknowledged_iff (workload : String) (sent : Except PipeError Unit)
    (ds : List Delivery) :
    (∀ d msg, d.frame = some msg →
      (FrameServed workload sent ds d msg ↔ Heard workload sent ds d msg)) ∧
    ((∀ d ∈ ds, d.frame = none) → ∀ d msg, ¬Heard workload sent ds d msg) ∧
    unacknowledged workload sent ds = lost workload sent ds ∧
    ∀ held, recording workload held =
      Nat.min (held.countP fun h => Heeds workload h.sent h.before h.probe) (2 ^ 32 - 1) := by
  refine ⟨fun d msg hframe => frameServed_iff hframe, ?_, unacknowledged_eq workload sent ds,
    recording_eq workload⟩
  intro hnone d msg hheard
  have hphase := hheard.1
  rw [drained_no_frame hnone] at hphase
  cases hphase

def replyTo (id : Nat) (result : Value) : Delivery :=
  ⟨.ok (.obj [("id", .int id), ("result", result)]), .ok ()⟩

def frameEvent (number : Int) : Value :=
  .obj [("method", .str "Page.screencastFrame"), ("sessionId", .str "S"),
    ("params", .obj [("sessionId", .int number)])]

/-- The replies to the set-up, and the first frame. -/
def recordingStarts : List Delivery :=
  [replyTo 1 (.obj [("targetId", .str "T")]), replyTo 2 (.obj [("sessionId", .str "S")]),
    replyTo 3 .null, replyTo 4 .null, replyTo 5 .null, replyTo 6 .null, replyTo 7 .null,
    ⟨.ok (frameEvent 1), .ok ()⟩]

/-- The second frame of a session. -/
theorem second_frame_served :
    FrameServed "" (.ok ()) recordingStarts ⟨.ok (frameEvent 2), .ok ()⟩ (frameEvent 2) := by
  obtain ⟨hserved, _⟩ := frames_acknowledged_iff "" (.ok ()) recordingStarts
  apply (hserved _ _ rfl).2
  exact ⟨by decide +kernel, rfl, rfl⟩

/-- A frame that comes before the reply to the last acknowledgement is lost. -/
theorem frame_in_flight_lost :
    ¬∀ workload sent ds d msg, d.frame = some msg → FrameServed workload sent ds d msg := by
  intro hclaim
  have hserved := hclaim "" (.ok ()) (recordingStarts ++ [⟨.ok (frameEvent 2), .ok ()⟩])
    ⟨.ok (frameEvent 3), .ok ()⟩ (frameEvent 3) rfl
  obtain ⟨hphase, _⟩ := (frameServed_iff rfl).1 hserved
  revert hphase
  decide +kernel

end Recording
end BrowserServe
