import BrowserServe.Calibrate

namespace BrowserServe
open Library
set_option autoImplicit true

namespace Delivery

/-- The frame event that a delivery is. -/
def frame (d : Delivery) : Option Value := d.received.toOption.filter isScreencastFrame

end Delivery

/-- What a session is doing: it is set up, its loop receives or waits for the reply to an
acknowledgement, or its loop is over. -/
inductive Phase where
  | starting
  | listening
  | awaiting (id : Nat)
  | ended
  deriving DecidableEq

/-- A session, with what it is doing. -/
structure Draining where
  phase : Phase
  link : Link
  frames : Nat

namespace Draining

/-- What a delivery does to the loop of `drain_frames`. -/
def next (s : Draining) (d : Delivery) : Draining :=
  let link := { s.link with sent := d.sent }
  match s.phase with
  | .starting => s
  | .ended => s
  | .awaiting id =>
    match d.received with
    | .error _ => { s with phase := .listening, link }
    | .ok msg => { s with phase := if messageId msg = some id then .listening else s.phase, link }
  | .listening =>
    match d.received with
    | .error _ => { s with phase := .ended, link }
    | .ok msg =>
      if isScreencastFrame msg then
        match frameSessionId msg with
        | none => { s with link, frames := s.frames + 1 }
        | some sid =>
          match Link.send "Page.screencastFrameAck" (Recording.ackParams msg) (some sid) link with
          | (.ok id, link) => ⟨.awaiting id, link, s.frames + 1⟩
          | (.error _, link) => { s with link, frames := s.frames + 1 }
      else { s with link }

end Draining

namespace Link

/-- Without what is there to receive. -/
def taken (link : Link) : Link := { link with inbound := [] }

theorem recv_cons {link : Link} (h : link.inbound = d :: ds) : recv link =
    (match d.received with
      | .ok msg => .ok msg
      | .error e => .error (.failed (.cdp (.pipe e))),
          { link with sent := d.sent, inbound := ds }) := by
  unfold recv
  rw [h]
  cases d with
  | mk received sent =>
    cases received with
    | ok => rfl
    | error => rfl

theorem send_ok (method : String) (params : Value) (sessionId : Option String) {link : Link}
    (h : link.sent = .ok ()) : send method params sessionId link = (.ok link.client.nextId,
      { link with
        client := ⟨link.client.nextId + 1⟩
        written := link.written ++
          [CdpClient.envelope link.client.nextId method params sessionId] }) := by
  simp only [send, h]

theorem send_error (method : String) (params : Value) (sessionId : Option String) {link : Link}
    (h : link.sent = .error e) : send method params sessionId link =
      (.error (.failed (.cdp (.pipe e))), { link with client := ⟨link.client.nextId + 1⟩ }) := by
  simp only [send, h]

/-- A call waits for its reply over all there is to receive, or up to a delivery that ends it. -/
theorem awaitReply_spec (id : Nat) (method : String) (frames : Nat) {link : Link}
    (hrounds : link.inbound.length < rounds) :
    ((awaitReply id method rounds link).1 = .error .waiting ∧
      (awaitReply id method rounds link).2.inbound = [] ∧
      link.inbound.foldl Draining.next ⟨.awaiting id, link.taken, frames⟩ =
        ⟨.awaiting id, (awaitReply id method rounds link).2.taken, frames⟩) ∨
    ((awaitReply id method rounds link).1 ≠ .error .waiting ∧ ∃ front,
      link.inbound = front ++ (awaitReply id method rounds link).2.inbound ∧
      front.foldl Draining.next ⟨.awaiting id, link.taken, frames⟩ =
        ⟨.listening, (awaitReply id method rounds link).2.taken, frames⟩) := by
  induction rounds generalizing link with
  | zero => cases hrounds
  | succ rounds ih =>
    cases hinbound : link.inbound with
    | nil =>
      rw [awaitReply, Async.bind_of_error (recv_nil hinbound)]
      exact .inl ⟨rfl, hinbound, rfl⟩
    | cons d ds =>
      have hrecv := recv_cons hinbound
      cases hreceived : d.received with
      | error e =>
        rw [hreceived] at hrecv
        rw [awaitReply, Async.bind_of_error hrecv]
        refine .inr ⟨?_, [d], rfl, ?_⟩
        · intro h
          cases h
        · simp only [List.foldl_cons, List.foldl_nil, Draining.next, hreceived]
          rfl
      | ok msg =>
        rw [hreceived] at hrecv
        rw [awaitReply, Async.bind_of_ok hrecv]
        by_cases hid : messageId msg = some id
        · have hnext : [d].foldl Draining.next ⟨.awaiting id, link.taken, frames⟩ =
              ⟨.listening, { link.taken with sent := d.sent }, frames⟩ := by
            simp only [List.foldl_cons, List.foldl_nil, Draining.next, hreceived, if_pos hid]
          simp only [if_pos hid]
          cases CdpClient.outcome method msg with
          | error e =>
            refine .inr ⟨?_, [d], rfl, hnext⟩
            intro h
            cases h
          | ok result =>
            refine .inr ⟨?_, [d], rfl, hnext⟩
            intro h
            cases h
        · simp only [if_neg hid]
          have hstep : Draining.next ⟨.awaiting id, link.taken, frames⟩ d =
              ⟨.awaiting id, ({ link with sent := d.sent, inbound := ds } : Link).taken,
                frames⟩ := by
            simp only [Draining.next, hreceived, if_neg hid]
            rfl
          have hlt : ({ link with sent := d.sent, inbound := ds } : Link).inbound.length <
              rounds := by
            rw [hinbound] at hrounds
            exact Nat.lt_of_succ_lt_succ hrounds
          rcases ih hlt with ⟨hwait, hnil, hfold⟩ | ⟨hne, front, hfront, hfold⟩
          · refine .inl ⟨hwait, hnil, ?_⟩
            rw [List.foldl_cons, hstep]
            exact hfold
          · refine .inr ⟨hne, d :: front, ?_, ?_⟩
            · rw [List.cons_append, ← hfront]
            · rw [List.foldl_cons, hstep]
              exact hfold

end Link

namespace Recording

/-- A session has sent the same and counted the same. -/
structure Agrees (recording : Recording) (s : Draining) : Prop where
  written : recording.link.written = s.link.written
  frames : recording.frames = s.frames

theorem foldl_over {link : Link} (frames : Nat) (ds : List Delivery) :
    ds.foldl Draining.next ⟨.ended, link, frames⟩ = ⟨.ended, link, frames⟩ := by
  induction ds with
  | nil => rfl
  | cons d ds ih => exact ih

theorem attempt_recv {recording : Recording} (h : recording.link.inbound = d :: ds) :
    (Async.attempt (onLink Link.recv) : Async Recording ε (Except ProfileCdpError Value))
        recording =
      (.ok (match d.received with
        | .ok msg => .ok msg
        | .error e => .error (.cdp (.pipe e))),
        { recording with link := { recording.link with sent := d.sent, inbound := ds } }) := by
  have hrecv : onLink Link.recv recording = _ := Async.on_of (Link.recv_cons h)
  unfold Async.attempt
  rw [hrecv]
  cases d.received with
  | ok => rfl
  | error => rfl

theorem countFrame_run (recording : Recording) : (countFrame : Async Recording ε Unit) recording =
    (.ok (), { recording with frames := recording.frames + 1 }) := rfl

/-- A frame is acknowledged, and the loop goes on with what comes after the reply. -/
theorem ack_agrees {loop : Async Recording ε Unit} {recording : Recording} {d : Delivery}
    (hreceived : d.received = .ok msg) (hframe : isScreencastFrame msg = true)
    (hsid : frameSessionId msg = some sid)
    (hloop : ∀ next : Recording, next.link.inbound.length ≤ ds.length → (loop next).2.Agrees
      (next.link.inbound.foldl Draining.next ⟨.listening, next.link.taken, next.frames⟩)) :
    ((do
        let _ ← Async.attempt (onLink
          (Link.callOn (some sid) "Page.screencastFrameAck" (ackParams msg)))
        loop : Async Recording ε Unit)
      ⟨{ recording.link with sent := d.sent, inbound := ds }, recording.frames + 1⟩).2.Agrees
      (ds.foldl Draining.next (Draining.next
        ⟨.listening, recording.link.taken, recording.frames⟩ d)) := by
  let link : Link := { recording.link with sent := d.sent, inbound := ds }
  change ((Async.attempt
    (onLink (Link.callOn (some sid) "Page.screencastFrameAck" (ackParams msg))) >>=
    fun _ => loop) ⟨link, recording.frames + 1⟩).2.Agrees _
  cases hsent : d.sent with
  | error e =>
    have hsend := Link.send_error "Page.screencastFrameAck" (ackParams msg) (some sid)
      (show link.sent = .error e from hsent)
    have hcall : onLink (Link.callOn (some sid) "Page.screencastFrameAck" (ackParams msg))
        ⟨link, recording.frames + 1⟩ = (.error (.failed (.cdp (.pipe e))),
          ⟨{ link with client := ⟨link.client.nextId + 1⟩ }, recording.frames + 1⟩) :=
      Async.on_of (Async.bind_of_error hsend)
    have hstep : Draining.next ⟨.listening, recording.link.taken, recording.frames⟩ d =
        ⟨.listening, ({ link with client := ⟨link.client.nextId + 1⟩ } : Link).taken,
          recording.frames + 1⟩ := by
      have hsend' := Link.send_error "Page.screencastFrameAck" (ackParams msg) (some sid)
        (show ({ recording.link.taken with sent := d.sent } : Link).sent = .error e from hsent)
      simp only [Draining.next, hreceived, hframe, if_true, hsid, hsend']
      rfl
    rw [Async.bind_of_ok (Async.attempt_of_failed hcall), hstep]
    exact hloop ⟨{ link with client := ⟨link.client.nextId + 1⟩ }, recording.frames + 1⟩
      (Nat.le_refl _)
  | ok sent =>
    let acked : Link := { link with
      client := ⟨link.client.nextId + 1⟩
      written := link.written ++ [CdpClient.envelope link.client.nextId "Page.screencastFrameAck"
        (ackParams msg) (some sid)] }
    have hsend : Link.send "Page.screencastFrameAck" (ackParams msg) (some sid) link =
        (.ok link.client.nextId, acked) :=
      Link.send_ok _ _ _ (show link.sent = .ok () from hsent)
    have hstep : Draining.next ⟨.listening, recording.link.taken, recording.frames⟩ d =
        ⟨.awaiting link.client.nextId, acked.taken, recording.frames + 1⟩ := by
      have hsend' := Link.send_ok "Page.screencastFrameAck" (ackParams msg) (some sid)
        (show ({ recording.link.taken with sent := d.sent } : Link).sent = .ok () from hsent)
      simp only [Draining.next, hreceived, hframe, if_true, hsid, hsend']
      rfl
    have hspec := Link.awaitReply_spec link.client.nextId "Page.screencastFrameAck"
      (recording.frames + 1) (Nat.lt_succ_self acked.inbound.length)
    cases hrun : Link.awaitReply link.client.nextId "Page.screencastFrameAck"
        (acked.inbound.length + 1) acked with
    | mk r left =>
      rw [hrun] at hspec
      have hcall : onLink (Link.callOn (some sid) "Page.screencastFrameAck" (ackParams msg))
          ⟨link, recording.frames + 1⟩ = (r, ⟨left, recording.frames + 1⟩) :=
        Async.on_of ((Async.bind_of_ok hsend).trans hrun)
      rw [hstep]
      rcases hspec with ⟨hwait, _, hfold⟩ | ⟨hne, front, hfront, hfold⟩
      · obtain rfl : r = .error .waiting := hwait
        rw [Async.bind_of_error (Async.attempt_of_waiting hcall), show ds = acked.inbound from rfl,
          hfold]
        exact ⟨rfl, rfl⟩
      · have hnext := hloop ⟨left, recording.frames + 1⟩ (by
          rw [show ds = front ++ left.inbound from hfront, List.length_append]
          exact Nat.le_add_left _ _)
        rw [show ds = front ++ left.inbound from hfront, List.foldl_append, hfold]
        cases r with
        | ok reply =>
          rw [Async.bind_of_ok (Async.attempt_of_ok hcall)]
          exact hnext
        | error stop =>
          cases stop with
          | failed e =>
            rw [Async.bind_of_ok (Async.attempt_of_failed hcall)]
            exact hnext
          | waiting => exact absurd rfl hne

/-- The loop does over all there is to receive what its deliveries do one by one. -/
theorem drainFrames_agrees {recording : Recording} (h : recording.link.inbound.length < rounds) :
    ((drainFrames rounds : Async Recording ε Unit) recording).2.Agrees
      (recording.link.inbound.foldl Draining.next
        ⟨.listening, recording.link.taken, recording.frames⟩) := by
  induction rounds generalizing recording with
  | zero => cases h
  | succ rounds ih =>
    cases hinbound : recording.link.inbound with
    | nil =>
      have hrecv : onLink Link.recv recording = (.error .waiting, recording) :=
        Async.on_of (Link.recv_nil hinbound)
      rw [drainFrames, Async.bind_of_error (Async.attempt_of_waiting hrecv)]
      exact ⟨rfl, rfl⟩
    | cons d ds =>
      rw [hinbound, List.length_cons] at h
      have hds : ds.length < rounds := Nat.lt_of_succ_lt_succ h
      rw [drainFrames, Async.bind_of_ok (attempt_recv hinbound), List.foldl_cons]
      cases hreceived : d.received with
      | error e =>
        have hstep : Draining.next ⟨.listening, recording.link.taken, recording.frames⟩ d =
            ⟨.ended, { recording.link.taken with sent := d.sent }, recording.frames⟩ := by
          simp only [Draining.next, hreceived]
        rw [hstep, foldl_over]
        exact ⟨rfl, rfl⟩
      | ok msg =>
        dsimp only
        by_cases hframe : isScreencastFrame msg = true
        · rw [if_pos hframe]
          cases hsid : frameSessionId msg with
          | none =>
            have hstep : Draining.next ⟨.listening, recording.link.taken, recording.frames⟩ d =
                ⟨.listening, { recording.link.taken with sent := d.sent },
                  recording.frames + 1⟩ := by
              simp only [Draining.next, hreceived, hframe, if_true, hsid]
            rw [hstep]
            exact @ih ⟨{ recording.link with sent := d.sent, inbound := ds }, recording.frames + 1⟩
              hds
          | some sid =>
            dsimp only
            rw [Async.bind_of_ok (countFrame_run _)]
            exact ack_agrees hreceived hframe hsid fun next hnext =>
              ih (Nat.lt_of_le_of_lt hnext hds)
        · rw [if_neg hframe]
          have hstep : Draining.next ⟨.listening, recording.link.taken, recording.frames⟩ d =
              ⟨.listening, { recording.link.taken with sent := d.sent }, recording.frames⟩ := by
            simp only [Draining.next, hreceived, hframe, if_false, Bool.false_eq_true]
          rw [hstep]
          exact @ih ⟨{ recording.link with sent := d.sent, inbound := ds }, recording.frames⟩ hds

end Recording

namespace Link

def inbox : Inbox Link Delivery where
  get := Link.inbound
  put ds link := { link with inbound := ds }
  get_put _ _ := rfl
  put_get _ := rfl
  put_put _ _ _ := rfl

theorem recv_receives : inbox.Receives recv where
  waits _ h := recv_nil h
  takes link d ds h := by
    rw [recv_cons h]
    refine ⟨?_, rfl, ?_⟩
    · cases d.received with
      | ok msg =>
        intro heq
        cases heq
      | error e =>
        intro heq
        cases heq
    · intro more
      have hinbound : ({ link with inbound := d :: more } : Link).inbound = d :: more := rfl
      exact recv_cons hinbound

theorem awaitReply_scan (id : Nat) (method : String) : awaitReply id method =
    Inbox.scan recv fun msg => if messageId msg = some id then
      some ((CdpClient.outcome method msg).mapError .cdp) else none := by
  funext rounds
  induction rounds with
  | zero => rfl
  | succ rounds ih =>
    rw [awaitReply, Inbox.scan]
    congr 1
    funext msg
    rw [ih]
    split
    · cases CdpClient.outcome method msg with
      | ok => rfl
      | error => rfl
    · rfl

theorem waitFirstFrame_scan : waitFirstFrame =
    Inbox.scan recv fun msg => if isScreencastFrame msg then some (.ok ()) else none := by
  funext rounds
  induction rounds with
  | zero => rfl
  | succ rounds ih =>
    rw [waitFirstFrame, Inbox.scan]
    congr 1
    funext msg
    rw [ih]
    split
    · rfl
    · rfl

theorem recv_ok_inv {link next : Link} (h : recv link = (.ok msg, next)) :
    ∃ d, link.inbound = d :: next.inbound ∧ d.received = .ok msg := by
  cases hinbound : link.inbound with
  | nil =>
    rw [recv_nil hinbound] at h
    cases h
  | cons d ds =>
    rw [recv_cons hinbound] at h
    cases hreceived : d.received with
    | ok msg' =>
      rw [hreceived] at h
      cases h
      exact ⟨d, rfl, hreceived⟩
    | error e =>
      rw [hreceived] at h
      cases h

theorem waitFirstFrame_ok {link next : Link} (h : waitFirstFrame rounds link = (.ok (), next)) :
    ∃ d ∈ link.inbound, d.frame ≠ none := by
  induction rounds generalizing link with
  | zero => cases h
  | succ rounds ih =>
    obtain ⟨msg, received, hrecv, h⟩ := Async.bind_ok h
    obtain ⟨d, hinbound, hreceived⟩ := recv_ok_inv hrecv
    rw [hinbound]
    by_cases hframe : isScreencastFrame msg = true
    · refine ⟨d, List.mem_cons_self, ?_⟩
      rw [Delivery.frame, hreceived]
      simp [Except.toOption, hframe]
    · rw [if_neg hframe] at h
      obtain ⟨d', hmem, hd'⟩ := ih h
      exact ⟨d', List.mem_cons_of_mem _ hmem, hd'⟩

/-- The acknowledgements among what was sent. -/
def acks (link : Link) : List Value := link.written.filter Recording.isAck

/-- A part of the set-up: it takes what it needs, and acknowledges nothing. -/
structure SetsUp (x : Async Link ε α) : Prop where
  consumes : inbox.Consumes x
  acks : Async.Keeps acks x

theorem SetsUp.bind {x : Async Link ε α} {f : α → Async Link ε β} (hx : SetsUp x)
    (hf : ∀ a, SetsUp (f a)) : SetsUp (x >>= f) :=
  ⟨hx.consumes.bind fun a => (hf a).consumes, hx.acks.bind fun a => (hf a).acks⟩

theorem SetsUp.mapErr {x : Async Link ε α} (hx : SetsUp x) (f : ε → ε') : SetsUp (x.mapErr f) :=
  ⟨hx.consumes.mapErr f, hx.acks.mapErr f⟩

theorem setsUp_pure (a : α) : SetsUp (pure a : Async Link ε α) :=
  ⟨Inbox.consumes_pure a, Async.keeps_pure _ a⟩

theorem setsUp_throw (e : ε) : SetsUp (Async.throw e : Async Link ε α) :=
  ⟨Inbox.consumes_throw e, Async.keeps_throw _ e⟩

theorem newClient_setsUp : SetsUp (newClient : Async Link ε Unit) :=
  ⟨.of_still (fun _ _ => rfl) fun _ => rfl, fun _ => rfl⟩

theorem recv_acks : Async.Keeps acks recv := by
  intro link
  cases h : link.inbound with
  | nil => rw [recv_nil h]
  | cons d ds =>
    rw [recv_cons h]
    rfl

theorem scan_setsUp (stop : Value → Option (Except ProfileCdpError α)) :
    SetsUp (forever (Inbox.scan recv stop)) :=
  ⟨Inbox.scan_consumes recv_receives stop, fun link =>
    Inbox.keeps_scan recv_acks stop (link.inbound.length + 1) link⟩

theorem isAck_envelope (id : Nat) (method : String) (params : Value) (sessionId : Option String) :
    Recording.isAck (CdpClient.envelope id method params sessionId) =
      decide (method = "Page.screencastFrameAck") := by
  have hget : (CdpClient.envelope id method params sessionId).get "method" =
      some (.str method) := by
    simp [CdpClient.envelope, Value.get, List.lookup_cons]
  rw [Recording.isAck, hget]
  simp [Value.asStr]

theorem send_setsUp {method : String} (hmethod : method ≠ "Page.screencastFrameAck")
    (params : Value)
    (sessionId : Option String) : SetsUp (send method params sessionId) := by
  constructor
  · apply Inbox.Consumes.of_still
    · intro ds link
      cases h : link.sent with
      | ok sent => rw [send_ok _ _ _ (show (inbox.put ds link).sent = .ok () from h),
          send_ok _ _ _ h]; rfl
      | error e =>
        rw [send_error _ _ _ (show (inbox.put ds link).sent = .error e from h), send_error _ _ _ h]
        rfl
    · intro link
      cases h : link.sent with
      | ok sent => rw [send_ok _ _ _ h]; rfl
      | error e => rw [send_error _ _ _ h]; rfl
  · intro link
    cases h : link.sent with
    | ok sent =>
      rw [send_ok _ _ _ h, acks, List.filter_append, List.filter_singleton, isAck_envelope,
        decide_eq_false hmethod]
      exact List.append_nil _
    | error e =>
      rw [send_error _ _ _ h]
      rfl

theorem callOn_setsUp {method : String} (hmethod : method ≠ "Page.screencastFrameAck")
    (params : Value) (sessionId : Option String) : SetsUp (callOn sessionId method params) := by
  apply (send_setsUp hmethod params sessionId).bind
  intro id
  rw [awaitReply_scan]
  exact scan_setsUp _

theorem field_setsUp (what key : String) (msg : Value) : SetsUp (field what key msg) := by
  unfold field
  split
  · exact setsUp_pure _
  · exact setsUp_throw _

theorem callEach_setsUp (sid : String) {commands : List (String × Value)}
    (h : ∀ command ∈ commands, command.1 ≠ "Page.screencastFrameAck") :
    SetsUp (callEach sid commands) := by
  induction commands with
  | nil => exact setsUp_pure ()
  | cons command commands ih =>
    rw [List.forall_mem_cons] at h
    obtain ⟨method, params⟩ := command
    rw [callEach]
    apply ((callOn_setsUp h.1 params (some sid)).mapErr (RecordError.command method)).bind
    intro _
    exact ih h.2

theorem setupRecording_setsUp (workload : String) : SetsUp (setupRecording workload) := by
  apply newClient_setsUp.bind
  intro _
  apply ((callOn_setsUp (by decide) _ _).mapErr _).bind
  intro created
  apply (field_setsUp _ _ created).bind
  intro targetId
  apply ((callOn_setsUp (by decide) _ _).mapErr _).bind
  intro attached
  apply (field_setsUp _ _ attached).bind
  intro sid
  have hcommands : ∀ command ∈ recordCommands workload, command.1 ≠ "Page.screencastFrameAck" := by
    simp [recordCommands]
  apply (callEach_setsUp sid hcommands).bind
  intro _
  rw [waitFirstFrame_scan]
  exact (scan_setsUp _).mapErr _

/-- A set-up is over only when it has taken a frame. -/
theorem setupRecording_ok {workload : String} {link next : Link}
    (h : setupRecording workload link = (.ok (), next)) : ∃ d ∈ link.inbound, d.frame ≠ none := by
  have hback : ∀ {α : Type} {x : Async Link RecordError α} {s t : Link} {a : α}, SetsUp x →
      x s = (.ok a, t) → (∃ d ∈ t.inbound, d.frame ≠ none) → ∃ d ∈ s.inbound, d.frame ≠ none := by
    intro α x s t a hx hrun
    rintro ⟨d, hmem, hd⟩
    refine ⟨d, hx.consumes.mem (s := s) ?_, hd⟩
    rw [hrun]
    exact hmem
  have hcommands : ∀ command ∈ recordCommands workload, command.1 ≠ "Page.screencastFrameAck" := by
    simp [recordCommands]
  obtain ⟨_, link₁, hnew, h⟩ := Async.bind_ok h
  obtain ⟨created, link₂, hcreate, h⟩ := Async.bind_ok h
  obtain ⟨targetId, link₃, htarget, h⟩ := Async.bind_ok h
  obtain ⟨attached, link₄, hattach, h⟩ := Async.bind_ok h
  obtain ⟨sid, link₅, hsid, h⟩ := Async.bind_ok h
  obtain ⟨_, link₆, hcalls, h⟩ := Async.bind_ok h
  apply hback newClient_setsUp hnew
  apply hback ((callOn_setsUp (by decide) _ _).mapErr _) hcreate
  apply hback (field_setsUp _ _ _) htarget
  apply hback ((callOn_setsUp (by decide) _ _).mapErr _) hattach
  apply hback (field_setsUp _ _ _) hsid
  apply hback (callEach_setsUp sid hcommands) hcalls
  exact waitFirstFrame_ok (Async.mapErr_ok h)

end Link
end BrowserServe
