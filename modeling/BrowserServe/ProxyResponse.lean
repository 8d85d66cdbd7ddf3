import BrowserServe.ProxyTunnel

namespace BrowserServe
open Library
set_option autoImplicit true

/-- What the browser may have been sent by some point of a connection. -/
inductive BrowserGets (httparse : Httparse) (dialer : Dialer) (copied : Nat)
    (client upstream : Incoming UInt8) : List UInt8 → Prop
  | stopped (hserve : Relay.serve httparse dialer copied (.fresh client upstream) = (r, c))
      (hr : r = .ok .closed ∨ r = .error .waiting) :
      BrowserGets httparse dialer copied client upstream c.client.outgoing.written
  | tunnel (hserve : Relay.serve httparse dialer copied (.fresh client upstream) = (.ok .tunnel, c))
      (hreach : c.tunnelling.Reachable d) :
      BrowserGets httparse dialer copied client upstream d.down.sink.written
  | exchange
      (hserve : Relay.serve httparse dialer copied (.fresh client upstream) = (.ok .exchange, c))
      (hreach : c.exchanging.Reachable x) :
      BrowserGets httparse dialer copied client upstream x.response.sink.written

/-- What the browser has been sent of a response when there is nothing more to do, and the
upstream has not failed. -/
inductive BrowserKeeps (httparse : Httparse) (dialer : Dialer) (copied : Nat)
    (client upstream : Incoming UInt8) : List UInt8 → Prop
  | closed
      (hserve : Relay.serve httparse dialer copied (.fresh client upstream) = (.ok .closed, c)) :
      BrowserKeeps httparse dialer copied client upstream c.client.outgoing.written
  | exchange
      (hserve : Relay.serve httparse dialer copied (.fresh client upstream) = (.ok .exchange, c))
      (hreach : c.exchanging.Reachable x) (hsettled : ∀ y, ¬ Exchange.Step x () y)
      (hfails : ¬ x.response.Fails) :
      BrowserKeeps httparse dialer copied client upstream x.response.sink.written

/-- A response that reaches the browser as it is: never anything else, all of it in the end,
and nothing stands in the way of that. -/
structure Unchanged (httparse : Httparse) (dialer : Dialer) (copied : Nat)
    (client upstream : Incoming UInt8) (response : List UInt8) : Prop where
  gets : ∀ w, BrowserGets httparse dialer copied client upstream w → w <+: response
  keeps : ∀ w, BrowserKeeps httparse dialer copied client upstream w → w = response
  reaches : ∀ c, Relay.serve httparse dialer copied (.fresh client upstream) = (.ok .exchange, c) →
    BrowserGets httparse dialer copied client upstream response

/-- What is kept while a response is copied: its stream, and why the exchange is over. -/
structure Exchange.Keeps (x : Exchange) (conn : Conn) : Prop where
  response : x.response.From conn.down
  isOver : x.isOver = true → x.response.Finished ∨ x.response.Fails

theorem exchanging_keeps {conn : Conn} (h : conn.exchanging.Reachable x) : x.Keeps conn := by
  apply h.invariant
  · intro s hs
    rw [show s = ⟨conn.down, conn.up, false⟩ from hs]
    exact ⟨.refl (Transfer.new_ended _ _), fun hover => (by cases hover)⟩
  · intro s a t _ hs hstep
    cases hstep with
    | response hover hstep =>
      exact ⟨hs.response.step hstep, fun htrue => absurd (hover.symm.trans htrue) (by decide)⟩
    | body hover => exact ⟨hs.response, fun htrue => absurd (hover.symm.trans htrue) (by decide)⟩
    | shutdown _ hdone => exact ⟨hs.response.shut, fun _ => hdone⟩

theorem exchanging_isPrefix {conn : Conn} (h : conn.exchanging.Reachable x) :
    x.response.sink.written <+: conn.down.stream := by
  rw [← (exchanging_keeps h).response.stream]
  exact Transfer.written_isPrefix _

/-- An exchange that is through with its response has written all of it. -/
theorem Exchange.written_of_settled {conn : Conn} (h : conn.exchanging.Reachable x)
    (hroom : conn.client.outgoing.room = none) (hsettled : ∀ y, ¬ Exchange.Step x () y)
    (hfails : ¬ x.response.Fails) : x.response.sink.written = conn.down.stream := by
  obtain ⟨hfrom, hover⟩ := exchanging_keeps h
  rw [← hfrom.stream]
  cases hx : x.isOver with
  | true =>
    rcases hover hx with hdone | hfail
    · exact Transfer.written_of_finished hfrom.ended hdone
    · exact absurd hfail hfails
  | false =>
    exact Transfer.written_of_stuck (hfrom.room hroom) hfrom.ended
      fun next hstep => hsettled _ (.response hx hstep)

theorem exchanging_lift {conn : Conn} (h : Relation.ReflTransGen Transfer.Step conn.down t) :
    conn.exchanging.Reachable ⟨t, conn.up, false⟩ := by
  induction h with
  | refl => exact .init rfl
  | tail _ hstep ih => exact ih.step (.response rfl hstep)

/-- All of a response can be written. -/
theorem Exchange.exists_written {conn : Conn} (hroom : conn.client.outgoing.room = none) :
    ∃ x, conn.exchanging.Reachable x ∧ x.response.sink.written = conn.down.stream := by
  obtain ⟨t, hrun, hwritten⟩ := Transfer.exists_written hroom (Transfer.new_ended _ _)
  exact ⟨_, exchanging_lift hrun, hwritten⟩

theorem replyMessage_statusCode (reason : String) :
    statusCode (replyMessage 400 reason) = some 400 ∧
      statusCode (replyMessage 502 reason) = some 502 := by
  constructor
  · have hline : statusCode (asBytes (text "HTTP/1.1 400 Bad Request")) = some 400 := by
      decide +kernel
    simp only [replyMessage, replyHead, List.append_assoc]
    exact statusCode_of_isPrefix hline
  · have hline : statusCode (asBytes (text "HTTP/1.1 502 Bad Gateway")) = some 502 := by
      decide +kernel
    simp only [replyMessage, replyHead, List.append_assoc]
    exact statusCode_of_isPrefix hline

theorem replyMessage_blank (status : Nat) (reason : String) :
    findHeadEnd (replyMessage status reason) ≠ none := by
  apply endOf_of_isInfix
  exact ⟨_, _, rfl⟩

theorem opened_ok {httparse : Httparse} {dialer : Dialer} {s up : ByteStream}
    (h : Relay.opened httparse dialer host port method absolute originForm headers s =
      (.ok (rest, requestHead), up)) :
    rest = [] ∧ (s.outgoing.room = none → up.outgoing.room = none) := by
  unfold Relay.opened at h
  cases hscheme : dialer.upstream.scheme with
  | socks5 =>
    rw [hscheme] at h
    obtain ⟨past, t, htunnel, h⟩ := Async.bind_ok h
    obtain ⟨_, _, _, hpassed⟩ := tunnel_ok htunnel
    obtain ⟨_, t', hopen, hinner⟩ := Async.bind_ok (timeout_ok htunnel)
    rw [hscheme] at hinner
    obtain ⟨_, t'', _, hpast⟩ := Async.bind_ok hinner
    cases hpast
    cases h
    exact ⟨rfl, hpassed.room⟩
  | http =>
    rw [hscheme] at h
    obtain ⟨_, t, hopen, h⟩ := Async.bind_ok h
    have ht : s = t := (Prod.mk.inj (timeout_ok hopen)).2
    subst ht
    cases h
    exact ⟨rfl, id⟩
  | https =>
    rw [hscheme] at h
    obtain ⟨_, t, hopen, h⟩ := Async.bind_ok h
    have ht : s = t := (Prod.mk.inj (timeout_ok hopen)).2
    subst ht
    cases h
    exact ⟨rfl, id⟩

/-- A response the relay lets through, as far as it has read its head. -/
def Passes (httparse : Httparse) (head : Except (Stop IoError) (Option Head)) : Prop :=
  head = .error .waiting ∨ ∃ h, head = .ok (some h) ∧
    responseStatus httparse h.head ≠ some 401 ∧ responseStatus httparse h.head ≠ some 407

/-- What `serve` comes to where a request is forwarded. -/
inductive Forwarded (httparse : Httparse) (up : Incoming UInt8) :
    Except (Stop Empty) Relayed × Conn → Prop
  | passed {c : Conn} (hread : readHead [] up = (.ok (some head), after))
      (hpass : Passes httparse (.ok (some head)))
      (hclient : c.client.outgoing = ⟨head.head ++ head.rest, none, false⟩)
      (hup : c.upstream.incoming = after) : Forwarded httparse up (.ok .exchange, c)
  | waiting {c : Conn} (hread : readHead [] up = (.error .waiting, after))
      (hclient : c.client.outgoing.written = []) : Forwarded httparse up (.error .waiting, c)
  | login {c : Conn} (hread : readHead [] up = (.ok (some head), after))
      (hstatus : responseStatus httparse head.head = some 401 ∨
        responseStatus httparse head.head = some 407)
      (hclient : c.client.outgoing.written = replyMessage 502 ProxyError.loginFailed.toString) :
      Forwarded httparse up (.ok .closed, c)
  | closed {c : Conn} (hread : readHead [] up = (.ok none, after))
      (hclient : c.client.outgoing.written = replyMessage 502 reason) :
      Forwarded httparse up (.ok .closed, c)
  | failed {c : Conn} (hread : readHead [] up = (.error (.failed e), after))
      (hclient : c.client.outgoing.written = replyMessage 502 (unreachable e).toString) :
      Forwarded httparse up (.ok .closed, c)

theorem reply_close {c : Conn} (hempty : c.client.outgoing = ⟨[], none, false⟩) (reason : String) :
    ∃ c', (reply 502 reason >>= fun _ => pure Relayed.closed : Async Conn Empty Relayed) c =
      (.ok .closed, c') ∧ c'.client.outgoing.written = replyMessage 502 reason := by
  refine ⟨_, Async.bind_of_ok (reply_run 502 reason (congrArg Outgoing.room hempty)), ?_⟩
  simp only [Conn.replied, ByteStream.sent, hempty, List.nil_append]

theorem serve_forwarded {httparse : Httparse} {dialer : Dialer} {client upstream : Incoming UInt8}
    (hread : readHead [] client = (.ok (some head), incoming))
    (hparse : parseRequest httparse head.head =
      .ok (.forward host port method absolute originForm headers))
    (hopened : Relay.opened httparse dialer host port method absolute originForm headers
      (.fresh upstream) = (.ok (rest, requestHead), up)) :
    Forwarded httparse up.incoming
      (Relay.serve httparse dialer copied (.fresh client upstream)) := by
  obtain ⟨rfl, hroom⟩ := opened_ok hopened
  have hopened' : Relay.opened httparse dialer host port method absolute originForm headers
      ((Conn.fresh client upstream).heard incoming).upstream = (.ok ([], requestHead), up) :=
    hopened
  rw [serve_request hread hparse, outcome_forward, hopened']
  obtain ⟨sent, hclient, hup, _, hforward⟩ :=
    forward_of_open httparse copied [] requestHead head.rest
    (show ({ (Conn.fresh client upstream).heard incoming with upstream := up } :
      Conn).upstream.outgoing.room = none from hroom rfl)
  have hempty : sent.client.outgoing = ⟨[], none, false⟩ := hclient
  have hresponse := response_responding httparse [] (congrArg Outgoing.room hempty)
  simp only [hforward]
  generalize Relay.response httparse [] sent = result at hresponse
  have hsame : sent.upstream.incoming = up.incoming := hup
  have hgiven (after : Incoming UInt8) (e : ProxyError) :=
    reply_close (c := { sent with upstream := sent.upstream.read after }) hempty e.toString
  cases hresponse with
  | passed hanswer hstatus =>
    rw [hsame] at hanswer
    refine .passed hanswer (.inr ⟨_, rfl, not_or.1 hstatus⟩) ?_ rfl
    simp only [ByteStream.sent, hempty, List.nil_append]
  | waiting hanswer =>
    rw [hsame] at hanswer
    exact .waiting hanswer (congrArg Outgoing.written hempty)
  | @login after head hanswer hstatus =>
    rw [hsame] at hanswer
    obtain ⟨c, hrun, hwritten⟩ := hgiven after ProxyError.loginFailed
    change Forwarded httparse up.incoming ((reply 502 _ >>= _ : Async Conn Empty Relayed) _)
    rw [hrun]
    exact .login hanswer hstatus hwritten
  | @closed after hanswer =>
    rw [hsame] at hanswer
    obtain ⟨c, hrun, hwritten⟩ := hgiven after (.unreachable "proxy closed the connection")
    change Forwarded httparse up.incoming ((reply 502 _ >>= _ : Async Conn Empty Relayed) _)
    rw [hrun]
    exact .closed hanswer hwritten
  | @failed after e hanswer =>
    rw [hsame] at hanswer
    obtain ⟨c, hrun, hwritten⟩ := hgiven after (unreachable e)
    change Forwarded httparse up.incoming ((reply 502 _ >>= _ : Async Conn Empty Relayed) _)
    rw [hrun]
    exact .failed hanswer hwritten

theorem replyMessage_ne_nil (status : Nat) (reason : String) : replyMessage status reason ≠ [] := by
  simp [replyMessage]

/-- The relay's own answer is no first part of a response it gives up on. -/
theorem reply_not_isPrefix {httparse : Httparse} (hdoc : httparse.Documented) {up : Incoming UInt8}
    {served : Except (Stop Empty) Relayed} (h : Forwarded httparse up (served, c))
    (hclosed : served = .ok .closed) : ¬ c.client.outgoing.written <+: up.bytes := by
  intro hpre
  cases h with
  | passed => cases hclosed
  | waiting => cases hclosed
  | login hread hstatus hclient =>
    rw [hclient] at hpre
    obtain ⟨more, hmore⟩ := hpre
    obtain ⟨hsplit, _⟩ := readHead_split hread
    rw [List.nil_append] at hsplit
    have hown : statusCode (replyMessage 502 ProxyError.loginFailed.toString ++ more) = some 502 :=
      statusCode_of_isPrefix (replyMessage_statusCode _).2
    rw [hmore, hsplit] at hown
    rcases hstatus with hstatus | hstatus
    · have hcode := hdoc _ _ _ (Option.join_eq_some_iff.1 hstatus)
      rw [statusCode_of_isPrefix hcode] at hown
      cases hown
    · have hcode := hdoc _ _ _ (Option.join_eq_some_iff.1 hstatus)
      rw [statusCode_of_isPrefix hcode] at hown
      cases hown
  | @closed after reason c hread hclient =>
    rw [hclient] at hpre
    obtain ⟨hspec, _⟩ := readHead_reads hread
    rw [List.nil_append] at hspec
    generalize up.bytes = stream, after.bytes = left at hspec hpre
    cases hspec with
    | closed hnil =>
      rw [hnil] at hpre
      exact replyMessage_ne_nil _ _ (List.prefix_nil.1 hpre)
  | @failed after e c hread hclient =>
    rw [hclient] at hpre
    obtain ⟨hspec, _⟩ := readHead_reads hread
    rw [List.nil_append] at hspec
    generalize up.bytes = stream, after.bytes = left at hspec hpre
    cases hspec with
    | @tooLarge start _ hsplit hnone hlong =>
      have hshort : (replyMessage 502 (unreachable headTooLarge).toString).length ≤
          MAX_HEAD_BYTES := by decide +kernel
      have hstart := List.prefix_of_prefix_length_le hpre ⟨_, hsplit.symm⟩
        (Nat.le_trans hshort hlong)
      exact replyMessage_blank _ _ (endOf_none_of_isPrefix hnone hstart)
    | midway _ hnone => exact replyMessage_blank _ _ (endOf_none_of_isPrefix hnone hpre)
    | failed hnone => exact replyMessage_blank _ _ (endOf_none_of_isPrefix hnone hpre)

theorem Forwarded.not_passes {httparse : Httparse} {up : Incoming UInt8}
    (h : Forwarded httparse up (.ok .closed, c)) : ¬ Passes httparse (readHead [] up).1 := by
  intro hpasses
  cases h with
  | login hread hstatus =>
    rw [hread] at hpasses
    rcases hpasses with hwait | ⟨_, hhead, hne, hne'⟩
    · cases hwait
    · cases hhead
      rcases hstatus with hstatus | hstatus
      · exact hne hstatus
      · exact hne' hstatus
  | closed hread =>
    rw [hread] at hpasses
    rcases hpasses with hwait | ⟨_, hhead, _⟩
    · cases hwait
    · cases hhead
  | failed hread =>
    rw [hread] at hpasses
    rcases hpasses with hwait | ⟨_, hhead, _⟩
    · cases hwait
    · cases hhead

/-- What is copied of a response that passes is the upstream's stream from its first byte. -/
theorem Forwarded.stream {httparse : Httparse} {up : Incoming UInt8}
    (h : Forwarded httparse up (.ok .exchange, c)) :
    c.down.stream = up.bytes ∧ c.client.outgoing.room = none := by
  cases h with
  | passed hread _ hclient hup =>
    obtain ⟨hsplit, _⟩ := readHead_split hread
    refine ⟨?_, congrArg Outgoing.room hclient⟩
    rw [List.nil_append] at hsplit
    rw [hsplit]
    simp [Conn.down, Transfer.stream, Transfer.new, hclient, hup]

theorem Forwarded.unchanged_iff {httparse : Httparse} (hdoc : httparse.Documented)
    {up : Incoming UInt8}
    (h : Forwarded httparse up (Relay.serve httparse dialer copied (.fresh client upstream))) :
    Unchanged httparse dialer copied client upstream up.bytes ↔
      Passes httparse (readHead [] up).1 := by
  generalize hserve : Relay.serve httparse dialer copied (.fresh client upstream) = result at h
  obtain ⟨r, c⟩ := result
  have hsame {r' : Except (Stop Empty) Relayed} {c' : Conn}
      (hserve' : Relay.serve httparse dialer copied (.fresh client upstream) = (r', c')) :
      r = r' ∧ c = c' := Prod.mk.inj (hserve.symm.trans hserve')
  constructor
  · intro hunchanged
    cases h with
    | passed hread hpass =>
      rw [hread]
      exact hpass
    | waiting hread =>
      rw [hread]
      exact .inl rfl
    | login hread hstatus hclient =>
      exact (reply_not_isPrefix hdoc (.login hread hstatus hclient) rfl
        (hunchanged.gets _ (.stopped hserve (.inl rfl)))).elim
    | closed hread hclient =>
      exact (reply_not_isPrefix hdoc (.closed hread hclient) rfl
        (hunchanged.gets _ (.stopped hserve (.inl rfl)))).elim
    | failed hread hclient =>
      exact (reply_not_isPrefix hdoc (.failed hread hclient) rfl
        (hunchanged.gets _ (.stopped hserve (.inl rfl)))).elim
  · intro hpasses
    refine ⟨?_, ?_, ?_⟩
    · intro w hw
      cases hw with
      | stopped hserve' hr =>
        obtain ⟨rfl, rfl⟩ := hsame hserve'
        rcases hr with rfl | rfl
        · exact absurd hpasses h.not_passes
        · cases h with
          | waiting _ hclient =>
            rw [hclient]
            exact List.nil_prefix
      | tunnel hserve' =>
        obtain ⟨rfl, rfl⟩ := hsame hserve'
        cases h
      | exchange hserve' hreach =>
        obtain ⟨rfl, rfl⟩ := hsame hserve'
        rw [← h.stream.1]
        exact exchanging_isPrefix hreach
    · intro w hw
      cases hw with
      | closed hserve' =>
        obtain ⟨rfl, rfl⟩ := hsame hserve'
        exact absurd hpasses h.not_passes
      | exchange hserve' hreach hsettled hfails =>
        obtain ⟨rfl, rfl⟩ := hsame hserve'
        rw [← h.stream.1]
        exact Exchange.written_of_settled hreach h.stream.2 hsettled hfails
    · intro c' hserve'
      obtain ⟨rfl, rfl⟩ := hsame hserve'
      obtain ⟨x, hreach, hwritten⟩ := Exchange.exists_written h.stream.2
      rw [← h.stream.1, ← hwritten]
      exact .exchange hserve' hreach

/-- A website's response, or a proxy's with another status than 407, comes through as it was
sent if and only if its head can be read and its status is not 401, nor 407 over SOCKS5. The stream
to the upstream is a fresh one, which takes all that is written to it. -/
theorem website_response_unchanged_iff {httparse : Httparse} (hdoc : httparse.Documented)
    (dialer : Dialer) (copied : Nat) (client upstream : Incoming UInt8)
    (hread : readHead [] client = (.ok (some head), incoming))
    (hparse : parseRequest httparse head.head =
      .ok (.forward host port method absolute originForm headers))
    (hopened : Relay.opened httparse dialer host port method absolute originForm headers
      (.fresh upstream) = (.ok (rest, requestHead), up)) :
    (dialer.upstream.scheme = .socks5 ∨ (∀ response,
        (readHead [] up.incoming).1 = .ok (some response) →
          responseStatus httparse response.head ≠ some 407) →
      Unchanged httparse dialer copied client upstream up.incoming.bytes) ↔
    (readHead [] up.incoming).1 = .error .waiting ∨
      ∃ response, (readHead [] up.incoming).1 = .ok (some response) ∧
        responseStatus httparse response.head ≠ some 401 ∧
        (responseStatus httparse response.head = some 407 → dialer.upstream.scheme ≠ .socks5) := by
  have hforwarded : Forwarded httparse up.incoming
      (Relay.serve httparse dialer copied (.fresh client upstream)) :=
    serve_forwarded hread hparse hopened
  rw [hforwarded.unchanged_iff hdoc]
  constructor
  · intro h
    by_cases hclaimed : dialer.upstream.scheme = .socks5 ∨ ∀ response,
        (readHead [] up.incoming).1 = .ok (some response) →
          responseStatus httparse response.head ≠ some 407
    · rcases h hclaimed with hwait | ⟨response, hresponse, hne, hne'⟩
      · exact .inl hwait
      · exact .inr ⟨response, hresponse, hne, fun hstatus => absurd hstatus hne'⟩
    · obtain ⟨hscheme, hlogin⟩ := not_or.1 hclaimed
      simp only [not_forall, not_not] at hlogin
      obtain ⟨response, hresponse, hstatus⟩ := hlogin
      refine .inr ⟨response, hresponse, ?_, fun _ => hscheme⟩
      rw [hstatus]
      decide
  · rintro (hwait | ⟨response, hresponse, hne, himp⟩) hclaimed
    · exact .inl hwait
    · refine .inr ⟨response, hresponse, hne, fun hstatus => ?_⟩
      rcases hclaimed with hscheme | hlogin
      · exact himp hstatus hscheme
      · exact hlogin response hresponse hstatus

def plainGet : List UInt8 := asBytes (text "GET http://a/ HTTP/1.1") ++ crlf ++ crlf

def answerHead (line : String) : List UInt8 := asBytes (text line) ++ crlf ++ crlf

def plainProxy : Dialer := ⟨⟨.http, text "p", 80, none, none⟩, .ok (), false⟩

theorem plainGet_read :
    readHead [] ⟨[plainGet], .silent⟩ = (.ok (some ⟨plainGet, []⟩), ⟨[[]], .silent⟩) := by
  decide +kernel

theorem plainGet_parsed : parseRequest Httparse.plain plainGet =
    .ok (.forward (text "a") 80 (text "GET") (text "http://a/") (text "/") []) := by
  decide +kernel

theorem plainProxy_opened (upstream : Incoming UInt8) :
    Relay.opened Httparse.plain plainProxy (text "a") 80 (text "GET") (text "http://a/")
      (text "/") [] (.fresh upstream) =
        (.ok ([], rewriteRequest (text "GET") (text "http://a/") [] none), .fresh upstream) := rfl

/-- A page that comes through an HTTP proxy. -/
theorem website_page_unchanged :
    Unchanged Httparse.plain plainProxy 0 ⟨[plainGet], .silent⟩
      ⟨[answerHead "HTTP/1.1 200 OK", [104, 105]], .eof⟩
      (answerHead "HTTP/1.1 200 OK" ++ ([104, 105] ++ [])) := by
  have hanswer : (readHead [] ⟨[answerHead "HTTP/1.1 200 OK", [104, 105]], .eof⟩).1 =
      .ok (some ⟨answerHead "HTTP/1.1 200 OK", []⟩) := by decide +kernel
  have hstatus : responseStatus Httparse.plain (answerHead "HTTP/1.1 200 OK") = some 200 := by
    decide +kernel
  have hiff := website_response_unchanged_iff Httparse.plain_documented plainProxy 0
    ⟨[plainGet], .silent⟩ ⟨[answerHead "HTTP/1.1 200 OK", [104, 105]], .eof⟩ plainGet_read
    plainGet_parsed (plainProxy_opened _)
  apply hiff.2
  · refine .inr ⟨_, hanswer, ?_, ?_⟩
    · rw [hstatus]
      decide
    · rw [hstatus]
      decide
  · refine .inr fun response hresponse => ?_
    cases hanswer.symm.trans hresponse
    rw [hstatus]
    decide

/-- A website's `401` through an HTTP proxy becomes the relay's `502`. -/
theorem website_login_replaced :
    ¬ ∀ (httparse : Httparse), httparse.Documented → ∀ (dialer : Dialer) (copied : Nat)
      (client upstream incoming : Incoming UInt8) (head : Head) (host : Text) (port : Nat)
      (method absolute originForm : Text) (headers : List (Text × List UInt8))
      (rest requestHead : List UInt8) (up : ByteStream),
      readHead [] client = (.ok (some head), incoming) →
      parseRequest httparse head.head =
        .ok (.forward host port method absolute originForm headers) →
      Relay.opened httparse dialer host port method absolute originForm headers
        (.fresh upstream) = (.ok (rest, requestHead), up) →
      (dialer.upstream.scheme = .socks5 ∨ (∀ response,
          (readHead [] up.incoming).1 = .ok (some response) →
            responseStatus httparse response.head ≠ some 407)) →
      Unchanged httparse dialer copied client upstream up.incoming.bytes := by
  intro hclaim
  let upstream : Incoming UInt8 := ⟨[answerHead "HTTP/1.1 401 Unauthorized"], .eof⟩
  have hanswer : (readHead [] upstream).1 =
      .ok (some ⟨answerHead "HTTP/1.1 401 Unauthorized", []⟩) := by decide +kernel
  have hstatus : responseStatus Httparse.plain (answerHead "HTTP/1.1 401 Unauthorized") =
      some 401 := by decide +kernel
  have hforwarded : Forwarded Httparse.plain upstream (Relay.serve Httparse.plain plainProxy 0
      (.fresh ⟨[plainGet], .silent⟩ upstream)) :=
    serve_forwarded plainGet_read plainGet_parsed (plainProxy_opened upstream)
  have hunchanged : Unchanged Httparse.plain plainProxy 0 ⟨[plainGet], .silent⟩ upstream
      upstream.bytes := by
    refine hclaim _ Httparse.plain_documented _ _ _ _ _ _ _ _ _ _ _ _ _ _ _ plainGet_read
      plainGet_parsed (plainProxy_opened upstream) (.inr fun response hresponse => ?_)
    cases hanswer.symm.trans hresponse
    rw [hstatus]
    decide
  rcases (hforwarded.unchanged_iff Httparse.plain_documented).1 hunchanged with
    hwait | ⟨response, hresponse, hne, _⟩
  · cases hanswer.symm.trans hwait
  · cases hanswer.symm.trans hresponse
    exact hne hstatus

end BrowserServe
