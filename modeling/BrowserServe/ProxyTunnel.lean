import BrowserServe.ProxyRelay

namespace BrowserServe
open Library
set_option autoImplicit true

/-- Between two states of a stream, some bytes were read from it and some written to it. -/
structure ByteStream.Passed (s : ByteStream) (read sent : List UInt8) (t : ByteStream) : Prop where
  read : s.incoming.bytes = read ++ t.incoming.bytes
  sent : t.outgoing.written = s.outgoing.written ++ sent
  room : s.outgoing.room = none → t.outgoing.room = none

theorem ByteStream.Passed.refl (s : ByteStream) : s.Passed [] [] s :=
  ⟨rfl, (List.append_nil _).symm, id⟩

theorem ByteStream.Passed.trans {s t u : ByteStream} (h : s.Passed bs cs t)
    (h' : t.Passed bs' cs' u) : s.Passed (bs ++ bs') (cs ++ cs') u :=
  ⟨by rw [h.read, h'.read, List.append_assoc], by rw [h'.sent, h.sent, List.append_assoc],
    fun hroom => h'.room (h.room hroom)⟩

theorem ByteStream.writeAll_passed {s t : ByteStream}
    (h : ByteStream.writeAll bytes s = (.ok (), t)) : s.Passed [] bytes t := by
  simp only [ByteStream.writeAll, Async.on] at h
  obtain ⟨hok, ht⟩ := Prod.mk.inj h
  obtain ⟨hsent, _, hroom⟩ := Outgoing.writeAll_ok (Prod.ext hok rfl)
  rw [← ht]
  exact ⟨rfl, hsent, hroom⟩

theorem ByteStream.readExact_passed {s t : ByteStream}
    (h : ByteStream.reading (Incoming.readExact n) s = (.ok bs, t)) :
    s.Passed bs [] t ∧ bs.length = n := by
  simp only [ByteStream.reading, Async.on] at h
  obtain ⟨hok, ht⟩ := Prod.mk.inj h
  obtain ⟨hbytes, hlen, _⟩ := Incoming.readExact_ok (Prod.ext hok rfl)
  rw [← ht]
  exact ⟨⟨hbytes, (List.append_nil _).symm, id⟩, hlen⟩

theorem ByteStream.readHead_passed {s t : ByteStream}
    (h : ByteStream.reading (readHead []) s = (.ok (some head), t)) :
    s.Passed (head.head ++ head.rest) [] t ∧ IsHead head.head := by
  simp only [ByteStream.reading, Async.on] at h
  obtain ⟨hok, ht⟩ := Prod.mk.inj h
  obtain ⟨hread, _⟩ := readHead_reads (Prod.ext hok rfl)
  rw [← ht]
  generalize hstream : [] ++ s.incoming.bytes = stream at hread
  cases hread with
  | head hsplit hhead =>
    refine ⟨⟨?_, (List.append_nil _).symm, id⟩, hhead⟩
    rw [List.append_assoc]
    exact hstream.trans hsplit

/-- A stream that takes all it is sent and on which some bytes are still to be read. -/
structure ByteStream.Open (s : ByteStream) (bytes : List UInt8) : Prop where
  bytes : s.incoming.bytes = bytes
  room : s.outgoing.room = none

namespace Socks

/-- The proxy's choice of a method, with what the client then sends and the proxy's answer to
it. -/
inductive Choice (login : Option (Text × Text)) : List UInt8 → List UInt8 → Prop
  | noAuth : Choice login [] [VERSION, NO_AUTH]
  | userPass {user pass : Text} (hlogin : login = some (user, pass))
      (hmsg : loginMessage user pass = some msg) (version : UInt8) :
      Choice login msg [VERSION, USER_PASS, version, 0]

/-- A reply that says the connection is made, with the address it is bound to. -/
inductive Bound : List UInt8 → Prop
  | v4 (r : UInt8) (hlen : bound.length = 4 + 2) : Bound ([VERSION, 0, r, 0x01] ++ bound)
  | v6 (r : UInt8) (hlen : bound.length = 16 + 2) : Bound ([VERSION, 0, r, 0x04] ++ bound)
  | name (r len : UInt8) (hlen : bound.length = len.toNat + 2) :
      Bound ([VERSION, 0, r, 0x03, len] ++ bound)

theorem send_passed {s t : ByteStream} (h : send bytes s = (.ok (), t)) : s.Passed [] bytes t :=
  ByteStream.writeAll_passed (Async.mapErr_ok h)

theorem readExact_passed {s t : ByteStream} (h : readExact n s = (.ok bs, t)) :
    s.Passed bs [] t ∧ bs.length = n :=
  ByteStream.readExact_passed (Async.mapErr_ok h)

theorem sendLogin_ok {user pass : Text} {s t : ByteStream}
    (h : sendLogin user pass s = (.ok (), t)) :
    ∃ msg version, loginMessage user pass = some msg ∧ s.Passed [version, 0] msg t := by
  unfold sendLogin at h
  cases hmsg : loginMessage user pass with
  | none =>
    rw [hmsg] at h
    cases h
  | some msg =>
    rw [hmsg] at h
    obtain ⟨_, t₁, hsend, h⟩ := Async.bind_ok h
    obtain ⟨status, t₂, hread, h⟩ := Async.bind_ok h
    obtain ⟨hpassed, hlen⟩ := readExact_passed hread
    obtain ⟨version, zero, rfl⟩ := List.length_eq_two.1 hlen
    by_cases hzero : zero = 0
    · subst hzero
      cases h
      have hboth := (send_passed hsend).trans hpassed
      rw [List.append_nil] at hboth
      exact ⟨msg, version, rfl, hboth⟩
    · simp only [List.getD_cons_succ, List.getD_cons_zero, ne_eq, hzero, not_false_eq_true,
        if_true] at h
      cases h

theorem authenticate_ok {login : Option (Text × Text)} {s t : ByteStream}
    (h : authenticate login s = (.ok (), t)) :
    ∃ msg reply, Choice login msg reply ∧ s.Passed reply (greeting login ++ msg) t := by
  obtain ⟨_, t₁, hsend, h⟩ := Async.bind_ok h
  obtain ⟨choice, t₂, hread, h⟩ := Async.bind_ok h
  obtain ⟨hpassed, hlen⟩ := readExact_passed hread
  obtain ⟨version, method, rfl⟩ := List.length_eq_two.1 hlen
  have hboth := (send_passed hsend).trans hpassed
  simp only [List.nil_append, List.append_nil, List.getD_cons_succ, List.getD_cons_zero] at h hboth
  by_cases hversion : version = VERSION
  · subst hversion
    simp only [ne_eq, not_true_eq_false, if_false] at h
    by_cases hnone : method = NO_AUTH
    · subst hnone
      simp only [if_true] at h
      cases h
      refine ⟨[], _, .noAuth, ?_⟩
      rw [List.append_nil]
      exact hboth
    · simp only [if_neg hnone] at h
      by_cases hpass : method = USER_PASS
      · subst hpass
        simp only [if_true] at h
        cases login with
        | none => cases h
        | some login =>
          obtain ⟨user, pass⟩ := login
          obtain ⟨msg, version, hmsg, hlogin⟩ := sendLogin_ok h
          exact ⟨msg, _, .userPass rfl hmsg version, hboth.trans hlogin⟩
      · simp only [if_neg hpass] at h
        split at h <;> cases h
  · simp only [ne_eq, hversion, not_false_eq_true, if_true] at h
    cases h

theorem skipLength_ok {s t : ByteStream} (h : skipLength kind s = (.ok skip, t)) :
    ∃ len, s.Passed len [] t ∧ ∀ r bound, bound.length = skip →
      Bound ([VERSION, 0, r, kind] ++ (len ++ bound)) := by
  unfold skipLength at h
  by_cases hv4 : kind = 0x01
  · subst hv4
    cases h
    exact ⟨[], .refl s, fun r bound hlen => .v4 r hlen⟩
  · rw [if_neg hv4] at h
    by_cases hv6 : kind = 0x04
    · subst hv6
      cases h
      exact ⟨[], .refl s, fun r bound hlen => .v6 r hlen⟩
    · rw [if_neg hv6] at h
      by_cases hname : kind = 0x03
      · subst hname
        obtain ⟨len, t₁, hread, hskip⟩ := Async.bind_ok h
        obtain ⟨hpassed, hlen⟩ := readExact_passed hread
        obtain ⟨n, rfl⟩ := List.length_eq_one_iff.1 hlen
        cases hskip
        exact ⟨[n], hpassed, fun r bound hbound => .name r n hbound⟩
      · rw [if_neg hname] at h
        cases h

theorem readReply_ok {s t : ByteStream} (h : readReply s = (.ok (), t)) :
    ∃ reply, Bound reply ∧ s.Passed reply [] t := by
  obtain ⟨reply, t₁, hread, h⟩ := Async.bind_ok h
  obtain ⟨hpassed, hlen⟩ := readExact_passed hread
  obtain ⟨version, code, r, kind, rfl⟩ : ∃ a b c d, reply = [a, b, c, d] := by
    match reply, hlen with
    | [a, b, c, d], _ => exact ⟨a, b, c, d, rfl⟩
  simp only [List.getD_cons_succ, List.getD_cons_zero] at h
  by_cases hversion : version = VERSION
  · by_cases hcode : code = 0
    · subst hversion hcode
      simp only [ne_eq, not_true_eq_false, if_false] at h
      obtain ⟨skip, t₂, hskip, h⟩ := Async.bind_ok h
      obtain ⟨bound, t₃, hbound, h⟩ := Async.bind_ok h
      cases h
      obtain ⟨len, hlenPassed, hkind⟩ := skipLength_ok hskip
      obtain ⟨hrest, hboundLen⟩ := readExact_passed hbound
      exact ⟨_, hkind r bound hboundLen, hpassed.trans (hlenPassed.trans hrest)⟩
    · simp only [ne_eq, hversion, not_true_eq_false, if_false, hcode, not_false_eq_true,
        if_true] at h
      cases h
  · simp only [ne_eq, hversion, not_false_eq_true, if_true] at h
    cases h

/-- A handshake that succeeds has read the proxy's answers to their last byte and no
further. -/
theorem connect_ok {login : Option (Text × Text)} {s t : ByteStream}
    (h : connect host port login s = (.ok (), t)) :
    ∃ msg choice req bound, Choice login msg choice ∧ request host port = some req ∧
      Bound bound ∧ s.Passed (choice ++ bound) (greeting login ++ msg ++ req) t := by
  obtain ⟨_, t₁, hauth, h⟩ := Async.bind_ok h
  obtain ⟨msg, choice, hchoice, hfirst⟩ := authenticate_ok hauth
  cases hreq : request host port with
  | none =>
    rw [hreq] at h
    cases h
  | some req =>
    rw [hreq] at h
    obtain ⟨_, t₂, hsend, h⟩ := Async.bind_ok h
    obtain ⟨bound, hbound, hreply⟩ := readReply_ok h
    have hall := (hfirst.trans (send_passed hsend)).trans hreply
    rw [List.append_nil, List.append_nil] at hall
    exact ⟨msg, choice, req, bound, hchoice, rfl, hbound, hall⟩

theorem send_of_open {s : ByteStream} (h : s.Open bytes) (msg : List UInt8) :
    ∃ t, send msg s = (.ok (), t) ∧ t.Open bytes :=
  ⟨s.sent msg, Async.mapErr_of_ok (ByteStream.writeAll_of_open h.room msg), h.bytes, h.room⟩

theorem readExact_of_open {s : ByteStream} (h : s.Open (bs ++ bytes)) :
    ∃ t, readExact bs.length s = (.ok bs, t) ∧ t.Open bytes := by
  have hle : bs.length ≤ s.incoming.bytes.length := by
    rw [h.bytes, List.length_append]
    exact Nat.le_add_right _ _
  obtain ⟨after, hread, hleft, _⟩ := Incoming.readExact_of_le hle
  rw [h.bytes, List.take_left] at hread
  rw [h.bytes, List.drop_left] at hleft
  exact ⟨s.read after, Async.mapErr_of_ok (Async.on_of hread), hleft, h.room⟩

theorem authenticate_of_open {login : Option (Text × Text)} {s : ByteStream}
    (h : s.Open (answer ++ bytes)) (hchoice : Choice login msg answer) :
    ∃ t, authenticate login s = (.ok (), t) ∧ t.Open bytes := by
  obtain ⟨t₁, hsend, h₁⟩ := send_of_open h (greeting login)
  unfold authenticate
  rw [Async.bind_of_ok hsend]
  cases hchoice with
  | noAuth =>
    obtain ⟨t₂, hread, h₂⟩ := readExact_of_open h₁
    exact ⟨t₂, Async.bind_of_ok hread, h₂⟩
  | userPass hlogin hmsg version =>
    subst hlogin
    have hchosen : t₁.Open ([VERSION, USER_PASS] ++ ([version, 0] ++ bytes)) := h₁
    obtain ⟨t₂, hread, h₂⟩ := readExact_of_open hchosen
    obtain ⟨t₃, hlogin, h₃⟩ := send_of_open h₂ msg
    obtain ⟨t₄, hstatus, h₄⟩ := readExact_of_open h₃
    refine ⟨t₄, (Async.bind_of_ok hread).trans ?_, h₄⟩
    change sendLogin _ _ t₂ = _
    unfold sendLogin
    rw [hmsg]
    exact (Async.bind_of_ok hlogin).trans (Async.bind_of_ok hstatus)

theorem readReply_of_open {s : ByteStream} (h : s.Open (answer ++ bytes)) (hbound : Bound answer) :
    ∃ t, readReply s = (.ok (), t) ∧ t.Open bytes := by
  unfold readReply
  cases hbound with
  | @v4 bound r hlen =>
    rw [List.append_assoc] at h
    obtain ⟨t₁, hread, h₁⟩ := readExact_of_open h
    obtain ⟨t₂, hrest, h₂⟩ := readExact_of_open h₁
    rw [hlen] at hrest
    refine ⟨t₂, (Async.bind_of_ok hread).trans ?_, h₂⟩
    exact Async.bind_of_ok (show skipLength 0x01 t₁ = (.ok (4 + 2), t₁) from rfl) |>.trans
      (Async.bind_of_ok hrest)
  | @v6 bound r hlen =>
    rw [List.append_assoc] at h
    obtain ⟨t₁, hread, h₁⟩ := readExact_of_open h
    obtain ⟨t₂, hrest, h₂⟩ := readExact_of_open h₁
    rw [hlen] at hrest
    refine ⟨t₂, (Async.bind_of_ok hread).trans ?_, h₂⟩
    exact Async.bind_of_ok (show skipLength 0x04 t₁ = (.ok (16 + 2), t₁) from rfl) |>.trans
      (Async.bind_of_ok hrest)
  | @name bound r len hlen =>
    have hfirst : s.Open ([VERSION, 0, r, 0x03] ++ ([len] ++ (bound ++ bytes))) := by
      rw [List.append_assoc] at h
      exact h
    obtain ⟨t₁, hread, h₁⟩ := readExact_of_open hfirst
    obtain ⟨t₂, hone, h₂⟩ := readExact_of_open h₁
    obtain ⟨t₃, hrest, h₃⟩ := readExact_of_open h₂
    rw [hlen] at hrest
    have hskip : skipLength 0x03 t₁ = (.ok (len.toNat + 2), t₂) := Async.bind_of_ok hone
    refine ⟨t₃, (Async.bind_of_ok hread).trans ?_, h₃⟩
    exact (Async.bind_of_ok hskip).trans (Async.bind_of_ok hrest)

/-- The handshake succeeds on every stream that begins with such answers. -/
theorem connect_of_open {login : Option (Text × Text)} {s : ByteStream}
    (h : s.Open (choice ++ bound ++ bytes)) (hchoice : Choice login msg choice)
    (hreq : request host port = some req) (hbound : Bound bound) :
    ∃ t, connect host port login s = (.ok (), t) ∧ t.Open bytes := by
  rw [List.append_assoc] at h
  obtain ⟨t₁, hauth, h₁⟩ := authenticate_of_open h hchoice
  obtain ⟨t₂, hsend, h₂⟩ := send_of_open h₁ req
  obtain ⟨t₃, hreply, h₃⟩ := readReply_of_open h₂ hbound
  refine ⟨t₃, (Async.bind_of_ok hauth).trans ?_, h₃⟩
  rw [hreq]
  exact (Async.bind_of_ok hsend).trans hreply

end Socks

/-- What a tunnel is opened with: what the relay sends the proxy, and the answers that let it
through. -/
inductive TunnelOpened (httparse : Httparse) (dialer : Dialer) (host : Text) (port : Nat) :
    List UInt8 → List UInt8 → Prop
  | http (hscheme : dialer.upstream.scheme ≠ .socks5) (hhead : IsHead answer)
      (hstatus : responseStatus httparse answer = some code) (hcode : 200 ≤ code ∧ code ≤ 299) :
      TunnelOpened httparse dialer host port (dialer.connectHead host port) answer
  | socks5 (hscheme : dialer.upstream.scheme = .socks5)
      (hchoice : Socks.Choice dialer.login msg choice) (hreq : Socks.request host port = some req)
      (hbound : Socks.Bound bound) :
      TunnelOpened httparse dialer host port (Socks.greeting dialer.login ++ msg ++ req)
        (choice ++ bound)

theorem timeout_ok {x : Async σ ProxyError α} (h : timeout expires x s = (.ok a, t)) :
    x s = (.ok a, t) := by
  unfold timeout at h
  split at h
  · cases h
  · next heq =>
    rw [heq]
    exact h

theorem timeout_of_ok {x : Async σ ProxyError α} (h : x s = (.ok a, t)) :
    timeout expires x s = (.ok a, t) := by
  simp only [timeout, h]

theorem httpConnect_ok {httparse : Httparse} {dialer : Dialer} {s t : ByteStream}
    (h : dialer.httpConnect httparse host port s = (.ok rest, t)) :
    ∃ head code, IsHead head ∧ responseStatus httparse head = some code ∧
      (200 ≤ code ∧ code ≤ 299) ∧ s.Passed (head ++ rest) (dialer.connectHead host port) t := by
  obtain ⟨_, t₁, hsend, h⟩ := Async.bind_ok h
  obtain ⟨head, t₂, hread, h⟩ := Async.bind_ok h
  have hsent := ByteStream.writeAll_passed (Async.mapErr_ok hsend)
  cases head with
  | none => cases h
  | some head =>
    obtain ⟨hpassed, hhead⟩ := ByteStream.readHead_passed (Async.mapErr_ok hread)
    cases hstatus : responseStatus httparse head.head with
    | none =>
      simp only [hstatus] at h
      cases h
    | some code =>
      simp only [hstatus] at h
      by_cases hcode : 200 ≤ code ∧ code ≤ 299
      · rw [if_pos hcode] at h
        cases h
        have hboth := hsent.trans hpassed
        rw [List.append_nil] at hboth
        exact ⟨_, code, hhead, hstatus, hcode, hboth⟩
      · rw [if_neg hcode] at h
        split at h <;> cases h

/-- A tunnel that opens has taken the proxy's answer from the stream, and the bytes past it
that it gives back. -/
theorem tunnel_ok {httparse : Httparse} {dialer : Dialer} {s t : ByteStream}
    (h : dialer.tunnel httparse host port s = (.ok rest, t)) :
    ∃ sent answer, TunnelOpened httparse dialer host port sent answer ∧
      s.Passed (answer ++ rest) sent t := by
  obtain ⟨_, t₁, hopen, h⟩ := Async.bind_ok (timeout_ok h)
  obtain rfl : s = t₁ := (Prod.mk.inj hopen).2
  cases hscheme : dialer.upstream.scheme with
  | socks5 =>
    rw [hscheme] at h
    obtain ⟨_, t₂, hconnect, h⟩ := Async.bind_ok h
    cases h
    obtain ⟨msg, choice, req, bound, hchoice, hreq, hbound, hpassed⟩ := Socks.connect_ok hconnect
    refine ⟨_, _, .socks5 hscheme hchoice hreq hbound, ?_⟩
    rw [List.append_nil]
    exact hpassed
  | http =>
    rw [hscheme] at h
    obtain ⟨head, code, hhead, hstatus, hcode, hpassed⟩ := httpConnect_ok h
    exact ⟨_, _, .http (by rw [hscheme]; decide) hhead hstatus hcode, hpassed⟩
  | https =>
    rw [hscheme] at h
    obtain ⟨head, code, hhead, hstatus, hcode, hpassed⟩ := httpConnect_ok h
    exact ⟨_, _, .http (by rw [hscheme]; decide) hhead hstatus hcode, hpassed⟩

theorem httpConnect_of_open {httparse : Httparse} {dialer : Dialer} {s : ByteStream}
    (h : s.Open (head ++ bytes)) (hhead : IsHead head) (hle : head.length ≤ MAX_HEAD_BYTES)
    (hstatus : responseStatus httparse head = some code) (hcode : 200 ≤ code ∧ code ≤ 299) :
    ∃ rest t, dialer.httpConnect httparse host port s = (.ok rest, t) := by
  cases hread : readHead [] s.incoming with
  | mk r after =>
    obtain ⟨hspec, _⟩ := readHead_reads hread
    rw [List.nil_append, h.bytes] at hspec
    obtain ⟨rest, rfl, _⟩ := hspec.of_isHead hhead hle
    refine ⟨rest, (s.sent (dialer.connectHead host port)).read after, ?_⟩
    unfold Dialer.httpConnect
    rw [Async.bind_of_ok (Async.mapErr_of_ok (ByteStream.writeAll_of_open h.room _))]
    have hheard : ByteStream.reading (readHead []) (s.sent (dialer.connectHead host port)) =
        (.ok (some ⟨head, rest⟩), (s.sent (dialer.connectHead host port)).read after) :=
      Async.on_of hread
    rw [Async.bind_of_ok (Async.mapErr_of_ok hheard)]
    simp only [hstatus, if_pos hcode, Async.pure_run]

/-- Every stream that begins with such answers opens the tunnel, however it is cut. -/
theorem tunnel_of_open {httparse : Httparse} {dialer : Dialer} {s : ByteStream}
    (hopen : dialer.openInner = .ok ()) (h : s.Open (answer ++ bytes))
    (hanswer : TunnelOpened httparse dialer host port sent answer)
    (hle : dialer.upstream.scheme ≠ .socks5 → answer.length ≤ MAX_HEAD_BYTES) :
    ∃ rest t, dialer.tunnel httparse host port s = (.ok rest, t) := by
  have hconnecting : dialer.connecting s = (.ok (), s) := by rw [Dialer.connecting, hopen]
  cases hanswer with
  | http hscheme hhead hstatus hcode =>
    have hsome : ∃ rest t, dialer.httpConnect httparse host port s = (.ok rest, t) :=
      httpConnect_of_open h hhead (hle hscheme) hstatus hcode
    obtain ⟨rest, t, hconnect⟩ := hsome
    refine ⟨rest, t, timeout_of_ok ((Async.bind_of_ok hconnecting).trans ?_)⟩
    cases hkind : dialer.upstream.scheme with
    | socks5 => exact absurd hkind hscheme
    | http => exact hconnect
    | https => exact hconnect
  | socks5 hscheme hchoice hreq hbound =>
    obtain ⟨t, hconnect, _⟩ := Socks.connect_of_open h hchoice hreq hbound
    refine ⟨[], t, timeout_of_ok ((Async.bind_of_ok hconnecting).trans ?_)⟩
    rw [hscheme]
    exact Async.bind_of_ok hconnect

/-- A stream at its start, whose other end takes all it is sent. -/
def ByteStream.fresh (incoming : Incoming UInt8) : ByteStream := ⟨incoming, ⟨[], none, false⟩⟩

def Conn.fresh (client upstream : Incoming UInt8) : Conn := ⟨.fresh client, .fresh upstream⟩

/-- The request whose tunnel was opened, and what is on both streams when it is. -/
structure Tunnelled (httparse : Httparse) (dialer : Dialer) (client upstream : Incoming UInt8)
    (c : Conn) (head sent answer tail rest : List UInt8) : Prop where
  client : client.bytes = head ++ tail
  isHead : IsHead head
  request : ∃ host port, parseRequest httparse head = .ok (.connect host port) ∧
    TunnelOpened httparse dialer host port sent answer
  upstream : upstream.bytes = answer ++ rest
  down : c.down.stream = established ++ rest
  downWritten : established <+: c.down.sink.written
  up : c.up.stream = sent ++ tail
  upWritten : sent <+: c.up.sink.written
  room : c.up.sink.room = none ∧ c.down.sink.room = none

theorem serve_tunnelled {httparse : Httparse} {dialer : Dialer} {client upstream : Incoming UInt8}
    (h : Relay.serve httparse dialer copied (.fresh client upstream) = (.ok .tunnel, c)) :
    ∃ head sent answer tail rest,
      Tunnelled httparse dialer client upstream c head sent answer tail rest := by
  have hroom : (Conn.fresh client upstream).client.outgoing.room = none := rfl
  obtain ⟨head, incoming, request, hread, hparse, hout⟩ := serve_ok hroom h nofun
  have hroom' : ((Conn.fresh client upstream).heard incoming).client.outgoing.room = none := rfl
  obtain ⟨host, port, rfl, hconnect⟩ := outcome_tunnel hroom' hout
  cases hconnect with
  | @established up rest written up' _ htunnel hwrite hserved =>
    obtain rfl : written = .ok () := by
      rcases hserved with ⟨hok, _⟩ | ⟨_, hr | hr⟩
      · exact hok
      · cases hr
      · cases hr
    obtain ⟨hsplit, hhead⟩ := readHead_split hread
    obtain ⟨sent, answer, hanswer, hpassed⟩ := tunnel_ok htunnel
    have hearly := hpassed.trans (ByteStream.writeAll_passed hwrite)
    rw [List.append_nil] at hearly
    refine ⟨head.head, sent, answer, head.rest ++ incoming.bytes, rest ++ up'.incoming.bytes,
      hsplit, hhead, ⟨host, port, hparse, hanswer⟩, ?_, ?_, ?_, ?_, ?_, hearly.room rfl, rfl⟩
    · exact hearly.read.trans (List.append_assoc _ _ _)
    · simp [Conn.down, Transfer.stream, Transfer.new, ByteStream.sent, Conn.heard,
        ByteStream.read, Conn.fresh, ByteStream.fresh]
    · exact ⟨rest, rfl⟩
    · have hwritten := hearly.sent
      simp only [Conn.heard, Conn.fresh, ByteStream.fresh, List.nil_append] at hwritten
      simp [Conn.up, Transfer.stream, Transfer.new, hwritten, ByteStream.sent, Conn.heard,
        ByteStream.read]
    · have hwritten := hearly.sent
      simp only [Conn.heard, Conn.fresh, ByteStream.fresh, List.nil_append] at hwritten
      exact ⟨head.rest, hwritten.symm⟩

/-- A `CONNECT` head and answers that open a tunnel lead to it, however they are cut. -/
theorem serve_of_open {httparse : Httparse} {dialer : Dialer} {client upstream : Incoming UInt8}
    (hopen : dialer.openInner = .ok ()) (hclient : client.bytes = head ++ tail)
    (hhead : IsHead head) (hle : head.length ≤ MAX_HEAD_BYTES)
    (hparse : parseRequest httparse head = .ok (.connect host port))
    (hupstream : upstream.bytes = answer ++ rest)
    (hanswer : TunnelOpened httparse dialer host port sent answer)
    (hle' : dialer.upstream.scheme ≠ .socks5 → answer.length ≤ MAX_HEAD_BYTES) :
    ∃ c, Relay.serve httparse dialer copied (.fresh client upstream) = (.ok .tunnel, c) := by
  cases hread : readHead [] client with
  | mk r incoming =>
    obtain ⟨hspec, _⟩ := readHead_reads hread
    rw [List.nil_append, hclient] at hspec
    obtain ⟨early, rfl, _⟩ := hspec.of_isHead hhead hle
    have hfresh : (ByteStream.fresh upstream).Open (answer ++ rest) := ⟨hupstream, rfl⟩
    obtain ⟨past, up, htunnel⟩ := tunnel_of_open hopen hfresh hanswer hle'
    obtain ⟨_, _, _, hpassed⟩ := tunnel_ok htunnel
    have hwrite := ByteStream.writeAll_of_open (hpassed.room rfl) early
    have hroom : ((Conn.fresh client upstream).heard incoming).client.outgoing.room = none := rfl
    have hconnect := connect_connecting httparse dialer host port early hroom
    have htunnel' : dialer.tunnel httparse host port
        ((Conn.fresh client upstream).heard incoming).upstream = (.ok past, up) := htunnel
    rw [serve_request hread hparse]
    change ∃ c, Relay.concluded (Relay.connect httparse dialer host port early _) =
      (.ok .tunnel, c)
    generalize Relay.connect httparse dialer host port early _ = result at hconnect
    cases hconnect with
    | refused hrefused =>
      rw [htunnel'] at hrefused
      cases hrefused
    | established hopened hwritten hserved =>
      rw [htunnel'] at hopened
      cases hopened
      rw [hwrite] at hwritten
      cases hwritten
      rcases hserved with ⟨_, rfl⟩ | ⟨⟨_, hr⟩, _⟩
      · exact ⟨_, rfl⟩
      · cases hr

/-- A tunnel carries what follows the two heads, both ways and as it is, whatever the kind of
the upstream and however the streams are cut; and a head and answers that open one lead to
it. -/
theorem tunnel_transparent (httparse : Httparse) (dialer : Dialer) (copied : Nat)
    (client upstream : Incoming UInt8) :
    (∀ c, Relay.serve httparse dialer copied (.fresh client upstream) = (.ok .tunnel, c) →
      ∃ head host port sent answer tail rest,
        client.bytes = head ++ tail ∧ IsHead head ∧
        parseRequest httparse head = .ok (.connect host port) ∧
        upstream.bytes = answer ++ rest ∧ TunnelOpened httparse dialer host port sent answer ∧
        ∀ d, c.tunnelling.Reachable d →
          (established <+: d.down.sink.written ∧ d.down.sink.written <+: established ++ rest) ∧
          (sent <+: d.up.sink.written ∧ d.up.sink.written <+: sent ++ tail) ∧
          (d.ended = false → (∀ e, ¬ Duplex.Step d () e) →
            d.down.sink.written = established ++ rest ∧ d.up.sink.written = sent ++ tail) ∧
          (d.ended = false → ∃ as e, c.tunnelling.Run d as e ∧
            e.down.sink.written = established ++ rest ∧ e.up.sink.written = sent ++ tail)) ∧
    ∀ head host port sent answer tail rest,
      client.bytes = head ++ tail → IsHead head → head.length ≤ MAX_HEAD_BYTES →
      parseRequest httparse head = .ok (.connect host port) → dialer.openInner = .ok () →
      upstream.bytes = answer ++ rest → TunnelOpened httparse dialer host port sent answer →
      (dialer.upstream.scheme ≠ .socks5 → answer.length ≤ MAX_HEAD_BYTES) →
      ∃ c, Relay.serve httparse dialer copied (.fresh client upstream) = (.ok .tunnel, c) := by
  constructor
  · intro c hserve
    obtain ⟨head, sent, answer, tail, rest, htunnelled⟩ := serve_tunnelled hserve
    obtain ⟨host, port, hparse, hanswer⟩ := htunnelled.request
    refine ⟨head, host, port, sent, answer, tail, rest, htunnelled.client, htunnelled.isHead,
      hparse, htunnelled.upstream, hanswer, ?_⟩
    intro d hreach
    obtain ⟨hup, hdown⟩ := Duplex.reachable_from (Transfer.new_ended _ _)
      (Transfer.new_ended _ _) hreach
    have hupStream := hup.stream.trans htunnelled.up
    have hdownStream := hdown.stream.trans htunnelled.down
    have hroom := And.intro (hup.room htunnelled.room.1) (hdown.room htunnelled.room.2)
    refine ⟨⟨htunnelled.downWritten.trans hdown.written, ?_⟩,
      ⟨htunnelled.upWritten.trans hup.written, ?_⟩, ?_, ?_⟩
    · rw [← hdownStream]
      exact d.down.written_isPrefix
    · rw [← hupStream]
      exact d.up.written_isPrefix
    · intro hended hstuck
      obtain ⟨hupAll, hdownAll⟩ := Duplex.written_of_stuck hended hup.ended hdown.ended hroom hstuck
      exact ⟨hdownAll.trans hdownStream, hupAll.trans hupStream⟩
    · intro hended
      obtain ⟨as, e, hrun, hupAll, hdownAll⟩ :=
        Duplex.exists_written hended hup.ended hdown.ended hroom
      exact ⟨as, e, hrun, hdownAll.trans hdownStream, hupAll.trans hupStream⟩
  · intro head host port sent answer tail rest hclient hhead hle hparse hopen hupstream hanswer hle'
    exact serve_of_open hopen hclient hhead hle hparse hupstream hanswer hle'

end BrowserServe
