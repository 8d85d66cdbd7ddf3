import BrowserServe.ProxyResponse

namespace BrowserServe
open Library
set_option autoImplicit true

/-- What follows the first empty line, the lines ended by LF or CRLF; the state counts the
bytes since the last LF, up to a CR right after it. -/
def afterBlank : Nat → List UInt8 → Option (List UInt8)
  | _, [] => none
  | state, b :: bytes =>
    if b = 10 then
      if state = 0 then afterBlank 1 bytes else some bytes
    else if b = 13 ∧ state = 1 then afterBlank 2 bytes
    else afterBlank 0 bytes

theorem afterBlank_length {bytes : List UInt8} (h : afterBlank state bytes = some rest) :
    rest.length < bytes.length := by
  induction bytes generalizing state with
  | nil => cases h
  | cons b bytes ih =>
    rw [List.length_cons]
    unfold afterBlank at h
    split at h
    · split at h
      · exact Nat.lt_succ_of_lt (ih h)
      · cases h
        exact Nat.lt_succ_self _
    · split at h
      · exact Nat.lt_succ_of_lt (ih h)
      · exact Nat.lt_succ_of_lt (ih h)

def isEol (b : UInt8) : Bool := b = 13 ∨ b = 10

def Interim (code : Nat) : Prop := 100 ≤ code ∧ code < 200

instance : Decidable (Interim code) := inferInstanceAs (Decidable (_ ∧ _))

/-- The statuses of what the browser is sent in answer to a request: the interim ones, and the
one after them. -/
def statuses (bytes : List UInt8) : List Nat :=
  match statusCode bytes with
  | none => []
  | some code =>
    if Interim code then
      match _hrest : afterBlank 0 (bytes.dropWhile isEol) with
      | some rest => code :: statuses rest
      | none => [code]
    else [code]
termination_by bytes.length
decreasing_by
  exact Nat.lt_of_lt_of_le (afterBlank_length _hrest) (List.dropWhile_suffix _).length_le

theorem opened_of_open {httparse : Httparse} {dialer : Dialer} (s : ByteStream)
    (hscheme : dialer.upstream.scheme ≠ .socks5) (hopen : dialer.openInner = .ok ()) :
    ∃ requestHead, Relay.opened httparse dialer host port method absolute originForm headers s =
      (.ok ([], requestHead), s) := by
  have hopened : dialer.opened s = (.ok (), s) :=
    timeout_of_ok (show dialer.connecting s = _ by rw [Dialer.connecting, hopen])
  unfold Relay.opened
  cases hkind : dialer.upstream.scheme with
  | socks5 => exact absurd hkind hscheme
  | http => exact ⟨_, Async.bind_of_ok hopened⟩
  | https => exact ⟨_, Async.bind_of_ok hopened⟩

/-- What the browser is sent: nothing, the relay's own answer, a tunnel's first line and what
comes through it, or a part of what the proxy answered to a forwarded request. -/
inductive Seen (httparse : Httparse) (dialer : Dialer) (client upstream : Incoming UInt8) :
    List UInt8 → Prop
  | nothing : Seen httparse dialer client upstream []
  | own (reason : String) (hstatus : status = 400 ∨ status = 502) :
      Seen httparse dialer client upstream (replyMessage status reason)
  | tunnel (htunnel : dialer.tunnel httparse host port (.fresh upstream) = (.ok rest, up))
      (hpre : established <+: w) : Seen httparse dialer client upstream w
  | forwarded (hread : readHead [] client = (.ok (some head), incoming))
      (hparse : parseRequest httparse head.head =
        .ok (.forward host port method absolute originForm headers))
      (hopen : dialer.openInner = .ok ())
      (hanswer : (readHead [] upstream).1 = .ok (some answer))
      (hstatus : ¬ (responseStatus httparse answer.head = some 401 ∨
        responseStatus httparse answer.head = some 407))
      (hpre : w <+: upstream.bytes) : Seen httparse dialer client upstream w

/-- A forwarded request whose first answer asks for no login is exchanged. -/
theorem Forwarded.exchanges {httparse : Httparse} {upstream : Incoming UInt8}
    (h : Forwarded httparse upstream (r, c))
    (hanswer : (readHead [] upstream).1 = .ok (some answer))
    (hstatus : ¬ (responseStatus httparse answer.head = some 401 ∨
      responseStatus httparse answer.head = some 407)) : r = .ok .exchange := by
  cases h with
  | passed => rfl
  | waiting hread =>
    rw [hread] at hanswer
    cases hanswer
  | login hread hlogin =>
    rw [hread] at hanswer
    cases hanswer
    exact absurd hlogin hstatus
  | closed hread =>
    rw [hread] at hanswer
    cases hanswer
  | failed hread =>
    rw [hread] at hanswer
    cases hanswer

/-- A forwarded request that the proxy asks for a login is answered with a `502`. -/
theorem Forwarded.refused {httparse : Httparse} {upstream : Incoming UInt8}
    (h : Forwarded httparse upstream (r, c))
    (hanswer : (readHead [] upstream).1 = .ok (some answer))
    (hlogin : responseStatus httparse answer.head = some 401 ∨
      responseStatus httparse answer.head = some 407) :
    r = .ok .closed ∧ ∃ reason, c.client.outgoing.written = replyMessage 502 reason := by
  cases h with
  | passed hread hpass =>
    rw [hread] at hanswer
    cases hanswer
    rcases hpass with hwait | ⟨_, heq, hne, hne'⟩
    · cases hwait
    · cases heq
      exact absurd hlogin (not_or.2 ⟨hne, hne'⟩)
  | waiting hread =>
    rw [hread] at hanswer
    cases hanswer
  | login _ _ hclient => exact ⟨rfl, _, hclient⟩
  | closed hread =>
    rw [hread] at hanswer
    cases hanswer
  | failed hread =>
    rw [hread] at hanswer
    cases hanswer

/-- A request is forwarded, and its answer has a challenge behind a first head that is interim or
that `httparse` refuses. -/
def ChallengeBehind (httparse : Httparse) (dialer : Dialer) (client upstream : Incoming UInt8) :
    Prop :=
  ∃ head incoming host port method absolute originForm headers answer,
    readHead [] client = (.ok (some head), incoming) ∧
    parseRequest httparse head.head =
      .ok (.forward host port method absolute originForm headers) ∧
    dialer.openInner = .ok () ∧ (readHead [] upstream).1 = .ok (some answer) ∧
    (responseStatus httparse answer.head = none ∨
      ∃ code, responseStatus httparse answer.head = some code ∧ Interim code) ∧
    407 ∈ statuses upstream.bytes

theorem ChallengeBehind.shown {httparse : Httparse} {dialer : Dialer}
    {client upstream : Incoming UInt8} (h : ChallengeBehind httparse dialer client upstream)
    (hscheme : dialer.upstream.scheme ≠ .socks5) (copied : Nat) :
    ∃ w, BrowserGets httparse dialer copied client upstream w ∧ 407 ∈ statuses w := by
  obtain ⟨head, incoming, host, port, method, absolute, originForm, headers, answer,
    hread, hparse, hopen, hanswer, hkind, hchallenge⟩ := h
  have hstatus : ¬ (responseStatus httparse answer.head = some 401 ∨
      responseStatus httparse answer.head = some 407) := by
    rcases hkind with hnone | ⟨code, hcode, _, hlt⟩
    · rw [hnone]
      decide
    · rw [hcode, Option.some.injEq, Option.some.injEq]
      omega
  obtain ⟨requestHead, hopened⟩ := opened_of_open (.fresh upstream) hscheme hopen
  have hforwarded : Forwarded httparse upstream
      (Relay.serve httparse dialer copied (.fresh client upstream)) :=
    serve_forwarded hread hparse hopened
  generalize hserve : Relay.serve httparse dialer copied (.fresh client upstream) = result
    at hforwarded
  obtain ⟨r, c⟩ := result
  obtain rfl := hforwarded.exchanges hanswer hstatus
  obtain ⟨hstream, hroom⟩ := hforwarded.stream
  obtain ⟨x, hreach, hwritten⟩ := Exchange.exists_written hroom
  refine ⟨_, .exchange hserve hreach, ?_⟩
  rw [hwritten, hstream]
  exact hchallenge

end BrowserServe
