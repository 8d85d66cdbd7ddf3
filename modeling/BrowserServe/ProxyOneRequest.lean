import BrowserServe.Library.HttpMessage
import BrowserServe.ProxyRewrite

namespace BrowserServe
open Library
set_option autoImplicit true

/-- What the upstream may have been sent by some point of a connection. -/
inductive UpstreamGets (httparse : Httparse) (dialer : Dialer) (copied : Nat) (conn : Conn) :
    List UInt8 → Prop
  | serving (hserve : Relay.serve httparse dialer copied conn = (served, c)) :
      UpstreamGets httparse dialer copied conn c.upstream.outgoing.written
  | tunnel (hserve : Relay.serve httparse dialer copied conn = (.ok .tunnel, c))
      (hreach : c.tunnelling.Reachable d) :
      UpstreamGets httparse dialer copied conn d.up.sink.written
  | exchange (hserve : Relay.serve httparse dialer copied conn = (.ok .exchange, c))
      (hreach : c.exchanging.Reachable x) :
      UpstreamGets httparse dialer copied conn x.body.sink.written

/-- Once the connection for a client's first request is open, that request is all that the upstream
gets: the head that the relay has made of it, and of the bytes after its head as many as the head
that goes out says are its body. -/
def OneRequest (httparse : Httparse) (dialer : Dialer) (client : Incoming UInt8) (host : Text)
    (port : Nat) (method absolute originForm : Text) (headers : List (Text × List UInt8))
    (after : List UInt8) : Prop :=
  ∀ conn copied rest requestHead up w, conn.client.incoming = client →
    Relay.opened httparse dialer host port method absolute originForm headers conn.upstream =
      (.ok (rest, requestHead), up) →
    UpstreamGets httparse dialer copied conn w →
    ∃ plain length, readPlain requestHead = some plain ∧ plain.bodyLength = some length ∧
      w <+: up.outgoing.written ++ (requestHead ++ after.take length)

/-- What reading from the upstream and writing to the client leave as it is. -/
def Conn.spared (conn : Conn) : Outgoing UInt8 × Incoming UInt8 :=
  (conn.upstream.outgoing, conn.client.incoming)

theorem onUpstream_spares {x : Async ByteStream ε α} (hx : Async.Keeps ByteStream.outgoing x) :
    Async.Keeps Conn.spared (onUpstream x) := by
  apply hx.on
  intro t conn h
  rw [Conn.spared, h]
  rfl

theorem onClient_spares {x : Async ByteStream ε α} (hx : Async.Keeps ByteStream.incoming x) :
    Async.Keeps Conn.spared (onClient x) := by
  apply hx.on
  intro t conn h
  rw [Conn.spared, h]
  rfl

theorem writeAll_spares (bytes : List UInt8) :
    Async.Keeps ByteStream.incoming (ByteStream.writeAll bytes) := fun _ => rfl

theorem response_spares (httparse : Httparse) (tunnelRest : List UInt8) :
    Async.Keeps Conn.spared (Relay.response httparse tunnelRest) := by
  have hreads : Async.Keeps ByteStream.outgoing (ByteStream.reading (readHead tunnelRest)) :=
    fun _ => rfl
  apply (onUpstream_spares (hreads.mapErr unreachable)).bind
  intro head
  cases head with
  | none => exact Async.keeps_throw _ _
  | some head =>
    dsimp only
    split
    · exact Async.keeps_throw _ _
    · have hwrites : ∀ bytes, Async.Keeps Conn.spared
          (onClient ((ByteStream.writeAll bytes).mapErr unreachable)) := fun bytes =>
        onClient_spares ((writeAll_spares bytes).mapErr unreachable)
      apply (hwrites head.head).bind
      intro _
      apply (hwrites head.rest).bind
      intro _
      exact Async.keeps_pure _ _

theorem response_ok {httparse : Httparse} {tunnelRest : List UInt8} {conn c : Conn}
    (h : Relay.response httparse tunnelRest conn = (.ok served, c)) : served = .exchange := by
  obtain ⟨head, t, _, h⟩ := Async.bind_ok h
  cases head with
  | none => cases h
  | some head =>
    dsimp only at h
    split at h
    · cases h
    · obtain ⟨_, _, _, h⟩ := Async.bind_ok h
      obtain ⟨_, _, _, h⟩ := Async.bind_ok h
      cases h
      rfl

theorem reply_spares (status : Nat) (reason : String) :
    Async.Keeps Conn.spared (reply status reason : Async Conn ε Unit) := by
  apply onClient_spares
  apply (writeAll_spares _).attempt.bind
  intro _ s
  rfl

theorem concluded_spares (out : Except (Stop ProxyError) Relayed × Conn) :
    (Relay.concluded out).2.spared = out.2.spared := by
  obtain ⟨r, c⟩ := out
  cases r with
  | ok => rfl
  | error stop =>
    cases stop with
    | failed e => exact (reply_spares 502 e.toString).bind (fun _ => Async.keeps_pure _ _) c
    | waiting => rfl

theorem concluded_ok {c d : Conn} (h : Relay.concluded (r, c) = (.ok served, d))
    (hne : served ≠ .closed) : r = .ok served ∧ d = c := by
  cases r with
  | ok served' =>
    cases h
    exact ⟨rfl, rfl⟩
  | error stop =>
    cases stop with
    | failed e =>
      obtain ⟨_, _, _, h⟩ := Async.bind_ok h
      cases h
      exact absurd rfl hne
    | waiting => cases h

theorem write_within {conn c : Conn} (h : conn.upstream.outgoing.Within (bs ++ left) bytes)
    (hrun : onUpstream ((ByteStream.writeAll bs).mapErr unreachable) conn = (r, c)) :
    c.upstream.outgoing.Within left bytes ∧ c.client = conn.client := by
  cases hrun
  refine ⟨?_, rfl⟩
  rw [Async.mapErr_state]
  exact h.writeAll

theorem body_within {conn c : Conn}
    (h : conn.upstream.outgoing.Within conn.client.incoming.bytes bytes)
    (hrun : (Relay.body copied : Async Conn ε Unit) conn = (r, c)) :
    c.upstream.outgoing.Within c.client.incoming.bytes bytes := by
  rw [← List.take_append_drop copied conn.client.incoming.bytes] at h
  cases hrun
  simp only [Incoming.bytes, List.flatten_cons, List.flatten_nil, List.append_nil]
  exact h.writeAll

/-- Whatever a forwarded request comes to, the upstream is sent a first part of the request's head
and all that the client sends after it. -/
theorem forward_within {httparse : Httparse} {conn c : Conn} (h : conn.upstream.outgoing.Within
      (requestHead ++ (early ++ conn.client.incoming.bytes)) bytes)
    (hrun : Relay.forward httparse copied tunnelRest requestHead early conn = (r, c)) :
    c.upstream.outgoing.written <+: bytes ∧ ∀ served, r = .ok served →
      served = .exchange ∧ c.upstream.outgoing.Within c.client.incoming.bytes bytes := by
  have hstops : ∀ {c : Conn} (stop : Stop ProxyError) (served : Relayed),
      (.error stop : Except (Stop ProxyError) Relayed) = .ok served →
        served = .exchange ∧ c.upstream.outgoing.Within c.client.incoming.bytes bytes := by
    intro c stop served hserved
    cases hserved
  rcases Async.bind_cases hrun with ⟨_, t, hhead, hrun⟩ | ⟨stop, hhead, rfl⟩
  · obtain ⟨hfirst, hclient⟩ := write_within h hhead
    rcases Async.bind_cases hrun with ⟨_, t', hearly, hrun⟩ | ⟨stop, hearly, rfl⟩
    · obtain ⟨hsecond, hclient'⟩ := write_within hfirst hearly
      rw [← hclient, ← hclient'] at hsecond
      rcases Async.bind_cases hrun with ⟨_, t'', hbody, hrun⟩ | ⟨stop, hbody, rfl⟩
      · have hthird := body_within hsecond hbody
        have hspares := response_spares httparse tunnelRest t''
        rw [hrun] at hspares
        obtain ⟨hup, hclient⟩ := Prod.mk.inj hspares
        rw [← hup, ← hclient] at hthird
        refine ⟨hthird.written, ?_⟩
        rintro served rfl
        exact ⟨response_ok hrun, hthird⟩
      · cases hbody
    · obtain ⟨hsecond, _⟩ := write_within hfirst hearly
      exact ⟨hsecond.written, hstops _⟩
  · obtain ⟨hfirst, _⟩ := write_within h hhead
    exact ⟨hfirst.written, hstops _⟩

theorem exchanging_within {conn : Conn}
    (h : conn.upstream.outgoing.Within conn.client.incoming.bytes bytes)
    (hreach : conn.exchanging.Reachable x) :
    x.body.sink.Within (x.body.held ++ x.body.source.bytes) bytes := by
  apply hreach.invariant
  · intro s hs
    rw [show s = ⟨conn.down, conn.up, false⟩ from hs]
    exact h
  · intro s a t _ hs hstep
    cases hstep with
    | response => exact hs
    | body _ hstep => exact hstep.within hs
    | shutdown => exact hs

/-- In every run, the upstream of a forwarded request gets a first part of the request's head and
all that the client sends after it. -/
theorem UpstreamGets.isPrefix {httparse : Httparse} {dialer : Dialer} {conn : Conn}
    (h : UpstreamGets httparse dialer copied conn w)
    (hread : readHead [] conn.client.incoming = (.ok (some head), incoming))
    (hparse : parseRequest httparse head.head =
      .ok (.forward host port method absolute originForm headers))
    (hopened : Relay.opened httparse dialer host port method absolute originForm headers
      conn.upstream = (.ok (rest, requestHead), up)) :
    w <+: up.outgoing.written ++ (requestHead ++ (head.rest ++ incoming.bytes)) := by
  have hserve : Relay.serve httparse dialer copied conn =
      Relay.concluded (Relay.forward httparse copied rest requestHead head.rest
        { conn.heard incoming with upstream := up }) := by
    have hopened' : Relay.opened httparse dialer host port method absolute originForm headers
        (conn.heard incoming).upstream = (.ok (rest, requestHead), up) := hopened
    rw [serve_request hread hparse, outcome_forward, hopened']
  cases hforward : Relay.forward httparse copied rest requestHead head.rest
      { conn.heard incoming with upstream := up } with
  | mk r c =>
    rw [hforward] at hserve
    have hstart : up.outgoing.Within (requestHead ++ (head.rest ++ incoming.bytes))
        (up.outgoing.written ++ (requestHead ++ (head.rest ++ incoming.bytes))) :=
      .inl List.prefix_rfl
    obtain ⟨hwritten, hwithin⟩ := forward_within hstart hforward
    cases h with
    | serving hserve' =>
      have hspares := concluded_spares (r, c)
      rw [← hserve, hserve'] at hspares
      rw [(Prod.mk.inj hspares).1]
      exact hwritten
    | tunnel hserve' =>
      obtain ⟨hr, _⟩ := concluded_ok (hserve.symm.trans hserve') (by decide)
      obtain ⟨hexchange, _⟩ := hwithin _ hr
      cases hexchange
    | exchange hserve' hreach =>
      obtain ⟨hr, rfl⟩ := concluded_ok (hserve.symm.trans hserve') (by decide)
      exact (exchanging_within (hwithin _ hr).2 hreach).written

/-- An upstream that takes all it is sent can get all of it. -/
theorem UpstreamGets.all {httparse : Httparse} {dialer : Dialer} {client upstream : Incoming UInt8}
    (hread : readHead [] client = (.ok (some head), incoming))
    (hparse : parseRequest httparse head.head =
      .ok (.forward host port method absolute originForm headers))
    (hopened : Relay.opened httparse dialer host port method absolute originForm headers
      (.fresh upstream) = (.ok (rest, requestHead), up)) :
    UpstreamGets httparse dialer incoming.bytes.length (.fresh client upstream)
      (up.outgoing.written ++ (requestHead ++ (head.rest ++ incoming.bytes))) := by
  obtain ⟨_, hroom⟩ := opened_ok hopened
  have hopened' : Relay.opened httparse dialer host port method absolute originForm headers
      ((Conn.fresh client upstream).heard incoming).upstream = (.ok (rest, requestHead), up) :=
    hopened
  obtain ⟨sent, _, _, hwritten, hforward⟩ := forward_of_open httparse incoming.bytes.length rest
    requestHead head.rest
      (show ({ (Conn.fresh client upstream).heard incoming with upstream := up } :
      Conn).upstream.outgoing.room = none from hroom rfl)
  have hrun : Relay.serve httparse dialer incoming.bytes.length (.fresh client upstream) =
      Relay.concluded (Relay.response httparse rest sent) := by
    rw [serve_request hread hparse, outcome_forward, hopened']
    exact congrArg Relay.concluded hforward
  have hspares := (concluded_spares (Relay.response httparse rest sent)).trans
    (response_spares httparse rest sent)
  have hall : (Relay.concluded (Relay.response httparse rest sent)).2.upstream.outgoing.written =
      up.outgoing.written ++ (requestHead ++ (head.rest ++ incoming.bytes)) := by
    rw [(Prod.mk.inj hspares).1, hwritten]
    change up.outgoing.written ++ (requestHead ++ (head.rest ++
      incoming.bytes.take incoming.bytes.length)) = _
    rw [List.take_length]
  rw [← hall]
  exact .serving hrun

theorem eqIgnoreAsciiCase_congr {s t : Text} (h : eqIgnoreAsciiCase s t = true) :
    eqIgnoreAsciiCase s = eqIgnoreAsciiCase t := by
  rw [eqIgnoreAsciiCase_iff] at h
  funext u
  rw [Bool.eq_iff_iff, eqIgnoreAsciiCase_iff, eqIgnoreAsciiCase_iff, h]

theorem rewrittenHead_fields (method target : Text) (headers : List (Text × List UInt8))
    (proxyAuth : Option Text) :
    ((rewrittenHead method target headers proxyAuth).fields.map
        fun field => (fromUtf8Lossy field.1, field.2)) =
      (headers.filter fun header => !(hopByHop headers).any (eqIgnoreAsciiCase header.1)) ++
        (addedFields proxyAuth).map fun field => (fromUtf8Lossy field.1, field.2) := by
  rw [rewrittenHead, List.map_append, keptFields, List.map_map]
  congr 1
  calc List.map _ _ = List.map id _ := by
        apply List.map_congr_left
        intro header _
        simp only [Function.comp, fromUtf8Lossy_asBytes, id]
    _ = _ := List.map_id _

theorem addedFields_values {name : Text}
    (hlogin : eqIgnoreAsciiCase (text "Proxy-Authorization") name = false)
    (hclose : eqIgnoreAsciiCase (text "Connection") name = false) (proxyAuth : Option Text) :
    fieldValues name ((addedFields proxyAuth).map
      fun field => (fromUtf8Lossy field.1, field.2)) = [] := by
  cases proxyAuth with
  | none => simp [fieldValues, addedFields, fromUtf8Lossy_asBytes, hclose]
  | some auth => simp [fieldValues, addedFields, fromUtf8Lossy_asBytes, hlogin, hclose]

theorem rewrittenHead_values (headers : List (Text × List UInt8)) {name : Text}
    (hlogin : eqIgnoreAsciiCase (text "Proxy-Authorization") name = false)
    (hclose : eqIgnoreAsciiCase (text "Connection") name = false) (method target : Text)
    (proxyAuth : Option Text) :
    fieldValues name ((rewrittenHead method target headers proxyAuth).fields.map
        fun field => (fromUtf8Lossy field.1, field.2)) =
      if (hopByHop headers).any (eqIgnoreAsciiCase name) then [] else fieldValues name headers := by
  rw [rewrittenHead_fields, fieldValues_append, addedFields_values hlogin hclose, List.append_nil]
  have hsame : ∀ header ∈ headers, eqIgnoreAsciiCase header.1 name = true →
      (hopByHop headers).any (eqIgnoreAsciiCase header.1) =
        (hopByHop headers).any (eqIgnoreAsciiCase name) := by
    intro header _ hname
    rw [eqIgnoreAsciiCase_congr hname]
  split
  · rename_i hdropped
    apply fieldValues_of_drop
    intro header hmem hname
    rw [hsame header hmem hname, hdropped]
    rfl
  · rename_i hkept
    apply fieldValues_of_keep
    intro header hmem hname
    rw [hsame header hmem hname, Bool.eq_false_of_not_eq_true hkept]
    rfl

/-- The head that goes out says that there is no body where the `Connection` header has named the
length of it. -/
theorem rewrittenHead_bodyLength {headers : List (Text × List UInt8)}
    (h : bodyLength headers = some length) (method target : Text) (proxyAuth : Option Text) :
    ∃ sent, (rewrittenHead method target headers proxyAuth).bodyLength = some sent ∧
      (HopByHop headers (text "content-length") → sent = 0) ∧
      (¬HopByHop headers (text "content-length") → sent = length) := by
  have hencoding := fieldValues_of_bodyLength h
  have hlogin : ∀ name ∈ [text "transfer-encoding", text "content-length"],
      eqIgnoreAsciiCase (text "Proxy-Authorization") name = false := by decide
  have hclose : ∀ name ∈ [text "transfer-encoding", text "content-length"],
      eqIgnoreAsciiCase (text "Connection") name = false := by decide
  have hvalues := fun name hmem => @rewrittenHead_values headers name (hlogin name hmem)
    (hclose name hmem) method target proxyAuth
  have hnone := hvalues (text "transfer-encoding") List.mem_cons_self
  rw [hencoding, ite_self] at hnone
  have hlength := hvalues (text "content-length") (List.mem_cons_of_mem _ List.mem_cons_self)
  have htoken : IsToken (text "content-length") := by
    constructor
    · decide
    · decide
  rw [← hopByHop_iff htoken]
  split at hlength
  · rename_i hdropped
    exact ⟨0, bodyLength_of_nil hnone hlength, fun _ => rfl, fun hkept => absurd hdropped hkept⟩
  · rename_i hkept
    refine ⟨length, ?_, fun hdropped => absurd hdropped hkept, fun _ => rfl⟩
    rw [PlainHead.bodyLength, bodyLength_congr (hnone.trans hencoding.symm) hlength, h]

/-- A forwarded request is all that goes out if and only if the client sends nothing after its body,
and no body under a head whose `Connection` header names `Content-Length`. -/
theorem one_request_iff {httparse : Httparse} (hclean : httparse.Clean) (dialer : Dialer)
    (client upstream : Incoming UInt8)
    (hread : readHead [] client = (.ok (some head), incoming))
    (hparse : parseRequest httparse head.head =
      .ok (.forward host port method absolute originForm headers))
    (hlength : bodyLength headers = some length)
    (hopened : Relay.opened httparse dialer host port method absolute originForm headers
      (.fresh upstream) = (.ok (rest, requestHead), up)) :
    OneRequest httparse dialer client host port method absolute originForm headers
        (head.rest ++ incoming.bytes) ↔
      (head.rest ++ incoming.bytes).length ≤ length ∧ (head.rest ++ incoming.bytes = [] ∨
        ¬HopByHop headers (text "content-length")) := by
  obtain ⟨sent, hsent, hdropped, hkept⟩ := rewrittenHead_bodyLength hlength method
    (if dialer.upstream.scheme = .socks5 then originForm else absolute)
    (if dialer.upstream.scheme = .socks5 then none else dialer.upstream.basicAuth)
  have hreads := requestHead_reads hclean hparse dialer.upstream
  constructor
  · intro hone
    obtain ⟨plain, limit, hplain, hlimit, hprefix⟩ := hone (.fresh client upstream) _ _ _ _ _ rfl
      hopened (UpstreamGets.all hread hparse hopened)
    rw [opened_requestHead hopened] at hplain hprefix
    obtain rfl : _ = plain := Option.some.inj (hreads.symm.trans hplain)
    obtain rfl : sent = limit := Option.some.inj (hsent.symm.trans hlimit)
    have hafter := (List.prefix_append_right_inj _).1 ((List.prefix_append_right_inj _).1 hprefix)
    have hle : (head.rest ++ incoming.bytes).length ≤ sent :=
      Nat.le_trans hafter.length_le (List.length_take_le _ _)
    by_cases hnamed : HopByHop headers (text "content-length")
    · have hempty : head.rest ++ incoming.bytes = [] := by
        rw [hdropped hnamed] at hle
        exact List.length_eq_zero_iff.1 (Nat.le_zero.1 hle)
      rw [hempty]
      exact ⟨Nat.zero_le _, .inl rfl⟩
    · rw [hkept hnamed] at hle
      exact ⟨hle, .inr hnamed⟩
  · rintro ⟨hle, hcondition⟩ conn copied rest' requestHead' up' w hclient hopened' hgets
    refine ⟨_, sent, ?_, hsent, ?_⟩
    · rw [opened_requestHead hopened']
      exact hreads
    · have hsent_le : (head.rest ++ incoming.bytes).length ≤ sent := by
        rcases hcondition with hempty | hnamed
        · rw [hempty]
          exact Nat.zero_le _
        · rw [hkept hnamed]
          exact hle
      rw [List.take_of_length_le hsent_le]
      exact hgets.isPrefix (hclient ▸ hread) hparse hopened'

def postHead : List UInt8 :=
  asBytes (text "POST http://a/ HTTP/1.1") ++ crlf ++ asBytes (text "Content-Length: 2") ++ crlf ++
    crlf

/-- A request with a body is all that goes out where the client sends no more. -/
theorem post_is_one_request :
    OneRequest Httparse.checked plainProxy ⟨[postHead, [104, 105]], .silent⟩ (text "a") 80
      (text "POST") (text "http://a/") (text "/") [(text "Content-Length", [50])]
      ([] ++ (⟨[[], [104, 105]], .silent⟩ : Incoming UInt8).bytes) := by
  have hread : readHead [] ⟨[postHead, [104, 105]], .silent⟩ =
      (.ok (some ⟨postHead, []⟩), ⟨[[], [104, 105]], .silent⟩) := by decide +kernel
  have hparse : parseRequest Httparse.checked postHead = .ok (.forward (text "a") 80 (text "POST")
      (text "http://a/") (text "/") [(text "Content-Length", [50])]) := by decide +kernel
  have hlength : bodyLength [(text "Content-Length", [50])] = some 2 := by decide +kernel
  have hopened : Relay.opened Httparse.checked plainProxy (text "a") 80 (text "POST")
      (text "http://a/") (text "/") [(text "Content-Length", [50])] (.fresh ⟨[], .silent⟩) =
        (.ok ([], rewriteRequest (text "POST") (text "http://a/") [(text "Content-Length", [50])]
          none), .fresh ⟨[], .silent⟩) := rfl
  have hiff := one_request_iff Httparse.checked_clean plainProxy _
      ⟨[], .silent⟩ hread hparse hlength
    hopened
  apply hiff.2
  refine ⟨by decide, .inr ?_⟩
  have htoken : IsToken (text "content-length") := by
    constructor
    · decide
    · decide
  rw [← hopByHop_iff htoken]
  decide +kernel

def loginGet : List UInt8 :=
  asBytes (text "GET http://b/ HTTP/1.1") ++ crlf ++
    asBytes (text "Proxy-Authorization: Basic eA==") ++ crlf ++ crlf

/-- A second request goes out as it came, with the client's own login. -/
theorem second_request_goes_out :
    ¬ ∀ (httparse : Httparse), httparse.Clean → ∀ (dialer : Dialer)
      (client upstream incoming : Incoming UInt8) (head : Head) (host : Text) (port : Nat)
      (method absolute originForm : Text) (headers : List (Text × List UInt8)) (length : Nat)
      (rest requestHead : List UInt8) (up : ByteStream),
      readHead [] client = (.ok (some head), incoming) →
      parseRequest httparse head.head =
        .ok (.forward host port method absolute originForm headers) →
      bodyLength headers = some length →
      Relay.opened httparse dialer host port method absolute originForm headers
        (.fresh upstream) = (.ok (rest, requestHead), up) →
      OneRequest httparse dialer client host port method absolute originForm headers
        (head.rest ++ incoming.bytes) := by
  intro hclaim
  have hread : readHead [] ⟨[plainGet ++ loginGet], .silent⟩ =
      (.ok (some ⟨plainGet, loginGet⟩), ⟨[[]], .silent⟩) := by decide +kernel
  have hparse : parseRequest Httparse.checked plainGet =
      .ok (.forward (text "a") 80 (text "GET") (text "http://a/") (text "/") []) := by
    decide +kernel
  have hplain : readPlain (rewriteRequest (text "GET") (text "http://a/") [] none) =
      some (rewrittenHead (text "GET") (text "http://a/") [] none) := by decide +kernel
  have hlength : (rewrittenHead (text "GET") (text "http://a/") [] none).bodyLength = some 0 := by
    decide +kernel
  have hopened := plainProxy_opened ⟨[], .silent⟩
  have hone := hclaim Httparse.checked Httparse.checked_clean plainProxy _
      ⟨[], .silent⟩ _ _ _ _ _ _ _
    _ 0 _ _ _ hread hparse (by decide +kernel) hopened
  obtain ⟨plain, limit, hplain', hlimit, hprefix⟩ := hone (.fresh _ _) _ _ _ _ _ rfl hopened
    (UpstreamGets.all hread hparse hopened)
  obtain rfl : _ = plain := Option.some.inj (hplain.symm.trans hplain')
  obtain rfl : 0 = limit := Option.some.inj (hlength.symm.trans hlimit)
  have hafter := (List.prefix_append_right_inj _).1 ((List.prefix_append_right_inj _).1 hprefix)
  rw [List.take_zero, List.prefix_nil] at hafter
  revert hafter
  decide +kernel

end BrowserServe
