import BrowserServe.Library.SocksServer
import BrowserServe.ProxyRoundTrip
import BrowserServe.ProxyTarget
import BrowserServe.ProxyTunnel

namespace BrowserServe
open Library SocksServer
set_option autoImplicit true

/-- On a stream, a future sends a first part of `bytes`, and all of them if it ends well or the
stream takes all that it is sent. -/
def Says (x : Async ByteStream ProxyError α) (s : ByteStream) (bytes : List UInt8) : Prop :=
  ∀ r t, x s = (r, t) → ∃ sent, t.outgoing.written = s.outgoing.written ++ sent ∧ sent <+: bytes ∧
    (s.outgoing.room = none → t.outgoing.room = none ∧ sent = bytes) ∧
    ∀ a, r = .ok a → sent = bytes

theorem Says.pure (a : α) (s : ByteStream) : Says (pure a) s [] := by
  intro r t h
  cases h
  exact ⟨[], (List.append_nil _).symm, List.prefix_rfl, fun hroom => ⟨hroom, rfl⟩, fun _ _ => rfl⟩

theorem Says.throw (e : ProxyError) (s : ByteStream) :
    Says (Async.throw e : Async ByteStream ProxyError α) s [] := by
  intro r t h
  cases h
  exact ⟨[], (List.append_nil _).symm, List.prefix_rfl, fun hroom => ⟨hroom, rfl⟩, nofun⟩

theorem Says.bind {x : Async ByteStream ProxyError α} {f : α → Async ByteStream ProxyError β}
    (hx : Says x s bytes) (hf : ∀ a t, x s = (.ok a, t) → Says (f a) t more)
    (hstop : ∀ stop t, s.outgoing.room = none → x s = (.error stop, t) → more = []) :
    Says (x >>= f) s (bytes ++ more) := by
  intro r u h
  rcases Async.bind_cases h with ⟨a, t, hfirst, hsecond⟩ | ⟨stop, hfirst, rfl⟩
  · obtain ⟨sent, hsent, hprefix, hroom, hok⟩ := hx _ _ hfirst
    obtain ⟨sent', hsent', hprefix', hroom', hok'⟩ := hf a t hfirst _ _ hsecond
    have hall : sent = bytes := hok a rfl
    subst hall
    refine ⟨sent ++ sent', ?_, ?_, ?_, ?_⟩
    · rw [hsent', hsent, List.append_assoc]
    · exact (List.prefix_append_right_inj _).mpr hprefix'
    · intro hnone
      obtain ⟨hopen, _⟩ := hroom hnone
      obtain ⟨hopen', hall'⟩ := hroom' hopen
      exact ⟨hopen', by rw [hall']⟩
    · intro b hb
      rw [hok' b hb]
  · obtain ⟨sent, hsent, hprefix, hroom, _⟩ := hx _ _ hfirst
    refine ⟨sent, hsent, hprefix.trans (List.prefix_append _ _), ?_, nofun⟩
    intro hnone
    obtain ⟨hopen, hall⟩ := hroom hnone
    rw [hstop stop u hnone hfirst, List.append_nil]
    exact ⟨hopen, hall⟩

/-- A future that only reads is followed by what is said after it. -/
theorem Says.after {x : Async ByteStream ProxyError α} {f : α → Async ByteStream ProxyError β}
    (hx : Says x s []) (hf : ∀ a t, x s = (.ok a, t) → Says (f a) t more)
    (hstop : ∀ stop t, s.outgoing.room = none → x s = (.error stop, t) → more = []) :
    Says (x >>= f) s more := by
  have hboth := hx.bind hf hstop
  rwa [List.nil_append] at hboth

theorem Says.reads {x : Async ByteStream ProxyError α} {f : α → Async ByteStream ProxyError β}
    (hx : Says x s []) (hf : ∀ a t, x s = (.ok a, t) → Says (f a) t []) : Says (x >>= f) s [] :=
  hx.after hf fun _ _ _ _ => rfl

namespace Socks

theorem says_send (bytes : List UInt8) (s : ByteStream) : Says (send bytes) s bytes := by
  intro r t h
  obtain ⟨r', hwrite, hok⟩ := Async.mapErr_cases h
  simp only [ByteStream.writeAll, Async.on] at hwrite
  obtain ⟨hr, rfl⟩ := Prod.mk.inj hwrite
  unfold Outgoing.writeAll at hr ⊢
  cases hroom : s.outgoing.room with
  | none => exact ⟨bytes, rfl, List.prefix_rfl, fun _ => ⟨rfl, rfl⟩, fun _ _ => rfl⟩
  | some limit =>
    rw [hroom] at hr
    dsimp only at hr ⊢
    by_cases hfits : bytes.length ≤ limit.1
    · rw [if_pos hfits]
      exact ⟨bytes, rfl, List.prefix_rfl, fun hnone => absurd hnone (by simp), fun _ _ => rfl⟩
    · rw [if_neg hfits] at hr ⊢
      refine ⟨bytes.take limit.1, rfl, List.take_prefix _ _, fun hnone => absurd hnone (by simp),
        ?_⟩
      intro a ha
      rw [(hok a).mp ha] at hr
      cases hr

theorem says_readExact (n : Nat) (s : ByteStream) : Says (readExact n) s [] := by
  intro r t h
  obtain ⟨r', hread, _⟩ := Async.mapErr_cases h
  simp only [ByteStream.reading, Async.on] at hread
  obtain ⟨_, rfl⟩ := Prod.mk.inj hread
  exact ⟨[], (List.append_nil _).symm, List.prefix_rfl, fun hroom => ⟨hroom, rfl⟩, fun _ _ => rfl⟩

theorem readExact_error {s : ByteStream} (h : readExact n s = (.error stop, t)) :
    s.incoming.bytes.length < n := by
  apply Nat.lt_of_not_le
  intro hle
  obtain ⟨after, hread, _⟩ := Incoming.readExact_of_le hle
  have hok : readExact n s = (.ok (s.incoming.bytes.take n), s.read after) :=
    Async.mapErr_of_ok (Async.on_of hread)
  rw [hok] at h
  cases h

/-- The login that is sent when the proxy asks for it. -/
def loginOf (login : Option (Text × Text)) : Option (List UInt8) :=
  login.bind fun (user, pass) => loginMessage user pass

/-- What is sent between the greeting and the request. -/
def saidLogin (login : Option (Text × Text)) (answers : List UInt8) : List UInt8 :=
  match chosenMethod answers with
  | some (method, _) => if method = USER_PASS then (loginOf login).getD [] else []
  | none => []

/-- The proxy has let the client in. -/
def letIn (login : Option (Text × Text)) (answers : List UInt8) : Bool :=
  match chosenMethod answers with
  | some (method, answers) =>
    method = NO_AUTH || method = USER_PASS && (loginOf login).isSome && loginAccepted answers
  | none => false

/-- All that the client says to a proxy that gives these answers. -/
def said (login : Option (Text × Text)) (host : Text) (port : Nat) (answers : List UInt8) :
    List UInt8 :=
  greeting login ++ saidLogin login answers ++
    if letIn login answers then (request host port).getD [] else []

theorem letIn_iff {login : Option (Text × Text)} {answers : List UInt8} :
    letIn login answers = true ↔
      ∃ msg choice more, Choice login msg choice ∧ answers = choice ++ more := by
  constructor
  · intro h
    unfold letIn at h
    split at h
    · rename_i method rest hchosen
      rw [chosenMethod_eq_some_iff] at hchosen
      subst hchosen
      simp only [Bool.or_eq_true, Bool.and_eq_true, decide_eq_true_eq] at h
      rcases h with rfl | ⟨⟨rfl, hlogin⟩, haccepted⟩
      · exact ⟨[], _, rest, .noAuth, rfl⟩
      · obtain ⟨version, more, rfl⟩ := loginAccepted_iff.mp haccepted
        obtain ⟨msg, hmsg⟩ := Option.isSome_iff_exists.mp hlogin
        obtain ⟨⟨user, word⟩, rfl, hmsg⟩ := Option.bind_eq_some_iff.mp hmsg
        exact ⟨msg, _, more, .userPass rfl hmsg version, rfl⟩
    · cases h
  · rintro ⟨msg, choice, more, hchoice, rfl⟩
    cases hchoice with
    | noAuth => rfl
    | userPass hlogin hmsg version =>
      subst hlogin
      have hof : loginOf (some (_, _)) = some msg := hmsg
      simp only [letIn, chosenMethod, List.cons_append, List.nil_append, VERSION, hof]
      rfl

theorem says_sendLogin (user pass : Text) (s : ByteStream) :
    Says (sendLogin user pass) s ((loginMessage user pass).getD []) := by
  unfold sendLogin
  cases loginMessage user pass with
  | none => exact Says.throw _ s
  | some msg =>
    have hrest (t : ByteStream) : Says (do
        let status ← readExact 2
        if status.getD 1 0 ≠ 0 then Async.throw .loginFailed
        else pure ()) t [] := by
      refine (says_readExact 2 t).reads fun status u _ => ?_
      split
      · exact Says.throw _ u
      · exact Says.pure () u
    have hall := (says_send msg s).bind (fun _ t _ => hrest t) fun stop t hroom herror => rfl
    rw [List.append_nil] at hall
    exact hall

theorem send_error {s : ByteStream} (hroom : s.outgoing.room = none)
    (h : send bytes s = (.error stop, t)) : False := by
  obtain ⟨u, hsend, _⟩ := send_of_open ⟨rfl, hroom⟩ bytes
  rw [hsend] at h
  cases h

theorem says_authenticate (login : Option (Text × Text)) (s : ByteStream) :
    Says (authenticate login) s (greeting login ++ saidLogin login s.incoming.bytes) := by
  refine (says_send (greeting login) s).bind (fun _ t hsend => ?_) fun stop t hroom herror =>
    (send_error hroom herror).elim
  rw [(send_passed hsend).read, List.nil_append]
  refine (says_readExact 2 t).after (fun choice u hread => ?_) fun stop u _ herror => ?_
  · obtain ⟨hpassed, hlen⟩ := readExact_passed hread
    obtain ⟨version, method, rfl⟩ := List.length_eq_two.1 hlen
    rw [hpassed.read]
    simp only [List.getD_cons_succ, List.getD_cons_zero, List.cons_append, List.nil_append]
    by_cases hversion : version = VERSION
    · subst hversion
      have hchosen : chosenMethod (VERSION :: method :: u.incoming.bytes) =
          some (method, u.incoming.bytes) := rfl
      rw [saidLogin, hchosen]
      simp only [ne_eq, not_true_eq_false, if_false]
      by_cases hnone : method = NO_AUTH
      · rw [if_pos hnone, if_neg (by rw [hnone]; decide)]
        exact Says.pure () u
      · rw [if_neg hnone]
        by_cases hpass : method = USER_PASS
        · rw [if_pos hpass, if_pos hpass]
          cases login with
          | none => exact Says.throw _ u
          | some login => exact says_sendLogin login.1 login.2 u
        · rw [if_neg hpass, if_neg hpass]
          split
          · exact Says.throw _ u
          · exact Says.throw _ u
    · have hnone : chosenMethod (version :: method :: u.incoming.bytes) = none :=
        chosenMethod_eq_none fun _ _ heq => hversion (List.cons.inj heq).1
      rw [if_pos hversion, saidLogin, hnone]
      exact Says.throw _ u
  · have hshort := readExact_error herror
    have hnone : chosenMethod t.incoming.bytes = none := by
      refine chosenMethod_eq_none fun method rest heq => ?_
      rw [heq] at hshort
      simp at hshort
    rw [saidLogin, hnone]

theorem says_skipLength (kind : UInt8) (s : ByteStream) : Says (skipLength kind) s [] := by
  unfold skipLength
  split
  · exact Says.pure _ s
  split
  · exact Says.pure _ s
  split
  · exact (says_readExact 1 s).reads fun len t _ => Says.pure _ t
  · exact Says.throw _ s

theorem says_readReply (s : ByteStream) : Says readReply s [] := by
  refine (says_readExact 4 s).reads fun reply t _ => ?_
  split
  · exact Says.throw _ t
  split
  · exact Says.throw _ t
  · refine (says_skipLength _ t).reads fun skip u _ => ?_
    exact (says_readExact skip u).reads fun _ v _ => Says.pure () v

theorem says_connect (login : Option (Text × Text)) (host : Text) (port : Nat) (s : ByteStream) :
    Says (connect host port login) s (said login host port s.incoming.bytes) := by
  unfold said
  refine (says_authenticate login s).bind (fun _ t hauth => ?_) fun stop t hroom herror => ?_
  · obtain ⟨msg, reply, hchoice, hpassed⟩ := authenticate_ok hauth
    rw [hpassed.read, if_pos (letIn_iff.mpr ⟨msg, reply, _, hchoice, rfl⟩)]
    cases request host port with
    | none => exact Says.throw _ t
    | some req =>
      have hall := (says_send req t).bind (fun _ u _ => says_readReply u) fun stop u _ _ => rfl
      rw [List.append_nil] at hall
      exact hall
  · rw [if_neg]
    intro hlet
    obtain ⟨msg, choice, more, hchoice, hbytes⟩ := letIn_iff.mp hlet
    obtain ⟨u, hok, _⟩ := authenticate_of_open ⟨hbytes, hroom⟩ hchoice
    rw [hok] at herror
    cases herror

/-- What a server makes of the request for a target: an address where the host is one, and a name of
at most 255 bytes otherwise. -/
def asks (host : Text) (port : Nat) : List ClientMessage :=
  match parseIpAddr host with
  | some ip => [.connect (.address ip) port]
  | none =>
    if (asBytes host).length ≤ 255 then [.connect (.name (asBytes host)) port] else []

/-- What a server that gives these answers is told: the methods that are offered, the login if it
chose that, and the target once it has let the client in. -/
def messages (login : Option (Text × Text)) (host : Text) (port : Nat) (answers : List UInt8) :
    List ClientMessage :=
  .methods (if login.isSome then [NO_AUTH, USER_PASS] else [NO_AUTH]) ::
    match chosenMethod answers with
    | some (method, answers) =>
      if method = NO_AUTH then asks host port
      else if method = USER_PASS then
        match login with
        | some (user, word) => .login (asBytes user) (asBytes word) ::
            if loginAccepted answers then asks host port else []
        | none => []
      else []
    | none => []

theorem readMethods_greeting (login : Option (Text × Text)) (rest : List UInt8) :
    readMethods (greeting login ++ rest) =
      some (.methods (if login.isSome then [NO_AUTH, USER_PASS] else [NO_AUTH]), rest) := by
  cases login with
  | none =>
    have hcount : takeField (1 :: NO_AUTH :: rest) = some ([NO_AUTH], rest) :=
      takeField_append (show [NO_AUTH].length < 256 by decide) (List.cons_ne_nil _ _) rest
    have hgreeting : greeting none ++ rest = 5 :: 1 :: NO_AUTH :: rest := rfl
    rw [hgreeting, readMethods, hcount]
    rfl
  | some login =>
    have hcount : takeField (2 :: NO_AUTH :: USER_PASS :: rest) =
        some ([NO_AUTH, USER_PASS], rest) :=
      takeField_append (show [NO_AUTH, USER_PASS].length < 256 by decide)
        (List.cons_ne_nil _ _) rest
    have hgreeting : greeting (some login) ++ rest = 5 :: 2 :: NO_AUTH :: USER_PASS :: rest := rfl
    rw [hgreeting, readMethods, hcount]
    rfl

theorem asBytes_ne_nil {t : Text} (h : t ≠ []) : asBytes t ≠ [] := by
  obtain ⟨c, cs, rfl⟩ := List.exists_cons_of_ne_nil h
  have hpos : 0 < (String.utf8EncodeChar c).length := by
    rw [String.length_utf8EncodeChar]
    exact c.utf8Size_pos
  rw [asBytes, List.flatMap_cons]
  exact List.append_ne_nil_of_left_ne_nil (List.ne_nil_of_length_pos hpos) _

theorem readLogin_loginMessage {user word : Text} (h : loginMessage user word = some msg)
    (huser : user ≠ []) (hword : word ≠ []) (rest : List UInt8) :
    readLogin (msg ++ rest) = some (.login (asBytes user) (asBytes word), rest) := by
  unfold loginMessage at h
  dsimp only at h
  split at h
  · rename_i hlengths
    cases h
    simp only [List.cons_append, List.nil_append, List.append_assoc, readLogin,
      takeField_append hlengths.1 (asBytes_ne_nil huser), Option.bind_some,
      takeField_append hlengths.2 (asBytes_ne_nil hword), Option.map_some]
  · cases h

theorem readConnect_request (host : Text) (hport : port < 2 ^ 16) :
    andThen (readConnect ((request host port).getD [])) ((request host port).getD []) leave =
      (asks host port, []) := by
  have hread {bytes : List UInt8} {target : Target}
      (htarget : ∀ rest, readTarget (bytes ++ rest) = some (target, rest)) :
      andThen (readConnect ([VERSION, 0x01, 0x00] ++ bytes ++
          [UInt8.ofNat (port / 256), UInt8.ofNat port]))
        ([VERSION, 0x01, 0x00] ++ bytes ++ [UInt8.ofNat (port / 256), UInt8.ofNat port]) leave =
          ([.connect target port], []) := by
    have hconnect := readConnect_target htarget hport []
    simp only [List.cons_append, List.nil_append, VERSION, hconnect]
    rfl
  unfold request asks
  cases hip : parseIpAddr host with
  | some ip =>
    cases ip with
    | v4 a b c d => exact hread fun rest => readTarget_address (.v4 a b c d) rest
    | v6 segments => exact hread fun rest => readTarget_address (.v6 segments) rest
  | none =>
    by_cases hlength : (asBytes host).length < 256
    · have hle : (asBytes host).length ≤ 255 := Nat.le_of_lt_succ hlength
      simp only [if_pos hlength, if_pos hle]
      exact hread fun rest => readTarget_name hlength rest
    · have hlong : ¬(asBytes host).length ≤ 255 := fun hle => hlength (Nat.lt_succ_of_le hle)
      simp only [if_neg hlength, if_neg hlong]
      rfl

/-- The proxy asks for a login that has no password. -/
def AsksForNothing (login : Option (Text × Text)) (answers : List UInt8) : Prop :=
  ∃ user rest, login = some (user, []) ∧ chosenMethod answers = some (USER_PASS, rest)

/-- What the client says is what a server is to be told, and nothing more. -/
theorem serverReads_said {login : Option (Text × Text)} (hport : port < 2 ^ 16)
    (hlogin : ∀ user word, login = some (user, word) →
      user ≠ [] ∧ loginMessage user word ≠ none) (host : Text) {answers : List UInt8}
    (hasks : ¬ AsksForNothing login answers) :
    serverReads answers (said login host port answers) =
      (messages login host port answers, []) := by
  have hrequest := readConnect_request host hport
  unfold serverReads said messages letIn saidLogin
  rw [List.append_assoc, readMethods_greeting, andThen]
  cases hchosen : chosenMethod answers with
  | none => rfl
  | some chosen =>
    obtain ⟨method, rest⟩ := chosen
    dsimp only
    by_cases hnone : method = NO_AUTH
    · subst hnone
      simp [NO_AUTH, USER_PASS, hrequest]
    by_cases hpass : method = USER_PASS
    · subst hpass
      cases login with
      | none => simp [NO_AUTH, USER_PASS, loginOf, readLogin]
      | some login =>
        obtain ⟨user, word⟩ := login
        obtain ⟨huser, hfits⟩ := hlogin user word rfl
        obtain ⟨msg, hmsg⟩ := Option.ne_none_iff_exists'.mp hfits
        have hof : loginOf (some (user, word)) = some msg := hmsg
        have hword : word ≠ [] := by
          rintro rfl
          exact hasks ⟨user, rest, rfl, hchosen⟩
        by_cases haccepted : loginAccepted rest = true
        · simp [NO_AUTH, USER_PASS, hof, haccepted, readLogin_loginMessage hmsg huser hword,
            hrequest]
        · have hread := readLogin_loginMessage hmsg huser hword []
          rw [List.append_nil] at hread
          simp [NO_AUTH, USER_PASS, hof, haccepted, hread, leave]
    · have hzero : ¬method = 0 := hnone
      have htwo : ¬method = 2 := hpass
      simp [hnone, hpass, hzero, htwo, leave]

theorem asks_ne_nil (h : request host port = some req) : asks host port ≠ [] := by
  unfold asks
  cases hip : parseIpAddr host with
  | some ip => exact List.cons_ne_nil _ _
  | none =>
    by_cases hlength : (asBytes host).length < 256
    · rw [if_pos (Nat.le_of_lt_succ hlength)]
      exact List.cons_ne_nil _ _
    · simp only [request, hip, if_neg hlength] at h
      cases h

/-- A login without a password is one that no server is told. -/
theorem messages_empty {login : Option (Text × Text)} {answers : List UInt8}
    (h : AsksForNothing login answers) (host : Text) (port : Nat) :
    ∃ user, .login user [] ∈ messages login host port answers := by
  obtain ⟨user, rest, rfl, hchosen⟩ := h
  refine ⟨asBytes user, List.mem_cons_of_mem _ ?_⟩
  rw [hchosen]
  exact List.mem_cons_self

/-- A handshake as a server is to see it: what is sent is read as the methods, the login that is
asked for and the target; success means that the server let the client in and made the connection,
and that its answers were read to their last byte; and a login always fits in its message. -/
structure Handshake (login : Option (Text × Text)) (host : Text) (port : Nat) (s : ByteStream)
    (r : Except (Stop ProxyError) Unit) (t : ByteStream) : Prop where
  told : ∃ sent more, t.outgoing.written = s.outgoing.written ++ sent ∧
    serverReads s.incoming.bytes (sent ++ more) =
      (messages login host port s.incoming.bytes, []) ∧
    (s.outgoing.room = none → more = []) ∧ (r = .ok () → more = [])
  connected : r = .ok () → ∃ msg choice bound, Choice login msg choice ∧ Bound bound ∧
    asks host port ≠ [] ∧ s.incoming.bytes = choice ++ (bound ++ t.incoming.bytes)
  fits : ∀ user word, login = some (user, word) → loginMessage user word ≠ none

theorem Handshake.not_asksForNothing {login : Option (Text × Text)}
    (h : Handshake login host port s r t) : ¬ AsksForNothing login s.incoming.bytes := by
  intro hasks
  obtain ⟨user, hmem⟩ := messages_empty hasks host port
  obtain ⟨sent, more, _, hreads, _⟩ := h.told
  have hread : .login user [] ∈ (serverReads s.incoming.bytes (sent ++ more)).1 := by
    rw [hreads]
    exact hmem
  exact (login_of_serverReads hread).2 rfl

theorem connect_handshake {login : Option (Text × Text)} (hport : port < 2 ^ 16)
    (hlogin : ∀ user word, login = some (user, word) →
      user ≠ [] ∧ loginMessage user word ≠ none)
    (hasks : ¬ AsksForNothing login s.incoming.bytes)
    (h : connect host port login s = (r, t)) : Handshake login host port s r t := by
  refine ⟨?_, ?_, fun user word heq => (hlogin user word heq).2⟩
  · obtain ⟨sent, hsent, ⟨more, hmore⟩, hroom, hok⟩ := says_connect _ _ _ _ r t h
    have hreads := serverReads_said hport hlogin host hasks
    rw [← hmore] at hreads
    refine ⟨sent, more, hsent, hreads, fun hnone => ?_, fun hr => ?_⟩
    · exact List.append_right_eq_self.mp (hmore.trans (hroom hnone).2.symm)
    · exact List.append_right_eq_self.mp (hmore.trans (hok () hr).symm)
  · rintro rfl
    obtain ⟨msg, choice, req, bound, hchoice, hreq, hbound, hpassed⟩ := connect_ok h
    have hread := hpassed.read
    rw [List.append_assoc] at hread
    exact ⟨msg, choice, bound, hchoice, hbound, fun hnil => asks_ne_nil hreq hnil, hread⟩

end Socks

/-- A login for a SOCKS5 proxy that was parsed has a username and fits in its message. -/
theorem login_fits {dialer : Dialer} (hparse : ProxyUpstream.parse raw = .ok dialer.upstream)
    (hscheme : dialer.upstream.scheme = .socks5) (hlogin : dialer.login = some (user, word)) :
    user ≠ [] ∧ Socks.loginMessage user word ≠ none := by
  obtain ⟨username, huser, hpair⟩ := Option.map_eq_some_iff.mp hlogin
  obtain ⟨rfl, rfl⟩ := Prod.mk.inj hpair
  rw [parse_eq] at hparse
  split at hparse
  · obtain ⟨rfl, _, hvalid, _⟩ := parseRest_ok hparse
    rw [hscheme, huser] at hvalid
    unfold validateLogin at hvalid
    dsimp only at hvalid
    split at hvalid
    · cases hvalid
    rename_i hname
    split at hvalid
    · cases hvalid
    split at hvalid
    · cases hvalid
    rename_i hlengths
    rw [not_or] at hlengths
    have hu : (asBytes username).length < 256 := by omega
    have hp : (asBytes (dialer.upstream.password.getD [])).length < 256 := by
      cases hpass : dialer.upstream.password with
      | none => decide
      | some p =>
        have hlong := hlengths.2
        rw [hpass, Option.any_some, decide_eq_true_eq] at hlong
        rw [Option.getD_some]
        omega
    rw [Socks.loginMessage, if_pos ⟨hu, hp⟩]
    exact ⟨hname, Option.some_ne_none _⟩
  · cases hparse

/-- The handshake with a server is right unless the server asks for a login without a password. -/
theorem socks_handshake_iff {httparse : Httparse} {head : List UInt8} {request : Request}
    {dialer : Dialer} (hrequest : parseRequest httparse head = .ok request)
    (hupstream : ProxyUpstream.parse raw = .ok dialer.upstream)
    (hscheme : dialer.upstream.scheme = .socks5)
    (h : Socks.connect request.target.1 request.target.2 dialer.login s = (r, t)) :
    Socks.Handshake dialer.login request.target.1 request.target.2 s r t ↔
      ¬ Socks.AsksForNothing dialer.login s.incoming.bytes := by
  constructor
  · exact Socks.Handshake.not_asksForNothing
  · intro hasks
    exact Socks.connect_handshake (parseRequest_port hrequest)
      (fun _ _ => login_fits hupstream hscheme) hasks h

/-- A server that asks for the login is told it, and then the name to connect to. -/
theorem socks_login_handshake :
    let answers := [[5, 2], [1, 0, 5, 0, 0, 1, 0], [0, 0, 0, 0, 0, 7]]
    let s : ByteStream := ⟨⟨answers, .eof⟩, ⟨[], none, false⟩⟩
    serverReads answers.flatten
        (Socks.connect (text "a") 1 (some (text "u", text "p")) s).2.outgoing.written =
      ([.methods [0, 2], .login [117] [112], .connect (.name [97]) 1], []) := by
  intro answers s
  let dialer : Dialer :=
    ⟨⟨.socks5, text "h", 1080, some (text "u"), some (text "p")⟩, .ok (), false⟩
  have hrequest : parseRequest Httparse.plain
      (asBytes (text "CONNECT a:1 HTTP/1.1") ++ crlf ++ crlf) = .ok (.connect (text "a") 1) := by
    decide +kernel
  have hupstream : ProxyUpstream.parse (text "socks5://u:p@h") = .ok dialer.upstream := rfl
  have hasks : ¬ Socks.AsksForNothing dialer.login s.incoming.bytes := by
    rintro ⟨user, rest, hlogin, _⟩
    cases hlogin
  obtain ⟨sent, more, hsent, hreads, hroom, _⟩ :=
    ((socks_handshake_iff (s := s) hrequest hupstream rfl rfl).2 hasks).told
  rw [hroom rfl, List.append_nil] at hreads
  have hwritten :
      (Socks.connect (text "a") 1 (some (text "u", text "p")) s).2.outgoing.written = sent :=
    hsent
  rw [hwritten]
  refine hreads.trans ?_
  decide +kernel

/-- A login without a password is sent all the same, and no server reads it. -/
theorem socks_empty_password_sent :
    let s : ByteStream := ⟨⟨[[5, 2], [1, 0, 5, 0, 0, 1, 0, 0, 0, 0, 0, 0, 7]], .eof⟩,
      ⟨[], none, false⟩⟩
    let dialer : Dialer := ⟨⟨.socks5, text "h", 1080, some (text "u"), none⟩, .ok (), false⟩
    ProxyUpstream.parse (text "socks5://u@h") = .ok dialer.upstream ∧
      ∃ r t, Socks.connect (text "a") 1 dialer.login s = (r, t) ∧
        t.outgoing.written = [5, 2, 0, 2] ++ [1, 1, 117, 0] ++ [5, 1, 0, 3, 1, 97, 0, 1] ∧
        ¬ Socks.Handshake dialer.login (text "a") 1 s r t := by
  intro s dialer
  have hasks : Socks.AsksForNothing dialer.login s.incoming.bytes := ⟨text "u", _, rfl, rfl⟩
  exact ⟨rfl, _, _, rfl, by decide +kernel, fun h => h.not_asksForNothing hasks⟩

end BrowserServe
