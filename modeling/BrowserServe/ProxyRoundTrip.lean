import BrowserServe.ProxyEscapes

namespace BrowserServe
open Library
set_option autoImplicit true

/-- The start of a proxy's address, in any case. -/
inductive SchemePart : ProxyScheme → Text → Prop
  | http (h : eqIgnoreAsciiCase front (text "http://") = true) : SchemePart .http front
  | https (h : eqIgnoreAsciiCase front (text "https://") = true) : SchemePart .https front
  | socks5 (h : eqIgnoreAsciiCase front (text "socks5://") = true) : SchemePart .socks5 front
  | socks5h (h : eqIgnoreAsciiCase front (text "socks5h://") = true) : SchemePart .socks5 front

theorem stripPrefixCi_front {front pattern : Text} {whole : String}
    (hfront : eqIgnoreAsciiCase front (text whole) = true)
    (hascii : (text whole).all (fun c => 32 < c.toNat && c.toNat < 128) = true)
    (hle : pattern.length ≤ (text whole).length) (rest : Text) :
    stripPrefixCi (front ++ rest) pattern =
      if (toAsciiLowercase (text whole)).take pattern.length = toAsciiLowercase pattern then
        some (front.drop pattern.length ++ rest) else none := by
  have hchars : ∀ c ∈ text whole, 32 < c.toNat ∧ c.toNat < 128 := by
    intro c hc
    have hbounds := List.all_eq_true.mp hascii c hc
    rw [Bool.and_eq_true, decide_eq_true_eq, decide_eq_true_eq] at hbounds
    exact hbounds
  have hwidth : ∀ c ∈ front.take pattern.length, c.utf8Size = 1 := fun c hc =>
    utf8Size_of_eqIgnoreAsciiCase hfront hchars c (List.mem_of_mem_take hc)
  have hlength : (front.take pattern.length).length = pattern.length :=
    List.length_take_of_le
      (Nat.le_trans hle (Nat.le_of_eq (length_of_eqIgnoreAsciiCase hfront).symm))
  have hsplit := splitAtByte_ascii hwidth (front.drop pattern.length ++ rest)
  rw [hlength, ← List.append_assoc, List.take_append_drop] at hsplit
  have hcase : eqIgnoreAsciiCase (front.take pattern.length) pattern = true ↔
      (toAsciiLowercase (text whole)).take pattern.length = toAsciiLowercase pattern := by
    rw [eqIgnoreAsciiCase_iff, ← eqIgnoreAsciiCase_iff.mp hfront, toAsciiLowercase,
      toAsciiLowercase,
      List.map_take]
    exact Iff.rfl
  simp only [stripPrefixCi, hsplit, bind, Option.bind, hcase]

theorem parseScheme_front (h : SchemePart scheme front) (rest : Text) :
    parseScheme (front ++ rest) = some (scheme, rest) := by
  have hdrop {whole : String} (hfront : eqIgnoreAsciiCase front (text whole) = true) :
      front.drop (text whole).length = [] :=
    List.drop_of_length_le (Nat.le_of_eq (length_of_eqIgnoreAsciiCase hfront))
  unfold parseScheme
  cases h with
  | http h =>
    rw [stripPrefixCi_front h (by decide) (by decide), if_pos (by decide), hdrop h]
    rfl
  | https h =>
    rw [stripPrefixCi_front h (by decide) (by decide), if_neg (by decide),
      stripPrefixCi_front h (by decide) (by decide), if_pos (by decide), hdrop h]
    rfl
  | socks5 h =>
    rw [stripPrefixCi_front h (by decide) (by decide), if_neg (by decide),
      stripPrefixCi_front h (by decide) (by decide), if_neg (by decide),
      stripPrefixCi_front h (by decide) (by decide), if_pos (by decide), hdrop h]
    rfl
  | socks5h h =>
    rw [stripPrefixCi_front h (by decide) (by decide), if_neg (by decide),
      stripPrefixCi_front h (by decide) (by decide), if_neg (by decide),
      stripPrefixCi_front h (by decide) (by decide), if_neg (by decide),
      stripPrefixCi_front h (by decide) (by decide), if_pos (by decide), hdrop h]
    rfl

/-- What is parsed after the scheme, the slash at the end removed. -/
def parseRest (scheme : ProxyScheme) (rest : Text) : Except UpstreamParseError ProxyUpstream :=
  if rest.any fun c => ['/', '?', '#'].contains c then .error .path
  else do
    let (login, hostport) :=
      match rsplitOnce '@' rest with
      | some (login, hostport) => (some login, hostport)
      | none => (none, rest)
    let (host, port) ← splitHostPort hostport scheme.defaultPort
    let (username, password) ←
      match login with
      | none => pure (none, none)
      | some login => parseLogin login
    validateLogin scheme username password
    return ⟨scheme, host, port, username, password⟩

theorem parse_eq (raw : Text) : ProxyUpstream.parse raw =
    match parseScheme (trim raw) with
    | some (scheme, rest) =>
      parseRest scheme (if rest.getLast? = some '/' then rest.dropLast else rest)
    | none => .error .scheme := by
  unfold ProxyUpstream.parse parseRest
  cases parseScheme (trim raw) with
  | none => rfl
  | some parts => rfl

theorem SchemePart.head (h : SchemePart scheme front) :
    ∃ c, front.head? = some c ∧ isWhitespace c = false := by
  have hcase {whole : String} (hfront : eqIgnoreAsciiCase front (text whole) = true)
      (hascii : (text whole).all (fun c => 32 < c.toNat && c.toNat < 128) = true)
      (hne : text whole ≠ []) : ∃ c, front.head? = some c ∧ isWhitespace c = false := by
    cases front with
    | nil =>
      exact absurd (List.eq_nil_of_length_eq_zero (length_of_eqIgnoreAsciiCase hfront).symm) hne
    | cons c front =>
      exact ⟨c, rfl, not_isWhitespace_of_eqIgnoreAsciiCase hfront hascii c List.mem_cons_self⟩
  cases h with
  | http h => exact hcase h (by decide) (by decide)
  | https h => exact hcase h (by decide) (by decide)
  | socks5 h => exact hcase h (by decide) (by decide)
  | socks5h h => exact hcase h (by decide) (by decide)

/-- A character that can end the host and port of an address. -/
def isEndChar (c : Char) : Bool := !isWhitespace c && c ≠ '/'

/-- An address, with white space around it and perhaps a slash at its end, is parsed as what comes
after its scheme. -/
theorem parse_written (hscheme : SchemePart scheme front) (hlast : rest.getLast? = some d)
    (hd : isEndChar d = true) (hslash : slash = [] ∨ slash = ['/'])
    (hbefore : ∀ c ∈ before, isWhitespace c = true) (hafter : ∀ c ∈ after, isWhitespace c = true) :
    ProxyUpstream.parse (before ++ (front ++ (rest ++ slash) ++ after)) =
      parseRest scheme rest := by
  obtain ⟨c, hhead, hc⟩ := hscheme.head
  have hne : front ≠ [] := by
    rintro rfl
    cases hhead
  have hcoreHead : (front ++ (rest ++ slash)).head? = some c := by
    rw [List.head?_append_of_ne_nil _ hne]
    exact hhead
  rw [isEndChar, Bool.and_eq_true, Bool.not_eq_true', decide_eq_true_eq] at hd
  have hcoreLast : ∃ e, (front ++ (rest ++ slash)).getLast? = some e ∧ isWhitespace e = false := by
    rcases hslash with rfl | rfl
    · exact ⟨d, by simp [List.getLast?_append, hlast], hd.1⟩
    · exact ⟨'/', by simp [List.getLast?_append], by decide⟩
  obtain ⟨e, hcoreLast, he⟩ := hcoreLast
  have htail : (after.reverse.dropWhile isWhitespace).reverse = [] := by
    rw [List.reverse_eq_nil_iff, List.dropWhile_eq_nil_iff]
    exact fun c hc => hafter c (List.mem_reverse.mp hc)
  rw [parse_eq, trim_core hbefore hcoreHead hc hcoreLast he, htail, List.append_nil,
    parseScheme_front hscheme]
  dsimp only
  rcases hslash with rfl | rfl
  · rw [List.append_nil, hlast, if_neg]
    intro heq
    exact hd.2 (Option.some.inj heq)
  · rw [List.getLast?_concat, if_pos rfl, List.dropLast_concat]

def isHostChar (c : Char) : Bool := c.isAlphanum || ['.', '-', ':', '_'].contains c

structure ValidHost (host : Text) : Prop where
  nonempty : host ≠ []
  chars : host.all isHostChar = true

theorem ValidHost.not_mem {c : Char} (h : ValidHost host) (hc : isHostChar c = false) :
    c ∉ host := by
  intro hmem
  rw [List.all_eq_true.mp h.chars c hmem] at hc
  cases hc

/-- A host as it is written: in brackets if it has a colon. -/
inductive HostPart : Text → Text → Prop
  | name (hcolon : ':' ∉ host) : HostPart host host
  | bracketed : HostPart host ('[' :: (host ++ [']']))

/-- What is done with a host and the text of its port. -/
def checkHostPort (host : Text) (port : Option Text) (defaultPort : Nat) :
    Except UpstreamParseError (Text × Nat) :=
  if host = [] ∨ !host.all isHostChar then .error .hostPort
  else
    match port with
    | none => pure (toAsciiLowercase host, defaultPort)
    | some p =>
      match (parseUnsigned 16 p).filter (· ≠ 0) with
      | some port => pure (toAsciiLowercase host, port)
      | none => .error .hostPort

theorem splitHostPort_unbracketed {s : Text} (h : s.head? ≠ some '[') (known : Nat) :
    splitHostPort s known =
      match rsplitOnce ':' s with
      | some (host, p) => checkHostPort host (some p) known
      | none => checkHostPort s none known := by
  unfold splitHostPort
  rw [stripPrefix_eq_none h]
  cases rsplitOnce ':' s with
  | none => rfl
  | some parts => rfl

theorem splitHostPort_bracketed {host after : Text} (h : ']' ∉ host) (known : Nat) :
    splitHostPort ('[' :: (host ++ ']' :: after)) known =
      if after = [] then checkHostPort host none known
      else
        match stripPrefix ':' after with
        | some p => checkHostPort host (some p) known
        | none => .error .hostPort := by
  have hopen : stripPrefix '[' ('[' :: (host ++ ']' :: after)) = some (host ++ ']' :: after) :=
    stripPrefix_eq_some_iff.mpr rfl
  unfold splitHostPort
  rw [hopen]
  simp only [splitOnce_append h, Option.elim_some, bind, Except.bind]
  split
  · rfl
  · cases stripPrefix ':' after with
    | none => rfl
    | some p => rfl

theorem checkHostPort_valid (hhost : ValidHost host) (known : Nat) :
    checkHostPort host none known = .ok (toAsciiLowercase host, known) ∧
      ∀ {digits port}, IsPort digits port →
        checkHostPort host (some digits) known = .ok (toAsciiLowercase host, port) := by
  have hgood : ¬(host = [] ∨ (!host.all isHostChar) = true) := by
    rw [hhost.chars]
    rintro (h | h)
    · exact hhost.nonempty h
    · cases h
  constructor
  · rw [checkHostPort, if_neg hgood]
    rfl
  · intro digits port hport
    rw [checkHostPort, if_neg hgood]
    simp only [parsePort_iff.mpr (.inl hport)]
    rfl

theorem splitHostPort_written {host written tail : Text} (hhost : ValidHost host)
    (hpart : HostPart host written)
    (hport : PortPart (some known) tail port) :
    splitHostPort (written ++ tail) known = .ok (toAsciiLowercase host, port) := by
  obtain ⟨habsent, hgiven⟩ := checkHostPort_valid hhost known
  cases hpart with
  | name hcolon =>
    have hopen : (host ++ tail).head? ≠ some '[' := by
      rw [List.head?_append_of_ne_nil _ hhost.nonempty]
      exact fun hhead => hhost.not_mem (by decide) (List.mem_of_head? hhead)
    rw [splitHostPort_unbracketed hopen]
    cases hport with
    | absent heq =>
      cases heq
      rw [List.append_nil, rsplitOnce_eq_none_iff.mpr hcolon]
      exact habsent
    | given hdigits =>
      rw [rsplitOnce_eq_some_iff.mpr ⟨rfl, hdigits.not_mem (by decide)⟩]
      exact hgiven hdigits
  | bracketed =>
    have hclose : ']' ∉ host := hhost.not_mem (by decide)
    have heq : '[' :: (host ++ [']']) ++ tail = '[' :: (host ++ ']' :: tail) := by simp
    rw [heq, splitHostPort_bracketed hclose]
    cases hport with
    | absent heq =>
      cases heq
      exact habsent
    | given hdigits =>
      rw [if_neg (List.cons_ne_nil _ _), stripPrefix_eq_some_iff.mpr rfl]
      exact hgiven hdigits

/-- What must be escaped wherever it stands. -/
def isReserved (c : Char) : Bool := ['%', '/', '?', '#'].contains c

/-- A login as it is written: its parts with some characters escaped, those that take an address
apart always. -/
inductive LoginPart : Text → Option Text → Text → Prop
  | user (huser : EscapedAs (fun c => isReserved c || c = ':') username u) :
      LoginPart username none u
  | both (huser : EscapedAs (fun c => isReserved c || c = ':') username u)
      (hpass : EscapedAs isReserved password p) : LoginPart username (some password) (u ++ ':' :: p)

theorem LoginPart.parse (h : LoginPart username password login) :
    parseLogin login = .ok (some username, password) := by
  unfold parseLogin
  cases h with
  | user huser =>
    have hcolon := huser.not_mem (c := ':') (by decide) (by decide) (by decide)
    simp only [splitOnce_eq_none hcolon, percentDecode_escapedAs (by decide) huser]
    rfl
  | both huser hpass =>
    have hcolon := huser.not_mem (c := ':') (by decide) (by decide) (by decide)
    simp only [splitOnce_append hcolon, percentDecode_escapedAs (by decide) huser,
      percentDecode_escapedAs (by decide) hpass]
    rfl

theorem LoginPart.not_mem {c : Char} (h : LoginPart username password login)
    (hc : isReserved c = true)
    (hpercent : c ≠ '%') (hdigit : digitValue 16 c = none) (hcolon : c ≠ ':') : c ∉ login := by
  have huserChar : (isReserved c || decide (c = ':')) = true := by
    rw [hc]
    rfl
  cases h with
  | user huser => exact huser.not_mem huserChar hpercent hdigit
  | both huser hpass =>
    intro hmem
    rcases List.mem_append.mp hmem with hmem | hmem
    · exact huser.not_mem huserChar hpercent hdigit hmem
    · exact List.not_mem_cons_of_ne_of_not_mem hcolon (hpass.not_mem hc hpercent hdigit) hmem

/-- Logins that a proxy of the scheme can be given. -/
structure ValidLogin (scheme : ProxyScheme) (username : Text) (password : Option Text) : Prop where
  nonempty : username ≠ []
  userChars : ∀ c ∈ username, isControl c = false
  passChars : ∀ p, password = some p → ∀ c ∈ p, isControl c = false
  colon : scheme ≠ .socks5 → ':' ∉ username
  length : scheme = .socks5 → (asBytes username).length ≤ 255 ∧
    ∀ p, password = some p → (asBytes p).length ≤ 255

theorem ValidLogin.check (h : ValidLogin scheme username password) :
    validateLogin scheme (some username) password = .ok () := by
  have huser : ¬username.any isControl = true := by
    rw [List.any_eq_true]
    rintro ⟨c, hc, hcontrol⟩
    rw [h.userChars c hc] at hcontrol
    cases hcontrol
  have hpass : ¬(password.any (·.any isControl)) = true := by
    cases password with
    | none => exact Bool.false_ne_true
    | some p =>
      rw [Option.any_some, List.any_eq_true]
      rintro ⟨c, hc, hcontrol⟩
      rw [h.passChars p rfl c hc] at hcontrol
      cases hcontrol
  have hchars : ¬(username.any isControl = true ∨ (password.any (·.any isControl)) = true) := by
    rintro (h | h)
    · exact huser h
    · exact hpass h
  simp only [validateLogin, if_neg h.nonempty, if_neg hchars]
  cases scheme with
  | http => rw [if_neg (h.colon (by decide))]; rfl
  | https => rw [if_neg (h.colon (by decide))]; rfl
  | socks5 =>
    obtain ⟨hu, hp⟩ := h.length rfl
    dsimp only
    rw [if_neg]
    · rfl
    · rintro (hlong | hlong)
      · omega
      · cases password with
        | none => cases hlong
        | some p =>
          have hshort := hp p rfl
          rw [Option.any_some, decide_eq_true_eq] at hlong
          omega

theorem isHostChar_alphanum {c : Char} (h : isHostChar c = true) :
    c.isAlphanum = true ∨ c = '.' ∨ c = '-' ∨ c = ':' ∨ c = '_' := by
  rw [isHostChar, Bool.or_eq_true, List.contains_iff_mem] at h
  simpa using h

theorem isEndChar_of_bounds {c : Char} (hlow : 32 < c.toNat) (hhigh : c.toNat < 128)
    (hslash : c ≠ '/') : isEndChar c = true := by
  have hblank : isWhitespace c = false := by
    rw [← Bool.not_eq_true]
    intro hblank
    simp [isWhitespace] at hblank
    omega
  rw [isEndChar, hblank]
  simp [hslash]

theorem isEndChar_of_isHostChar {c : Char} (h : isHostChar c = true) : isEndChar c = true := by
  rcases isHostChar_alphanum h with h | rfl | rfl | rfl | rfl
  · obtain ⟨hlow, hhigh⟩ := alphanum_bounds h
    refine isEndChar_of_bounds (by omega) (by omega) ?_
    rintro rfl
    exact absurd hlow (by decide)
  all_goals decide

theorem isHostChar_toLower {c : Char} (h : isHostChar c = true) : isHostChar c.toLower = true := by
  by_cases hupper : c.isUpper = true
  · have hlower := isLower_toLower hupper
    rw [isHostChar, Char.isAlphanum, Char.isAlpha, hlower]
    simp
  · rw [Char.toLower_eq_of_not_isUpper hupper]
    exact h

/-- What a host and port are written with. -/
theorem hostport_chars (hhost : ValidHost host) (hpart : HostPart host written)
    (hport : PortPart known tail port) :
    ∀ c ∈ written ++ tail, isHostChar c = true ∨ c = '[' ∨ c = ']' := by
  have hchars := List.all_eq_true.mp hhost.chars
  have htail : ∀ c ∈ tail, isHostChar c = true := by
    cases hport with
    | absent => exact nofun
    | given hdigits =>
      refine List.forall_mem_cons.mpr ⟨by decide, fun c hc => ?_⟩
      rw [isHostChar, Char.isAlphanum, hdigits.isDigit c hc]
      simp
  intro c hc
  rcases List.mem_append.mp hc with hc | hc
  · cases hpart with
    | name => exact .inl (hchars c hc)
    | bracketed =>
      rw [List.mem_cons, List.mem_append, List.mem_singleton] at hc
      rcases hc with h | h | h
      · exact .inr (.inl h)
      · exact .inl (hchars c h)
      · exact .inr (.inr h)
  · exact .inl (htail c hc)

theorem hostport_not_mem {c : Char} (hhost : ValidHost host) (hpart : HostPart host written)
    (hport : PortPart known tail port) (hc : (isHostChar c || c = '[' || c = ']') = false) :
    c ∉ written ++ tail := by
  intro hmem
  simp only [Bool.or_eq_false_iff, decide_eq_false_iff_not] at hc
  rcases hostport_chars hhost hpart hport c hmem with h | h | h
  · rw [hc.1.1] at h
    cases h
  · exact hc.1.2 h
  · exact hc.2 h

theorem hostport_last (hhost : ValidHost host) (hpart : HostPart host written)
    (hport : PortPart known tail port) (login : Text) :
    ∃ d, (login ++ (written ++ tail)).getLast? = some d ∧ isEndChar d = true := by
  have hne : written ++ tail ≠ [] := by
    intro hempty
    have hwritten := (List.append_eq_nil_iff.mp hempty).1
    cases hpart with
    | name => exact hhost.nonempty hwritten
    | bracketed => cases hwritten
  refine ⟨(written ++ tail).getLast hne, ?_, ?_⟩
  · rw [List.getLast?_append, List.getLast?_eq_some_getLast hne]
    rfl
  · rcases hostport_chars hhost hpart hport _ (List.getLast_mem hne) with h | h | h
    · exact isEndChar_of_isHostChar h
    · rw [h]
      decide
    · rw [h]
      decide

/-- The address of a proxy as it is written, with `login` and its `@` before the host. -/
inductive WrittenAddress (scheme : ProxyScheme) (login host : Text) (port : Nat) : Text → Prop
  | mk (hscheme : SchemePart scheme front) (hpart : HostPart host written)
      (hport : PortPart (some scheme.defaultPort) tail port) (hslash : slash = [] ∨ slash = ['/'])
      (hbefore : ∀ c ∈ before, isWhitespace c = true)
          (hafter : ∀ c ∈ after, isWhitespace c = true) :
      WrittenAddress scheme login host port
        (before ++ (front ++ (login ++ (written ++ tail) ++ slash) ++ after))

theorem parseRest_hostport (hhost : ValidHost host) (hpart : HostPart host written)
    (hport : PortPart (some scheme.defaultPort) tail port) :
    parseRest scheme (written ++ tail) =
      .ok ⟨scheme, toAsciiLowercase host, port, none, none⟩ := by
  have hpath : ¬((written ++ tail).any fun c => ['/', '?', '#'].contains c) = true := by
    rw [List.any_eq_true]
    rintro ⟨c, hmem, hc⟩
    refine hostport_not_mem hhost hpart hport ?_ hmem
    rw [List.contains_iff_mem] at hc
    simp only [List.mem_cons, List.not_mem_nil, or_false] at hc
    rcases hc with rfl | rfl | rfl
    all_goals decide
  rw [parseRest, if_neg hpath,
    rsplitOnce_eq_none_iff.mpr (hostport_not_mem hhost hpart hport (by decide))]
  simp only [splitHostPort_written hhost hpart hport, bind, Except.bind]
  rfl

theorem parseRest_login (hhost : ValidHost host) (hvalid : ValidLogin scheme username password)
    (hlogin : LoginPart username password login) (hpart : HostPart host written)
    (hport : PortPart (some scheme.defaultPort) tail port) :
    parseRest scheme (login ++ '@' :: (written ++ tail)) =
      .ok ⟨scheme, toAsciiLowercase host, port, some username, password⟩ := by
  have hpath : ¬((login ++ '@' :: (written ++ tail)).any fun c =>
    ['/', '?', '#'].contains c) = true := by
    rw [List.any_eq_true]
    rintro ⟨c, hmem, hc⟩
    rw [List.contains_iff_mem] at hc
    simp only [List.mem_cons, List.not_mem_nil, or_false] at hc
    rw [List.mem_append, List.mem_cons] at hmem
    rcases hc with rfl | rfl | rfl
    all_goals
      rcases hmem with hmem | hmem | hmem
      · exact hlogin.not_mem (by decide) (by decide) (by decide) (by decide) hmem
      · cases hmem
      · exact hostport_not_mem hhost hpart hport (by decide) hmem
  have hat := hostport_not_mem (c := '@') hhost hpart hport (by decide)
  rw [parseRest, if_neg hpath, rsplitOnce_eq_some_iff.mpr ⟨rfl, hat⟩]
  simp only [splitHostPort_written hhost hpart hport, hlogin.parse, hvalid.check, bind, Except.bind]
  rfl

theorem parse_writtenAddress (hhost : ValidHost host)
    (h : WrittenAddress scheme login host port raw) :
    ∃ written tail, HostPart host written ∧ PortPart (some scheme.defaultPort) tail port ∧
      ProxyUpstream.parse raw = parseRest scheme (login ++ (written ++ tail)) := by
  cases h with
  | mk hscheme hpart hport hslash hbefore hafter =>
    obtain ⟨d, hlast, hd⟩ := hostport_last hhost hpart hport login
    exact ⟨_, _, hpart, hport, parse_written hscheme hlast hd hslash hbefore hafter⟩

/-- What an upstream that is parsed is like. -/
structure ProxyUpstream.Parsed (upstream : ProxyUpstream) : Prop where
  host : ValidHost upstream.host
  lowercase : toAsciiLowercase upstream.host = upstream.host
  pos : 0 < upstream.port
  lt : upstream.port < 2 ^ 16

theorem ValidHost.lowercase (h : ValidHost host) : ValidHost (toAsciiLowercase host) := by
  refine ⟨fun hnil => h.nonempty (List.map_eq_nil_iff.mp hnil), List.all_eq_true.mpr ?_⟩
  intro c hc
  obtain ⟨d, hd, rfl⟩ := List.mem_map.mp hc
  exact isHostChar_toLower (List.all_eq_true.mp h.chars d hd)

theorem checkHostPort_ok {p : Option Text} (h : checkHostPort name p known = .ok (host, port))
    (hpos : 0 < known) (hlt : known < 2 ^ 16) :
    ValidHost host ∧ toAsciiLowercase host = host ∧ 0 < port ∧ port < 2 ^ 16 := by
  have hlower : toAsciiLowercase (toAsciiLowercase name) = toAsciiLowercase name := by
    simp [toAsciiLowercase]
  unfold checkHostPort at h
  split at h
  · cases h
  · rename_i hgood
    rw [not_or, Bool.not_eq_true', Bool.not_eq_false] at hgood
    have hname : ValidHost name := ⟨hgood.1, hgood.2⟩
    split at h
    · cases h
      exact ⟨hname.lowercase, hlower, hpos, hlt⟩
    · split at h
      · rename_i hvalue
        cases h
        refine ⟨hname.lowercase, hlower, ?_⟩
        rcases parsePort_iff.mp hvalue with hport | ⟨_, _, hport⟩
        · exact ⟨hport.pos, hport.lt⟩
        · exact ⟨hport.pos, hport.lt⟩
      · cases h

theorem splitHostPort_checked {s : Text} {known : Nat} (h : splitHostPort s known = .ok parts) :
    ∃ name p, checkHostPort name p known = .ok parts := by
  by_cases hopen : s.head? = some '['
  · obtain ⟨inner, rfl⟩ := List.head?_eq_some_iff.mp hopen
    by_cases hclose : ']' ∈ inner
    · obtain ⟨host, after, rfl, hhost⟩ := List.eq_append_cons_of_mem hclose
      rw [splitHostPort_bracketed hhost] at h
      split at h
      · exact ⟨_, _, h⟩
      · split at h
        · exact ⟨_, _, h⟩
        · cases h
    · unfold splitHostPort at h
      rw [stripPrefix_eq_some_iff.mpr rfl] at h
      simp only [splitOnce_eq_none hclose] at h
      cases h
  · rw [splitHostPort_unbracketed hopen] at h
    split at h
    · exact ⟨_, _, h⟩
    · exact ⟨_, _, h⟩

theorem defaultPort_bounds (scheme : ProxyScheme) :
    0 < scheme.defaultPort ∧ scheme.defaultPort < 2 ^ 16 := by
  cases scheme with
  | http => decide
  | https => decide
  | socks5 => decide

/-- The parts of what is parsed after the scheme. -/
theorem parseRest_ok (h : parseRest scheme rest = .ok upstream) :
    upstream.scheme = scheme ∧ upstream.Parsed ∧
      validateLogin scheme upstream.username upstream.password = .ok () ∧
      ∀ login hostport, rsplitOnce '@' rest = some (login, hostport) →
        parseLogin login = .ok (upstream.username, upstream.password) := by
  unfold parseRest at h
  split at h
  · cases h
  · have hbounds := defaultPort_bounds scheme
    have hparts : ∀ hostport host port, splitHostPort hostport scheme.defaultPort =
        .ok (host, port) →
        ValidHost host ∧ toAsciiLowercase host = host ∧ 0 < port ∧ port < 2 ^ 16 := by
      intro hostport host port hsplit
      obtain ⟨name, p, hcheck⟩ := splitHostPort_checked hsplit
      exact checkHostPort_ok hcheck hbounds.1 hbounds.2
    cases hlast : rsplitOnce '@' rest with
    | none =>
      rw [hlast] at h
      obtain ⟨⟨host, port⟩, hsplit, h⟩ := except_bind_ok h
      obtain ⟨_, hnone, h⟩ := except_bind_ok h
      obtain ⟨_, hvalid, h⟩ := except_bind_ok h
      cases h
      obtain ⟨hhost, hlower, hpos, hlt⟩ := hparts _ _ _ hsplit
      exact ⟨rfl, ⟨hhost, hlower, hpos, hlt⟩, hvalid, nofun⟩
    | some parts =>
      rw [hlast] at h
      obtain ⟨⟨host, port⟩, hsplit, h⟩ := except_bind_ok h
      obtain ⟨_, hlogin, h⟩ := except_bind_ok h
      obtain ⟨_, hvalid, h⟩ := except_bind_ok h
      cases h
      obtain ⟨hhost, hlower, hpos, hlt⟩ := hparts _ _ _ hsplit
      refine ⟨rfl, ⟨hhost, hlower, hpos, hlt⟩, hvalid, fun login hostport heq => ?_⟩
      cases heq
      exact hlogin

theorem parse_ok (h : ProxyUpstream.parse raw = .ok upstream) : upstream.Parsed := by
  rw [parse_eq] at h
  split at h
  · exact (parseRest_ok h).2.1
  · cases h

def ProxyScheme.asStr : ProxyScheme → Text
  | http => text "http"
  | https => text "https"
  | socks5 => text "socks5"

/-- `Display`: the scheme, the host and the port, never the login. -/
def ProxyUpstream.display (upstream : ProxyUpstream) : Text :=
  if ':' ∈ upstream.host then
    upstream.scheme.asStr ++ text "://[" ++ upstream.host ++ text s!"]:{upstream.port}"
  else upstream.scheme.asStr ++ text "://" ++ upstream.host ++ text s!":{upstream.port}"

theorem schemePart_asStr (scheme : ProxyScheme) :
    SchemePart scheme (scheme.asStr ++ text "://") := by
  cases scheme with
  | http => exact .http (by decide)
  | https => exact .https (by decide)
  | socks5 => exact .socks5 (by decide)

theorem ProxyUpstream.Parsed.display {upstream : ProxyUpstream} (h : upstream.Parsed) :
    WrittenAddress upstream.scheme [] upstream.host upstream.port upstream.display := by
  have hport : PortPart (some upstream.scheme.defaultPort) (':' :: text (toString upstream.port))
      upstream.port := .given (isPort_toDigits h.pos h.lt)
  have hform {written : Text} (hpart : HostPart upstream.host written) :
      WrittenAddress upstream.scheme [] upstream.host upstream.port
        (upstream.scheme.asStr ++ text "://" ++
            (written ++ ':' :: text (toString upstream.port))) := by
    have hmk : WrittenAddress upstream.scheme [] upstream.host upstream.port
        ([] ++ (upstream.scheme.asStr ++ text "://" ++
          ([] ++ (written ++ ':' :: text (toString upstream.port)) ++ []) ++ [])) :=
      .mk (schemePart_asStr upstream.scheme) hpart hport (.inl rfl) nofun nofun
    simpa only [List.nil_append, List.append_nil] using hmk
  unfold ProxyUpstream.display
  by_cases hcolon : ':' ∈ upstream.host
  · rw [if_pos hcolon]
    simpa [text, toString] using hform .bracketed
  · rw [if_neg hcolon]
    simpa [text, toString] using hform (.name hcolon)

/-- A login in an address: between the scheme and the last `@`. -/
inductive LoginOf (login : Text) : Text → Prop
  | mk (hbefore : ∀ c ∈ before, isWhitespace c = true) (hscheme : SchemePart scheme front)
      (hat : '@' ∉ hostport) : LoginOf login (before ++ (front ++ (login ++ '@' :: hostport)))

/-- An address is parsed with the login that is in it. -/
theorem LoginOf.parse {login raw : Text} (h : LoginOf login raw) :
    ∃ scheme hostport, '@' ∉ hostport ∧
      ProxyUpstream.parse raw = parseRest scheme (login ++ '@' :: hostport) := by
  cases h with
  | @mk before scheme front hostport hbefore hscheme hat =>
    obtain ⟨c, hhead, hc⟩ := hscheme.head
    have hne : front ≠ [] := by
      rintro rfl
      cases hhead
    have hcoreHead : (front ++ (login ++ ['@'])).head? = some c := by
      rw [List.head?_append_of_ne_nil _ hne]
      exact hhead
    have hcoreLast : (front ++ (login ++ ['@'])).getLast? = some '@' := by
      rw [← List.append_assoc, List.getLast?_concat]
    have htrim : trim (before ++ ((front ++ (login ++ ['@'])) ++ hostport)) =
        (front ++ (login ++ ['@'])) ++ (hostport.reverse.dropWhile isWhitespace).reverse :=
      trim_core hbefore hcoreHead hc hcoreLast (by decide)
    generalize hend : (hostport.reverse.dropWhile isWhitespace).reverse = trimmed at htrim
    have hatTrimmed : '@' ∉ trimmed := by
      rw [← hend, List.mem_reverse]
      exact fun hmem => hat (List.mem_reverse.mp ((List.dropWhile_sublist _).subset hmem))
    have hraw : before ++ (front ++ (login ++ '@' :: hostport)) =
        before ++ (front ++ (login ++ ['@']) ++ hostport) := by simp
    have hcore : front ++ (login ++ ['@']) ++ trimmed = front ++
        (login ++ '@' :: trimmed) := by simp
    rw [parse_eq, hraw, htrim, hcore, parseScheme_front hscheme]
    dsimp only
    split
    · rename_i hslash
      cases trimmed with
      | nil =>
        -- the last character is the `@`
        rw [List.getLast?_concat] at hslash
        cases hslash
      | cons c trimmed =>
        rw [List.dropLast_append_of_ne_nil (List.cons_ne_nil _ _), List.dropLast_cons_cons]
        exact ⟨scheme, (c :: trimmed).dropLast, fun hmem =>
          hatTrimmed (List.mem_of_mem_dropLast hmem), rfl⟩
    · exact ⟨scheme, trimmed, hatTrimmed, rfl⟩

theorem parseLogin_malformed {login : Text} (h : parseLogin login = .ok (username, password))
    (hbad : MalformedEscape login) (scheme : ProxyScheme) :
    ∃ e, validateLogin scheme username password = .error e := by
  have hcontrol : ∃ name, username = some name ∧
      (name.any isControl = true ∨ (password.any (·.any isControl)) = true) := by
    unfold parseLogin at h
    cases hsplit : splitOnce ':' login with
    | none =>
      simp only [hsplit] at h
      cases huser : percentDecode login with
      | none =>
        simp only [huser] at h
        cases h
      | some name =>
        simp only [huser] at h
        cases h
        exact ⟨name, rfl, .inl (percentDecode_malformed huser hbad)⟩
    | some parts =>
      obtain ⟨rfl, _⟩ := splitOnce_eq_some_iff.mp hsplit
      simp only [hsplit] at h
      cases huser : percentDecode parts.1 with
      | none =>
        simp only [huser] at h
        cases h
      | some name =>
        simp only [huser] at h
        cases hpass : percentDecode parts.2 with
        | none =>
          simp only [hpass] at h
          cases h
        | some word =>
          simp only [hpass] at h
          cases h
          refine ⟨name, rfl, ?_⟩
          rcases hbad.of_append (by decide) with hbad | hbad
          · exact .inl (percentDecode_malformed huser hbad)
          · exact .inr (percentDecode_malformed hpass hbad)
  obtain ⟨name, rfl, hcontrol⟩ := hcontrol
  unfold validateLogin
  dsimp only
  split
  · exact ⟨_, rfl⟩
  · exact ⟨_, rfl⟩

/-- An address with a malformed escape in its login is refused. -/
theorem parse_malformed {login raw : Text} (h : LoginOf login raw) (hbad : MalformedEscape login) :
    ∃ e, ProxyUpstream.parse raw = .error e := by
  obtain ⟨scheme, hostport, hat, hparse⟩ := h.parse
  rw [hparse]
  cases hrest : parseRest scheme (login ++ '@' :: hostport) with
  | error e => exact ⟨e, rfl⟩
  | ok upstream =>
    obtain ⟨_, _, hvalid, hlogin⟩ := parseRest_ok hrest
    have hparsed := hlogin login hostport (rsplitOnce_eq_some_iff.mpr ⟨rfl, hat⟩)
    obtain ⟨e, herror⟩ := parseLogin_malformed hparsed hbad scheme
    rw [hvalid] at herror
    cases herror

/-- However its login is escaped, an address is parsed into what it was written for; what is shown
of an upstream is parsed into it without its login; and a malformed escape is refused. -/
theorem proxy_address_round_trips :
    (∀ scheme host port username password login raw, ValidHost host →
      ValidLogin scheme username password → LoginPart username password login →
      WrittenAddress scheme (login ++ ['@']) host port raw →
      ProxyUpstream.parse raw =
        .ok ⟨scheme, toAsciiLowercase host, port, some username, password⟩) ∧
    (∀ raw upstream, ProxyUpstream.parse raw = .ok upstream →
      ProxyUpstream.parse upstream.display =
        .ok ⟨upstream.scheme, upstream.host, upstream.port, none, none⟩) ∧
    ∀ login raw, LoginOf login raw → MalformedEscape login →
      ∃ e, ProxyUpstream.parse raw = .error e := by
  refine ⟨?_, ?_, fun login raw => parse_malformed⟩
  · intro scheme host port username password login raw hhost hvalid hlogin hraw
    obtain ⟨written, tail, hpart, hport, hparse⟩ := parse_writtenAddress hhost hraw
    rw [hparse, List.append_assoc, List.singleton_append]
    exact parseRest_login hhost hvalid hlogin hpart hport
  · intro raw upstream hparse
    have hparsed := parse_ok hparse
    obtain ⟨written, tail, hpart, hport, hdisplay⟩ :=
      parse_writtenAddress hparsed.host hparsed.display
    have hrest := parseRest_hostport hparsed.host hpart hport
    rw [hparsed.lowercase] at hrest
    rw [hdisplay, List.nil_append]
    exact hrest

theorem proxy_address_round_trips_escaped :
    ProxyUpstream.parse (text "HTTP://a%40@Proxy:81/") =
        .ok ⟨.http, text "proxy", 81, some (text "a@"), none⟩ ∧
      ∃ e, ProxyUpstream.parse (text "socks5://a%+4@h") = .error e := by
  have hdigits : (text "81").all Char.isDigit = true := by decide
  have hport : IsPort (text "81") 81 :=
    ⟨by decide, List.all_eq_true.mp hdigits, by decide, by decide, by decide⟩
  have hat : EscapedBytes (String.utf8EncodeChar '@') ['%', '4', '0'] := by
    have hcode : String.utf8EncodeChar '@' = [64] := by decide
    rw [hcode]
    exact .cons (by decide) .nil
  have hlogin : LoginPart (text "a@") none (text "a%40") :=
    .user (.plain (by decide) (.escaped hat .nil))
  have hvalid : ValidLogin .http (text "a@") none := by
    have hchars : (text "a@").all (fun c => !isControl c) = true := by decide
    refine ⟨by decide, fun c hc => ?_, nofun, fun _ => by decide, nofun⟩
    exact Bool.not_eq_true' _ ▸ List.all_eq_true.mp hchars c hc
  have hraw : WrittenAddress .http (text "a%40" ++ ['@']) (text "Proxy") 81
      ([] ++ (text "HTTP://" ++ (text "a%40" ++ ['@'] ++ (text "Proxy" ++ ':' :: text "81") ++
        ['/']) ++ [])) :=
    .mk (.http (by decide)) (.name (by decide)) (.given hport) (.inr rfl) nofun nofun
  have hbad : LoginOf (text "a%+4")
      ([] ++ (text "socks5://" ++ (text "a%+4" ++ '@' :: text "h"))) :=
    .mk nofun (.socks5 (by decide)) (by decide)
  refine ⟨?_, ?_⟩
  · exact proxy_address_round_trips.1 .http (text "Proxy") 81 (text "a@") none (text "a%40") _
      ⟨by decide, by decide⟩ hvalid hlogin hraw
  · refine proxy_address_round_trips.2.2 (text "a%+4") _ hbad ⟨text "a", text "+4", rfl, ?_⟩
    rintro ⟨a, b, rest, heq, hpair⟩
    cases heq
    exact absurd hpair.1 (by decide)

end BrowserServe
