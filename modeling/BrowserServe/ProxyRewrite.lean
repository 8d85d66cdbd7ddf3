import BrowserServe.Library.HttpHead
import BrowserServe.ProxyParse
import BrowserServe.ProxyResponse

namespace BrowserServe
open Library
set_option autoImplicit true

/-- What `httparse` yields: a token for the method and for each name, a target without spaces and
control characters, and values without CR, LF and NUL. -/
structure RawRequest.Clean (raw : RawRequest) : Prop where
  method : ∀ method, raw.method = some method → IsToken method
  path : ∀ path, raw.path = some path → ∀ c ∈ path, c ≠ ' ' ∧ isControl c = false
  names : ∀ header ∈ raw.headers, IsToken header.1
  values : ∀ header ∈ raw.headers, 13 ∉ header.2 ∧ 10 ∉ header.2 ∧ 0 ∉ header.2

def Httparse.Clean (httparse : Httparse) : Prop :=
  ∀ max head raw, httparse.request max head = some raw → raw.Clean

/-- One head in plain form: its lines end with CRLF, and nothing follows the blank one. -/
def readPlain (bytes : List UInt8) : Option PlainHead := PlainHead.ofLines (linesOf bytes)

/-- The head that a forwarded request goes out with. -/
def Relay.requestHead (upstream : ProxyUpstream) (method absolute originForm : Text)
    (headers : List (Text × List UInt8)) : List UInt8 :=
  match upstream.scheme with
  | .socks5 => rewriteRequest method originForm headers none
  | .http | .https => rewriteRequest method absolute headers upstream.basicAuth

theorem opened_requestHead {httparse : Httparse} {dialer : Dialer} {s up : ByteStream}
    (h : Relay.opened httparse dialer host port method absolute originForm headers s =
      (.ok (rest, head), up)) :
    head = Relay.requestHead dialer.upstream method absolute originForm headers := by
  unfold Relay.opened at h
  unfold Relay.requestHead
  cases hscheme : dialer.upstream.scheme with
  | socks5 =>
    rw [hscheme] at h
    obtain ⟨past, t, htunnel, h⟩ := Async.bind_ok h
    cases h
    rfl
  | http =>
    rw [hscheme] at h
    obtain ⟨_, t, hopen, h⟩ := Async.bind_ok h
    cases h
    rfl
  | https =>
    rw [hscheme] at h
    obtain ⟨_, t, hopen, h⟩ := Async.bind_ok h
    cases h
    rfl

theorem linesOf_line {line : List UInt8} (h : 13 ∉ line) (rest : List UInt8) :
    linesOf (line ++ (crlf ++ rest)) = line :: linesOf rest := by
  induction line with
  | nil => rfl
  | cons b line ih =>
    rw [List.mem_cons, not_or] at h
    rw [List.cons_append, linesOf, ih h.2]
    intro _ heq _
    exact h.1 heq.symm

/-- Lines without CR are what a head made of them is split into. -/
theorem linesOf_lines {lines : List (List UInt8)} (h : ∀ line ∈ lines, 13 ∉ line) :
    linesOf (lines.flatMap (· ++ crlf) ++ crlf) = lines ++ [[], []] := by
  induction lines with
  | nil => rfl
  | cons line lines ih =>
    rw [List.forall_mem_cons] at h
    rw [List.flatMap_cons, List.append_assoc, List.append_assoc, linesOf_line h.1, ih h.2]
    rfl

/-- The value of a header names another one: between commas, in any case, with white space around
it. -/
def Names (value : List UInt8) (name : Text) : Prop :=
  ∃ element ∈ (fromUtf8Lossy value).splitOn ',', ∃ before token after,
    element = before ++ token ++ after ∧ (∀ c ∈ before ++ after, isWhitespace c = true) ∧
      eqIgnoreAsciiCase name token = true

/-- The headers of one hop: the known ones, and those that a `Connection` header names. -/
def HopByHop (headers : List (Text × List UInt8)) (name : Text) : Prop :=
  (∃ hop ∈ ["connection", "keep-alive", "proxy-authorization", "proxy-authenticate",
      "proxy-connection", "te", "trailer", "upgrade"].map text,
    eqIgnoreAsciiCase name hop = true) ∨
    ∃ header ∈ headers, eqIgnoreAsciiCase header.1 (text "connection") = true ∧
      Names header.2 name

theorem names_iff {value : List UInt8} {name : Text} (h : IsToken name) : Names value name ↔
    ∃ element ∈ (fromUtf8Lossy value).splitOn ',',
      eqIgnoreAsciiCase name (trim element) = true := by
  constructor
  · rintro ⟨element, hmem, before, token, after, rfl, hblank, heq⟩
    have hne : token ≠ [] := by
      rintro rfl
      rw [eqIgnoreAsciiCase_iff] at heq
      exact h.1 (List.map_eq_nil_iff.mp heq)
    refine ⟨_, hmem, ?_⟩
    rw [trim_blank hblank (h.not_isWhitespace heq) hne]
    exact heq
  · rintro ⟨element, hmem, heq⟩
    obtain ⟨before, after, hsplit, hblank⟩ := trim_split element
    exact ⟨element, hmem, before, trim element, after, hsplit, hblank, heq⟩

/-- The code's list has the headers of one hop. -/
theorem hopByHop_iff {headers : List (Text × List UInt8)} {name : Text} (h : IsToken name) :
    (hopByHop headers).any (eqIgnoreAsciiCase name) = true ↔ HopByHop headers name := by
  rw [hopByHop, List.any_append, Bool.or_eq_true, HopByHop]
  apply or_congr
  · rw [List.any_eq_true]
  · rw [List.any_eq_true]
    constructor
    · rintro ⟨token, hmem, heq⟩
      obtain ⟨header, hheader, hmem⟩ := List.mem_flatMap.mp hmem
      dsimp only at hmem
      split at hmem
      · rename_i hconnection
        obtain ⟨helement, _⟩ := List.mem_filter.mp hmem
        obtain ⟨element, hsplit, rfl⟩ := List.mem_map.mp helement
        rw [eqIgnoreAsciiCase_lowercase] at heq
        exact ⟨header, hheader, hconnection, (names_iff h).mpr ⟨element, hsplit, heq⟩⟩
      · cases hmem
    · rintro ⟨header, hheader, hconnection, hnames⟩
      obtain ⟨element, hsplit, heq⟩ := (names_iff h).mp hnames
      refine ⟨toAsciiLowercase (trim element), ?_, eqIgnoreAsciiCase_lowercase.mpr heq⟩
      refine List.mem_flatMap.mpr ⟨header, hheader, ?_⟩
      dsimp only
      rw [if_pos hconnection, List.mem_filter]
      refine ⟨List.mem_map.mpr ⟨element, hsplit, rfl⟩, ?_⟩
      apply decide_eq_true
      intro hempty
      rw [eqIgnoreAsciiCase_iff, hempty] at heq
      exact h.1 (List.map_eq_nil_iff.mp heq)

/-- The fields that a rewritten request adds. -/
def addedFields (proxyAuth : Option Text) : List (List UInt8 × List UInt8) :=
  (proxyAuth.elim [] fun auth => [(asBytes (text "Proxy-Authorization"), asBytes auth)]) ++
    [(asBytes (text "Connection"), asBytes (text "close"))]

def keptFields (headers : List (Text × List UInt8)) : List (List UInt8 × List UInt8) :=
  (headers.filter fun header => !(hopByHop headers).any (eqIgnoreAsciiCase header.1)).map
    fun header => (asBytes header.1, header.2)

def rewrittenHead (method target : Text) (headers : List (Text × List UInt8))
    (proxyAuth : Option Text) : PlainHead where
  method := asBytes method
  target := asBytes target
  version := asBytes (text "HTTP/1.1")
  fields := keptFields headers ++ addedFields proxyAuth

theorem asBytes_append (s t : Text) : asBytes (s ++ t) = asBytes s ++ asBytes t :=
  List.flatMap_append

theorem keptFields_lines (headers : List (Text × List UInt8)) :
    ((keptFields headers).map fieldLine).flatMap (· ++ crlf) =
      (headers.filter fun header => !(hopByHop headers).any (eqIgnoreAsciiCase header.1)).flatMap
        fun header => asBytes header.1 ++ asBytes (text ": ") ++ header.2 ++ crlf := by
  have hcolon : asBytes (text ": ") = [58, 32] := by decide
  rw [keptFields, List.map_map, List.flatMap_map, hcolon]
  congr 1
  funext header
  simp [fieldLine]

theorem addedFields_lines (proxyAuth : Option Text) :
    ((addedFields proxyAuth).map fieldLine).flatMap (· ++ crlf) =
      (proxyAuth.elim [] fun auth => asBytes (text "Proxy-Authorization: " ++ auth) ++ crlf) ++
        (asBytes (text "Connection: close") ++ crlf) := by
  have hclose : fieldLine (asBytes (text "Connection"), asBytes (text "close")) =
      asBytes (text "Connection: close") := by decide +kernel
  have hauth : ∀ auth, fieldLine (asBytes (text "Proxy-Authorization"), asBytes auth) =
      asBytes (text "Proxy-Authorization: " ++ auth) := by
    intro auth
    have hname : asBytes (text "Proxy-Authorization: ") =
        asBytes (text "Proxy-Authorization") ++ [58, 32] := by decide +kernel
    rw [asBytes_append, hname, List.append_assoc]
    rfl
  cases proxyAuth with
  | none =>
    simp only [addedFields, Option.elim_none, List.nil_append, List.map_cons, List.map_nil, hclose,
      List.flatMap_cons, List.flatMap_nil, List.append_nil]
  | some auth =>
    simp only [addedFields, Option.elim_some, List.cons_append, List.nil_append, List.map_cons,
      List.map_nil, hclose, hauth, List.flatMap_cons, List.flatMap_nil, List.append_nil]

/-- The bytes of a rewritten request are the lines of one head. -/
theorem rewriteRequest_lines (method target : Text) (headers : List (Text × List UInt8))
    (proxyAuth : Option Text) : rewriteRequest method target headers proxyAuth =
      (rewrittenHead method target headers proxyAuth).lines.flatMap (· ++ crlf) ++ crlf := by
  have hfirst : asBytes (method ++ [' '] ++ target ++ text " HTTP/1.1") =
      asBytes method ++ 32 :: (asBytes target ++ 32 :: asBytes (text "HTTP/1.1")) := by
    have hspace : asBytes [' '] = [32] := by decide
    have hversion : asBytes (text " HTTP/1.1") =
        32 :: asBytes (text "HTTP/1.1") := by decide +kernel
    rw [asBytes_append, asBytes_append, asBytes_append, hspace, hversion]
    simp
  unfold rewriteRequest
  rw [PlainHead.lines, List.flatMap_cons, rewrittenHead]
  dsimp only
  rw [List.map_append, List.flatMap_append, keptFields_lines, addedFields_lines, hfirst]
  cases proxyAuth with
  | none => simp only [Option.elim_none, List.append_assoc]
  | some auth => simp only [Option.elim_some, List.append_assoc]

/-- No part of a clean request ends a line or a part of one. -/
theorem rewrittenHead_valid {method target : Text} {headers : List (Text × List UInt8)}
    (hmethod : IsToken method) (htarget : ' ' ∉ target)
    (hnames : ∀ header ∈ headers, IsToken header.1)
    (proxyAuth : Option Text) : (rewrittenHead method target headers proxyAuth).Valid where
  method := hmethod.byte (by decide)
  target := not_mem_asBytes (c := ' ') (by decide) htarget
  version := show 32 ∉ asBytes (text "HTTP/1.1") by decide +kernel
  fields := by
    intro field hfield
    have hlogin : 58 ∉ asBytes (text "Proxy-Authorization") := by decide +kernel
    have hclose : 58 ∉ asBytes (text "Connection") := by decide +kernel
    rcases List.mem_append.mp hfield with hkept | hadded
    · obtain ⟨header, hheader, rfl⟩ := List.mem_map.mp hkept
      exact (hnames header (List.mem_of_mem_filter hheader)).byte (by decide)
    · cases proxyAuth with
      | none =>
        rw [List.mem_singleton.mp hadded]
        exact hclose
      | some auth =>
        rcases List.mem_cons.mp hadded with rfl | hadded
        · exact hlogin
        · rw [List.mem_singleton.mp hadded]
          exact hclose

/-- A clean request has no CR in its lines. -/
theorem rewrittenHead_lines {method target : Text} {headers : List (Text × List UInt8)}
    {proxyAuth : Option Text} (hmethod : IsToken method) (htarget : '\r' ∉ target)
    (hnames : ∀ header ∈ headers, IsToken header.1) (hvalues : ∀ header ∈ headers, 13 ∉ header.2)
    (hauth : ∀ auth, proxyAuth = some auth → '\r' ∉ auth) :
    ∀ line ∈ (rewrittenHead method target headers proxyAuth).lines, 13 ∉ line := by
  have hreturn : ∀ {t : Text}, '\r' ∉ t → 13 ∉ asBytes t := not_mem_asBytes (c := '\r') (by decide)
  have hfield : ∀ {name value : List UInt8}, 13 ∉ name → 13 ∉ value →
      13 ∉ fieldLine (name, value) := by
    intro name value hname hvalue
    simp [fieldLine, hname, hvalue]
  intro line hline
  rcases List.mem_cons.mp hline with rfl | hline
  · have hversion : 13 ∉ asBytes (text "HTTP/1.1") := by decide +kernel
    have hparts := And.intro (hmethod.byte (b := 13) (by decide)) (hreturn htarget)
    simp [rewrittenHead, hparts, hversion]
  · obtain ⟨field, hmem, rfl⟩ := List.mem_map.mp hline
    have hclose : 13 ∉ fieldLine (asBytes (text "Connection"), asBytes (text "close")) := by
      decide +kernel
    rcases List.mem_append.mp hmem with hkept | hadded
    · obtain ⟨header, hheader, rfl⟩ := List.mem_map.mp hkept
      have hin := List.mem_of_mem_filter hheader
      exact hfield ((hnames header hin).byte (by decide)) (hvalues header hin)
    · cases proxyAuth with
      | none =>
        rw [List.mem_singleton.mp hadded]
        exact hclose
      | some auth =>
        rcases List.mem_cons.mp hadded with rfl | hadded
        · exact hfield (by decide +kernel) (hreturn (hauth auth rfl))
        · rw [List.mem_singleton.mp hadded]
          exact hclose

/-- A clean request reads back as what it was rewritten from. -/
theorem readPlain_rewriteRequest {method target : Text} {headers : List (Text × List UInt8)}
    {proxyAuth : Option Text} (hmethod : IsToken method)
    (htarget : ∀ c ∈ target, c ≠ ' ' ∧ isControl c = false)
    (hnames : ∀ header ∈ headers, IsToken header.1) (hvalues : ∀ header ∈ headers, 13 ∉ header.2)
    (hauth : ∀ auth, proxyAuth = some auth → '\r' ∉ auth) :
    readPlain (rewriteRequest method target headers proxyAuth) =
      some (rewrittenHead method target headers proxyAuth) := by
  have hspace : ' ' ∉ target := fun h => (htarget ' ' h).1 rfl
  have hreturn : '\r' ∉ target := by
    intro h
    have hcontrol := (htarget '\r' h).2
    revert hcontrol
    decide
  rw [readPlain, rewriteRequest_lines,
    linesOf_lines (rewrittenHead_lines hmethod hreturn hnames hvalues hauth),
    PlainHead.ofLines_lines (rewrittenHead_valid hmethod hspace hnames proxyAuth)]

theorem basicAuth_clean {upstream : ProxyUpstream} {auth : Text}
    (h : upstream.basicAuth = some auth) :
    '\r' ∉ auth := by
  obtain ⟨user, _, hauth⟩ := Option.bind_eq_some_iff.mp h
  cases hauth
  intro hmem
  rcases List.mem_append.mp hmem with hname | hencoded
  · revert hname
    decide
  · have hbound := mem_base64 hencoded
    revert hbound
    decide

theorem okOr_ok {e : ε} {o : Option α} {a : α} (h : okOr e o = .ok a) : o = some a := by
  cases o with
  | none => cases h
  | some b => cases h; rfl

theorem splitAtByte_append {n : Nat} {t before after : Text}
    (h : splitAtByte n t = some (before, after)) : t = before ++ after := by
  induction t generalizing n before with
  | nil =>
    cases n with
    | zero => cases h; rfl
    | succ n => cases h
  | cons c t ih =>
    cases n with
    | zero => cases h; rfl
    | succ n =>
      rw [splitAtByte] at h
      split at h
      · obtain ⟨⟨front, back⟩, hsplit, hpair⟩ := Option.map_eq_some_iff.mp h
        cases hpair
        rw [List.cons_append, ← ih hsplit]
      · cases h

/-- A path that begins after an authority has its characters, and a slash where it has none. -/
theorem mem_path {p : Char → Bool} {rest : Text} {c : Char}
    (h : c ∈ (match rest.span p with
      | (_, []) => (rest, ['/'])
      | (authority, path) => (authority, path)).2) : c ∈ rest ∨ c = '/' := by
  rw [List.span_eq_takeWhile_dropWhile] at h
  split at h
  · exact .inr (List.mem_singleton.mp h)
  · rename_i heq
    rw [← (Prod.mk.inj heq).2] at h
    exact .inl ((List.dropWhile_sublist p).subset h)

theorem mem_originForm {path : Text} {c : Char}
    (h : c ∈ if path.head? = some '?' then '/' :: path else path) : c = '/' ∨ c ∈ path := by
  split at h
  · exact List.mem_cons.mp h
  · exact .inr h

/-- What a forwarded request is made of. -/
theorem parseRequest_forward {httparse : Httparse} {head : List UInt8}
    (h : parseRequest httparse head = .ok (.forward host port method absolute originForm headers)) :
    ∃ raw, httparse.request MAX_HEADERS head = some raw ∧ raw.method = some method ∧
      raw.path = some absolute ∧ raw.headers = headers ∧
      ∀ c ∈ originForm, c ∈ absolute ∨ c = '/' := by
  obtain ⟨raw, hraw, h⟩ := except_bind_ok h
  obtain ⟨_, hmethod, h⟩ := except_bind_ok h
  obtain ⟨target, hpath, h⟩ := except_bind_ok h
  split at h
  · obtain ⟨_, _, h⟩ := except_bind_ok h
    cases h
  · dsimp only at h
    split at h
    · obtain ⟨⟨scheme, rest⟩, hsplit, h⟩ := except_bind_ok h
      dsimp only at h
      split at h
      · obtain ⟨_, hrest, h⟩ := except_bind_ok h
        cases hrest
        obtain ⟨_, _, h⟩ := except_bind_ok h
        cases h
        refine ⟨raw, okOr_ok hraw, okOr_ok hmethod, okOr_ok hpath, rfl, ?_⟩
        have htarget := splitAtByte_append (okOr_ok hsplit)
        have hpathChars : ∀ {c : Char}, c ∈ rest ∨ c = '/' → c ∈ absolute ∨ c = '/' := by
          intro c hc
          rw [htarget, List.mem_append]
          exact hc.imp_left .inr
        intro c hc
        rcases mem_originForm hc with hslash | hc
        · exact .inr hslash
        · exact hpathChars (mem_path hc)
      · cases h
    · cases h

open Classical in
theorem keptFields_eq {headers : List (Text × List UInt8)}
    (h : ∀ header ∈ headers, IsToken header.1) :
    keptFields headers = (headers.filter fun header => ¬HopByHop headers header.1).map
      fun header => (asBytes header.1, header.2) := by
  rw [keptFields]
  congr 1
  apply List.filter_congr
  intro header hheader
  rw [Bool.eq_iff_iff, Bool.not_eq_true', ← Bool.not_eq_true, hopByHop_iff (h header hheader),
    decide_eq_true_iff]

theorem requestHead_reads {httparse : Httparse} (hclean : httparse.Clean) {head : List UInt8}
    (hparse : parseRequest httparse head =
      .ok (.forward host port method absolute originForm headers)) (upstream : ProxyUpstream) :
    readPlain (Relay.requestHead upstream method absolute originForm headers) = some
      (rewrittenHead method (if upstream.scheme = .socks5 then originForm else absolute) headers
        (if upstream.scheme = .socks5 then none else upstream.basicAuth)) := by
  obtain ⟨raw, hraw, hmethod, hpath, rfl, hchars⟩ := parseRequest_forward hparse
  have hrequest := hclean _ _ _ hraw
  have habsolute := hrequest.path _ hpath
  have horigin : ∀ c ∈ originForm, c ≠ ' ' ∧ isControl c = false := by
    intro c hc
    rcases hchars c hc with hmem | rfl
    · exact habsolute c hmem
    · decide
  have hvalues : ∀ header ∈ raw.headers, 13 ∉ header.2 := fun header h =>
    (hrequest.values header h).1
  unfold Relay.requestHead
  cases upstream.scheme with
  | socks5 =>
    exact readPlain_rewriteRequest (hrequest.method _ hmethod) horigin hrequest.names hvalues nofun
  | http =>
    exact readPlain_rewriteRequest (hrequest.method _ hmethod) habsolute hrequest.names hvalues
      fun _ => basicAuth_clean
  | https =>
    exact readPlain_rewriteRequest (hrequest.method _ hmethod) habsolute hrequest.names hvalues
      fun _ => basicAuth_clean

open Classical in
/-- What the relay makes of a request reads back as one head: the request's method and target, its
headers but those of one hop in their order, the upstream's login where it is told, and the end of
the connection. -/
theorem rewritten_request_reads {httparse : Httparse} (hclean : httparse.Clean) {head : List UInt8}
    (hparse : parseRequest httparse head =
      .ok (.forward host port method absolute originForm headers)) (upstream : ProxyUpstream) :
    readPlain (Relay.requestHead upstream method absolute originForm headers) = some
      { method := asBytes method
        target := asBytes (if upstream.scheme = .socks5 then originForm else absolute)
        version := asBytes (text "HTTP/1.1")
        fields := ((headers.filter fun header => ¬HopByHop headers header.1).map
            fun header => (asBytes header.1, header.2)) ++
          addedFields (if upstream.scheme = .socks5 then none else upstream.basicAuth) } := by
  obtain ⟨raw, hraw, _, _, hheaders, _⟩ := parseRequest_forward hparse
  have hnames : ∀ header ∈ headers, IsToken header.1 := by
    rw [← hheaders]
    exact (hclean _ _ _ hraw).names
  rw [← keptFields_eq hnames]
  exact requestHead_reads hclean hparse upstream

def RawRequest.isClean (raw : RawRequest) : Bool :=
  (raw.method.all fun method => !method.isEmpty && method.all isTokenChar) &&
    (raw.path.all fun path => path.all fun c => c.toNat ≠ 32 && !isControl c) &&
    raw.headers.all fun header => !header.1.isEmpty && header.1.all isTokenChar &&
      header.2.all fun b => b ≠ 13 && b ≠ 10 && b ≠ 0

theorem isToken_of {t : Text} (h : (!t.isEmpty && t.all isTokenChar) = true) : IsToken t := by
  obtain ⟨hne, hall⟩ := Bool.and_eq_true_iff.mp h
  refine ⟨?_, hall⟩
  rintro rfl
  cases hne

theorem RawRequest.clean_of_isClean {raw : RawRequest} (h : raw.isClean = true) : raw.Clean := by
  rw [isClean, Bool.and_eq_true, Bool.and_eq_true, List.all_eq_true] at h
  obtain ⟨⟨hmethod, hpath⟩, hheaders⟩ := h
  have hheader : ∀ header ∈ raw.headers, IsToken header.1 ∧
      ∀ b ∈ header.2, b ≠ 13 ∧ b ≠ 10 ∧ b ≠ 0 := by
    intro header hmem
    obtain ⟨hname, hvalue⟩ := Bool.and_eq_true_iff.mp (hheaders header hmem)
    refine ⟨isToken_of hname, fun b hb => ?_⟩
    have hbyte := List.all_eq_true.mp hvalue b hb
    simp only [Bool.and_eq_true, decide_eq_true_iff] at hbyte
    exact ⟨hbyte.1.1, hbyte.1.2, hbyte.2⟩
  constructor
  · intro method heq
    rw [heq] at hmethod
    exact isToken_of hmethod
  · intro path heq c hc
    rw [heq] at hpath
    have hchar := List.all_eq_true.mp hpath c hc
    rw [Bool.and_eq_true, decide_eq_true_iff, Bool.not_eq_true'] at hchar
    refine ⟨?_, hchar.2⟩
    rintro rfl
    exact hchar.1 rfl
  · exact fun header hmem => (hheader header hmem).1
  · intro header hmem
    have hbytes := (hheader header hmem).2
    exact ⟨fun h => (hbytes 13 h).1 rfl, fun h => (hbytes 10 h).2.1 rfl,
      fun h => (hbytes 0 h).2.2 rfl⟩

/-- The plain `httparse`, with the checks of the real one. -/
def Httparse.checked : Httparse where
  request max head := (Httparse.plain.request max head).filter RawRequest.isClean
  response := Httparse.plain.response

theorem Httparse.checked_clean : Httparse.checked.Clean := by
  intro max head raw h
  exact RawRequest.clean_of_isClean (Option.filter_eq_some_iff.mp h).2

open Classical in
/-- A request with a header that its `Connection` names. -/
theorem rewritten_get_reads :
    let headers := [(text "Host", asBytes (text "a")),
        (text "CONNECTION", asBytes (text "x-y ,,te")),
      (text "X-Y", asBytes (text "1"))]
    readPlain (Relay.requestHead ⟨.http, text "p", 80, some (text "u"), none⟩ (text "GET")
        (text "http://a/b") (text "/b") headers) = some
      { method := asBytes (text "GET")
        target := asBytes (if ProxyScheme.http = .socks5 then text "/b" else text "http://a/b")
        version := asBytes (text "HTTP/1.1")
        fields := ((headers.filter fun header => ¬HopByHop headers header.1).map
            fun header => (asBytes header.1, header.2)) ++
          addedFields (if ProxyScheme.http = .socks5 then none else some (text "Basic dTo="))
            } := by
  intro headers
  have hauth : ProxyUpstream.basicAuth ⟨.http, text "p", 80, some (text "u"), none⟩ =
      some (text "Basic dTo=") := by decide +kernel
  have hparse : parseRequest Httparse.checked
      (asBytes (text "GET http://a/b HTTP/1.1\r\nHost: a\r\n" ++
        text "CONNECTION: x-y ,,te\r\nX-Y: 1\r\n\r\n")) =
        .ok (.forward (text "a") 80 (text "GET") (text "http://a/b") (text "/b") headers) := by
    decide +kernel
  rw [← hauth]
  exact rewritten_request_reads Httparse.checked_clean hparse _

end BrowserServe
