import BrowserServe.Library.AddrText
import BrowserServe.ServerState

namespace BrowserServe
open Library
set_option autoImplicit true

/-- A letter, then letters, digits and `+-.`. -/
structure IsScheme (scheme : Text) : Prop where
  letter : ∃ c, scheme.head? = some c ∧ c.isAlpha = true
  chars : ∀ c ∈ scheme, c.isAlphanum = true ∨ c = '+' ∨ c = '-' ∨ c = '.'

/-- A host of an origin: a name, which has none of the characters that tell the parts of a URI
apart and is no IPv4 address, or an address. -/
inductive OriginHost where
  | name (name : Text) (plain : ∀ c ∈ name, isGenDelim c = false)
      (noAddr : ∀ a b c d : UInt8, name ≠ ipv4Text a.toNat b.toNat c.toNat d.toNat)
  | ipv4 (a b c d : UInt8)
  | ipv6 (segments : Vector UInt16 8)

def OriginHost.text : OriginHost → Text
  | name s _ _ => s
  | ipv4 a b c d => ipv4Text a.toNat b.toNat c.toNat d.toNat
  | ipv6 segments => '[' :: (ipv6Text segments ++ [']'])

/-- `localhost`, an address in 127.0.0.0/8, or `::1`. -/
def OriginHost.IsLoopback : OriginHost → Prop
  | name s _ _ => eqIgnoreAsciiCase s (Library.text "localhost") = true
  | ipv4 a _ _ _ => a = 127
  | ipv6 segments => segments.toList = [0, 0, 0, 0, 0, 0, 0, 1]

/-- An origin that is not opaque. -/
structure WebOrigin where
  scheme : Text
  host : OriginHost
  port : Option Nat
  isScheme : IsScheme scheme

def portText : Option Nat → Text
  | none => []
  | some port => ':' :: Nat.toDigits 10 port

/-- The serialisation of an origin. -/
def WebOrigin.text (origin : WebOrigin) : Text :=
  origin.scheme ++ (Library.text "://" ++ (origin.host.text ++ portText origin.port))

section
variable {t : Text} {port : Option Nat}

theorem splitOnceText_append {first : Char} {before : Text} (h : first ∉ before)
    (pattern after : Text) :
    splitOnceText (first :: pattern) (before ++ (first :: pattern ++ after)) =
      some (before, after) := by
  induction before with
  | nil =>
    have hprefix : (first :: pattern).isPrefixOf (first :: (pattern ++ after)) = true :=
      List.isPrefixOf_iff_prefix.mpr (List.prefix_append (first :: pattern) after)
    rw [List.nil_append, List.cons_append, splitOnceText, if_pos hprefix, List.length_cons,
      List.drop_succ_cons, List.drop_left]
  | cons c before ih =>
    have hc : first ≠ c := fun heq => h (heq ▸ List.mem_cons_self)
    have hprefix : (first :: pattern).isPrefixOf (c :: (before ++ (first :: pattern ++ after))) =
        false := by
      rw [List.isPrefixOf, beq_eq_false_iff_ne.mpr hc, Bool.false_and]
    rw [List.cons_append, splitOnceText, hprefix, ih fun hmem => h (List.mem_cons_of_mem c hmem)]
    rfl

theorem IsScheme.not_colon (h : IsScheme scheme) : ':' ∉ scheme := by
  intro hmem
  rcases h.chars ':' hmem with hc | hc | hc | hc
  all_goals exact absurd hc (by decide)

theorem not_mem_toDigits {c : Char} (hc : c.isDigit = false) (n : Nat) : c ∉ Nat.toDigits 10 n := by
  intro hmem
  rw [Nat.isDigit_of_mem_toDigits (by decide) (by decide) hmem] at hc
  cases hc

theorem not_mem_portText {c : Char} (hcolon : c ≠ ':') (hdigit : c.isDigit = false)
    (port : Option Nat) : c ∉ portText port := by
  cases port with
  | none => exact List.not_mem_nil
  | some port =>
    intro hmem
    rcases List.mem_cons.mp hmem with rfl | hmem
    · exact hcolon rfl
    · exact not_mem_toDigits hdigit port hmem

theorem mem_ipv4Text {x : Char} (h : x ∈ ipv4Text a b c d) : x.isDigit = true ∨ x = '.' := by
  have hdigits {n : Nat} (hx : x ∈ Nat.toDigits 10 n) : x.isDigit = true :=
    Nat.isDigit_of_mem_toDigits (by decide) (by decide) hx
  simp only [ipv4Text, List.mem_append, List.mem_cons] at h
  rcases h with h | h | h | h | h | h | h
  · exact .inl (hdigits h)
  · exact .inr h
  · exact .inl (hdigits h)
  · exact .inr h
  · exact .inl (hdigits h)
  · exact .inr h
  · exact .inl (hdigits h)

theorem takeWhile_all {keep : Char → Bool} (h : ∀ c ∈ t, keep c = true) : t.takeWhile keep = t := by
  rw [← List.append_nil t, List.takeWhile_append_of_pos h]
  rfl

theorem lowercase_eq_self (h : ∀ c ∈ t, c.toLower = c) : toAsciiLowercase t = t :=
  (List.map_congr_left h).trans (List.map_id' t)

theorem digit_not_letter {c : Char} (h : c.isDigit = true) :
    c.isLower = false ∧ c.isUpper = false := by
  simp [Char.isDigit, Char.isLower, Char.isUpper, UInt32.le_iff_toNat_le] at h ⊢
  omega

/-- A text without letters in lower case is its own lower case text's. -/
theorem eq_of_lowercase_eq {s : Text} (h : toAsciiLowercase t = s)
    (hs : ∀ c ∈ s, c.isLower = false) : t = s := by
  rw [← h, lowercase_eq_self]
  intro c hc
  cases hupper : c.isUpper with
  | true =>
    have hmem : c.toLower ∈ s := h ▸ List.mem_map_of_mem hc
    have hlower := hs _ hmem
    rw [isLower_toLower hupper] at hlower
    cases hlower
  | false => exact Char.toLower_eq_of_not_isUpper (by simp [hupper])

/-- What is decided about the host that an origin's authority gives. -/
def allowedHost (host : Text) : Bool :=
  let host := toAsciiLowercase host
  host = text "localhost" || host = text "::1" ||
    match readIpv4Addr host with
    | some ((a, _, _, _), []) => a = 127
    | _ => false

theorem allowed_of_authority {scheme authority host : Text} (hscheme : IsScheme scheme)
    (hslash : '/' ∉ authority)
    (hhost : (match stripPrefix '[' authority with
      | some stripped => stripped.takeWhile (· ≠ ']')
      | none => (rsplitOnce ':' authority).elim authority Prod.fst) = host) :
    Auth.tokenlessOriginAllowed (some (scheme ++ (text "://" ++ authority))) =
      allowedHost host := by
  have hsplit : splitOnceText (text "://") (scheme ++ (text "://" ++ authority)) =
      some (scheme, authority) := splitOnceText_append hscheme.not_colon _ authority
  have hauthority : authority.takeWhile (· ≠ '/') = authority := by
    apply takeWhile_all
    intro c hc
    exact decide_eq_true fun heq => hslash (heq ▸ hc)
  simp only [Auth.tokenlessOriginAllowed, hsplit, hauthority]
  subst hhost
  rfl

/-- A host in front of a port, without brackets. -/
theorem host_of_authority {host : Text} (hcolon : ':' ∉ host) (hopen : '[' ∉ host)
    (port : Option Nat) :
    (match stripPrefix '[' (host ++ portText port) with
      | some stripped => stripped.takeWhile (· ≠ ']')
      | none => (rsplitOnce ':' (host ++ portText port)).elim (host ++ portText port) Prod.fst) =
      host := by
  have hbracket : '[' ∉ host ++ portText port := by
    intro hmem
    rcases List.mem_append.mp hmem with hmem | hmem
    · exact hopen hmem
    · exact not_mem_portText (by decide) (by decide) port hmem
  rw [stripPrefix_eq_none fun hhead => hbracket (List.mem_of_head? hhead)]
  cases port with
  | none =>
    rw [portText, List.append_nil, rsplitOnce_eq_none_iff.mpr hcolon]
    rfl
  | some port =>
    have hsplit : rsplitOnce ':' (host ++ portText (some port)) =
        some (host, Nat.toDigits 10 port) :=
      rsplitOnce_eq_some_iff.mpr ⟨rfl, not_mem_toDigits (by decide) port⟩
    rw [hsplit]
    rfl

theorem allowedHost_ipv4 {a b c d : UInt8} :
    allowedHost (ipv4Text a.toNat b.toNat c.toNat d.toNat) = true ↔ a = 127 := by
  have hlower : toAsciiLowercase (ipv4Text a.toNat b.toNat c.toNat d.toNat) =
      ipv4Text a.toNat b.toNat c.toNat d.toNat := by
    apply lowercase_eq_self
    intro x hx
    apply Char.toLower_eq_of_not_isUpper
    rcases mem_ipv4Text hx with hdigit | rfl
    · simp [(digit_not_letter hdigit).2]
    · decide
  have hnot {s : Text} (x : Char) (hx : x ∈ s) (hchar : x.isDigit = false ∧ x ≠ '.') :
      ipv4Text a.toNat b.toNat c.toNat d.toNat ≠ s := by
    rintro rfl
    rcases mem_ipv4Text hx with hdigit | hdot
    · rw [hchar.1] at hdigit
      cases hdigit
    · exact hchar.2 hdot
  have hlocal := hnot (s := text "localhost") 'l' (by decide) (by decide)
  have hloop := hnot (s := text "::1") ':' (by decide) (by decide)
  have hread := readIpv4Addr_iff.mpr
    ⟨⟨a.toNat_lt, b.toNat_lt, c.toNat_lt, d.toNat_lt⟩, rfl⟩
  simp only [allowedHost, hlower, hread, decide_eq_false hlocal, decide_eq_false hloop,
    Bool.false_or, decide_eq_true_iff]
  exact UInt8.toNat_inj (b := 127)

theorem allowedHost_name {name : Text} (hplain : ∀ c ∈ name, isGenDelim c = false)
    (hnoAddr : ∀ a b c d : UInt8, name ≠ ipv4Text a.toNat b.toNat c.toNat d.toNat) :
    allowedHost name = true ↔ eqIgnoreAsciiCase name (text "localhost") = true := by
  have hlocal : toAsciiLowercase (text "localhost") = text "localhost" := by decide
  have hloop : toAsciiLowercase name ≠ text "::1" := by
    intro hlower
    have hname := eq_of_lowercase_eq hlower
      (List.forall_mem_cons.mpr
          ⟨rfl, List.forall_mem_cons.mpr ⟨rfl, List.forall_mem_singleton.mpr rfl⟩⟩)
    rw [hname] at hplain
    exact absurd (hplain ':' (by decide)) (by decide)
  have haddr : (match readIpv4Addr (toAsciiLowercase name) with
      | some ((a, _, _, _), []) => decide (a = 127)
      | _ => false) = false := by
    split
    · rename_i a b c d hread
      obtain ⟨⟨ha, hb, hc, hd⟩, hlower⟩ := readIpv4Addr_iff.mp hread
      have hname := eq_of_lowercase_eq hlower (by
        intro x hx
        rcases mem_ipv4Text hx with hdigit | rfl
        · exact (digit_not_letter hdigit).1
        · decide)
      have hsame := hnoAddr (.ofNat a) (.ofNat b) (.ofNat c) (.ofNat d)
      rw [UInt8.toNat_ofNat_of_lt' ha, UInt8.toNat_ofNat_of_lt' hb, UInt8.toNat_ofNat_of_lt' hc,
        UInt8.toNat_ofNat_of_lt' hd] at hsame
      exact absurd hname hsame
    · rfl
  rw [eqIgnoreAsciiCase_iff, hlocal, allowedHost, haddr, decide_eq_false hloop, Bool.or_false,
    Bool.or_false, decide_eq_true_iff]

theorem allowedHost_ipv6 {segments : Vector UInt16 8} :
    allowedHost (ipv6Text segments) = true ↔ segments.toList = [0, 0, 0, 0, 0, 0, 0, 1] := by
  have hchars : ∀ c ∈ IPV6_CHARS, c.toLower = c ∧ c ≠ 'l' ∧ c ≠ '.' := by
    have hall : (IPV6_CHARS.all fun c => c.toLower = c ∧ c ≠ 'l' ∧ c ≠ '.') = true := by decide
    simpa using hall
  have hlower : toAsciiLowercase (ipv6Text segments) = ipv6Text segments :=
    lowercase_eq_self fun c hc => (hchars c (ipv6Text_chars segments c hc)).1
  have hlocal : ipv6Text segments ≠ text "localhost" := by
    intro heq
    have hmem : 'l' ∈ ipv6Text segments := by
      rw [heq]
      decide
    exact (hchars _ (ipv6Text_chars segments _ hmem)).2.1 rfl
  have haddr : (match readIpv4Addr (ipv6Text segments) with
      | some ((a, _, _, _), []) => decide (a = 127)
      | _ => false) = false := by
    split
    · rename_i a b c d hread
      obtain ⟨_, heq⟩ := readIpv4Addr_iff.mp hread
      have hmem : '.' ∈ ipv6Text segments := by
        rw [heq, ipv4Text]
        exact List.mem_append_right _ List.mem_cons_self
      exact absurd rfl (hchars _ (ipv6Text_chars segments _ hmem)).2.2
    · rfl
  rw [← ipv6Text_eq_loopback, allowedHost, hlower, haddr, decide_eq_false hlocal, Bool.false_or,
    Bool.or_false, decide_eq_true_iff]

end

theorem checkAuth_tokenless (state : AppState) (request : WsRequest) :
    checkAuth { state with token := none } request =
      Auth.tokenlessOriginAllowed ((request.headers.lookup "origin").map fun value =>
        (headerToStr value).getD (text "invalid")) := by
  simp only [checkAuth, Option.isNone_none, true_and, Auth.authorized]
  cases Auth.tokenlessOriginAllowed _ with
  | true => rfl
  | false => rfl

theorem WebOrigin.allowed_iff (origin : WebOrigin) :
    Auth.tokenlessOriginAllowed (some origin.text) = true ↔ origin.host.IsLoopback := by
  obtain ⟨scheme, host, port, hscheme⟩ := origin
  have hdelim {c : Char} {t : Text} (ht : ∀ x ∈ t, isGenDelim x = false)
      (hc : isGenDelim c = true) :
      c ∉ t := by
    intro hmem
    rw [ht c hmem] at hc
    cases hc
  have hport := not_mem_portText (by decide : '/' ≠ ':') (by decide) port
  have hplain {t : Text} (ht : ∀ x ∈ t, isGenDelim x = false) :
      Auth.tokenlessOriginAllowed (some (scheme ++ (Library.text "://" ++ (t ++ portText port)))) =
        allowedHost t := by
    apply allowed_of_authority hscheme
    · intro hmem
      exact (List.mem_append.mp hmem).elim (hdelim ht (by decide)) hport
    · exact host_of_authority (hdelim ht (by decide)) (hdelim ht (by decide)) port
  cases host with
  | name name hname hnoAddr =>
    exact (congrArg (· = true) (hplain hname)).to_iff.trans (allowedHost_name hname hnoAddr)
  | ipv4 a b c d =>
    have hchars : ∀ x ∈ ipv4Text a.toNat b.toNat c.toNat d.toNat, isGenDelim x = false := by
      intro x hx
      rcases mem_ipv4Text hx with hdigit | rfl
      · cases hgen : isGenDelim x with
        | false => rfl
        | true =>
          simp only [isGenDelim, List.contains_eq_mem, decide_eq_true_iff, List.mem_cons,
            List.not_mem_nil, or_false] at hgen
          rcases hgen with rfl | rfl | rfl | rfl | rfl | rfl | rfl
          all_goals exact absurd hdigit (by decide)
      · decide
    exact (congrArg (· = true) (hplain hchars)).to_iff.trans allowedHost_ipv4
  | ipv6 segments =>
    have hchars : ∀ c ∈ IPV6_CHARS, c ≠ ']' ∧ c ≠ '/' := by
      have hall : (IPV6_CHARS.all fun c => c ≠ ']' ∧ c ≠ '/') = true := by decide
      simpa using hall
    have hclose : ∀ c ∈ ipv6Text segments, decide (c ≠ ']') = true := by
      intro c hc
      exact decide_eq_true (hchars c (ipv6Text_chars segments c hc)).1
    have hslash : '/' ∉ '[' :: (ipv6Text segments ++ [']']) ++ portText port := by
      intro hmem
      rcases List.mem_append.mp hmem with hmem | hmem
      · rcases List.mem_cons.mp hmem with heq | hmem
        · exact absurd heq (by decide)
        · rcases List.mem_append.mp hmem with hmem | hmem
          · exact (hchars _ (ipv6Text_chars segments _ hmem)).2 rfl
          · exact absurd (List.mem_singleton.mp hmem) (by decide)
      · exact hport hmem
    have hhost : (match stripPrefix '[' ('[' :: (ipv6Text segments ++ [']']) ++ portText port) with
        | some stripped => stripped.takeWhile (· ≠ ']')
        | none => (rsplitOnce ':' ('[' :: (ipv6Text segments ++ [']']) ++ portText port)).elim
          ('[' :: (ipv6Text segments ++ [']']) ++ portText port) Prod.fst) = ipv6Text segments := by
      rw [List.cons_append, stripPrefix, if_pos rfl, List.append_assoc, List.singleton_append]
      dsimp only
      rw [List.takeWhile_append_of_pos hclose, List.takeWhile_cons_of_neg (by decide),
        List.append_nil]
    have hallowed := allowed_of_authority hscheme hslash hhost
    exact (congrArg (· = true) hallowed).to_iff.trans allowedHost_ipv6

/-- On an instance without a token the pages of loopback origins get in, and no others; what sends
no origin does. -/
theorem tokenless_origins_loopback :
    (∀ origin : WebOrigin,
      Auth.tokenlessOriginAllowed (some origin.text) = true ↔ origin.host.IsLoopback) ∧
    Auth.tokenlessOriginAllowed (some (text "null")) = false ∧
    Auth.tokenlessOriginAllowed none = true ∧
    ∀ (state : AppState) (request : WsRequest),
      checkAuth { state with token := none } request =
        match request.headers.lookup "origin" with
        | none => true
        | some value => (headerToStr value).any fun origin =>
          Auth.tokenlessOriginAllowed (some origin) := by
  refine ⟨WebOrigin.allowed_iff, by decide, rfl, ?_⟩
  intro state request
  rw [checkAuth_tokenless]
  cases request.headers.lookup "origin" with
  | none => rfl
  | some value =>
    dsimp only [Option.map_some]
    cases headerToStr value with
    | none =>
      have hinvalid : Auth.tokenlessOriginAllowed (some (text "invalid")) = false := by decide
      exact hinvalid
    | some origin => exact Option.any_some.symm

end BrowserServe
