import BrowserServe.Library.Authority
import BrowserServe.ProxyRewrite

namespace BrowserServe
open Library
set_option autoImplicit true

/-- The host and the text for the port, as `split_authority` finds them. -/
def hostAndPort (s : Text) : Option (Text × Option Text) :=
  match stripPrefix '[' s with
  | some inner => (splitOnce ']' inner).map fun (host, after) => (host, stripPrefix ':' after)
  | none =>
    match rsplitOnce ':' s with
    | some (h, p) => some (h, some p)
    | none => some (s, none)

def takenPort (known : Option Nat) (port : Option Text) : Option Nat :=
  match port with
  | some p => (parseUnsigned 16 p).filter (· ≠ 0)
  | none => known

theorem guard_bind {p : Prop} [Decidable p] (x : Option α) :
    ((guard p : Option Unit) >>= fun _ => x) = if p then x else none := by
  unfold guard
  split
  · rfl
  · rfl

theorem splitAuthority_eq (s : Text) (known : Option Nat) :
    splitAuthority s known = if '@' ∈ s ∨ s = [] then none else
      (hostAndPort s).bind fun (host, p) => (takenPort known p).bind fun port =>
        if host = [] then none else some (host, port) := by
  unfold splitAuthority hostAndPort takenPort
  simp only [guard_bind, ite_not]
  split
  · rfl
  · cases stripPrefix '[' s with
    | some inner =>
      dsimp only
      cases splitOnce ']' inner with
      | none => rfl
      | some parts =>
        cases hstrip : stripPrefix ':' parts.2 with
        | none => simp [hstrip]
        | some p => simp [hstrip]
    | none =>
      dsimp only
      cases rsplitOnce ':' s with
      | none => rfl
      | some parts => rfl

theorem splitAuthority_eq_some_iff {s : Text} {known : Option Nat} :
    splitAuthority s known = some (host, port) ↔ '@' ∉ s ∧ host ≠ [] ∧
      ∃ p, hostAndPort s = some (host, p) ∧ takenPort known p = some port := by
  rw [splitAuthority_eq]
  constructor
  · intro h
    split at h
    · cases h
    · rename_i hguard
      obtain ⟨⟨host', p⟩, hparts, h⟩ := Option.bind_eq_some_iff.mp h
      obtain ⟨port', hport, h⟩ := Option.bind_eq_some_iff.mp h
      split at h
      · cases h
      · rename_i hhost
        cases h
        exact ⟨fun hmem => hguard (.inl hmem), hhost, p, hparts, hport⟩
  · rintro ⟨huser, hhost, p, hparts, hport⟩
    have hguard : ¬('@' ∈ s ∨ s = []) := by
      rintro (hmem | rfl)
      · exact huser hmem
      · cases hparts
        exact hhost rfl
    simp only [if_neg hguard, hparts, Option.bind_some, hport, if_neg hhost]

/-- The ways in which an authority is taken apart. -/
inductive SplitsInto : Text → Text → Option Text → Prop
  | bracketed (hclose : ']' ∉ host) :
      SplitsInto ('[' :: (host ++ ']' :: after)) host (stripPrefix ':' after)
  | port (hopen : (host ++ ':' :: p).head? ≠ some '[') (hcolon : ':' ∉ p) :
      SplitsInto (host ++ ':' :: p) host (some p)
  | name (hopen : host.head? ≠ some '[') (hcolon : ':' ∉ host) : SplitsInto host host none

theorem hostAndPort_eq_some_iff {s : Text} :
    hostAndPort s = some (host, p) ↔ SplitsInto s host p := by
  constructor
  · intro h
    unfold hostAndPort at h
    cases hopen : stripPrefix '[' s with
    | some inner =>
      rw [hopen] at h
      obtain ⟨⟨host', after⟩, hclose, hpair⟩ := Option.map_eq_some_iff.mp h
      cases hpair
      rw [stripPrefix_eq_some_iff] at hopen
      obtain ⟨hinner, hmem⟩ := splitOnce_eq_some_iff.mp hclose
      rw [hopen, hinner]
      exact .bracketed hmem
    | none =>
      have hhead : s.head? ≠ some '[' := by
        intro hhead
        obtain ⟨rest, rfl⟩ := List.head?_eq_some_iff.mp hhead
        cases hopen
      rw [hopen] at h
      dsimp only at h
      cases hlast : rsplitOnce ':' s with
      | some parts =>
        rw [hlast] at h
        cases h
        obtain ⟨rfl, hmem⟩ := rsplitOnce_eq_some_iff.mp hlast
        exact .port hhead hmem
      | none =>
        rw [hlast] at h
        cases h
        exact .name hhead (rsplitOnce_eq_none_iff.mp hlast)
  · intro h
    unfold hostAndPort
    cases h with
    | bracketed hclose => simp only [stripPrefix, if_pos, splitOnce_append hclose, Option.map_some]
    | port hopen hcolon =>
      rw [stripPrefix_eq_none hopen, rsplitOnce_eq_some_iff.mpr ⟨rfl, hcolon⟩]
    | name hopen hcolon => rw [stripPrefix_eq_none hopen, rsplitOnce_eq_none_iff.mpr hcolon]


/-- Authorities that are taken though they are not of the form `host[:port]` or `[IPv6][:port]`. -/
inductive Lax (known : Option Nat) : Text → Prop
  | afterBracket (hhost : host ≠ []) (hclose : ']' ∉ host) (hafter : after ≠ [])
      (hcolon : after.head? ≠ some ':') (hport : known = some port)
      (huser : '@' ∉ host ++ after) : Lax known ('[' :: (host ++ ']' :: after))
  | bracketedName (hhost : host ≠ []) (hclose : ']' ∉ host) (huser : '@' ∉ host)
      (hname : ¬IsIpv6 host) (hport : PortPart known tail port) :
      Lax known ('[' :: (host ++ ']' :: tail))
  | delimiter (hopen : host.head? ≠ some '[') (huser : '@' ∉ host) (hc : c ∈ host)
      (hdelim : isGenDelim c = true) (hport : PortPart known tail port)
      (hcolon : tail = [] → ':' ∉ host) : Lax known (host ++ tail)
  | signedPort (hopen : host.head? ≠ some '[') (hhost : host ≠ []) (huser : '@' ∉ host)
      (hport : IsPort digits port) : Lax known (host ++ ':' :: '+' :: digits)
  | signedBracketedPort (hhost : host ≠ []) (hclose : ']' ∉ host) (huser : '@' ∉ host)
      (hport : IsPort digits port) : Lax known ('[' :: (host ++ ']' :: ':' :: '+' :: digits))

theorem takenPort_portPart (h : PortPart known tail port) :
    takenPort known (stripPrefix ':' tail) = some port := by
  cases h with
  | absent h => exact h
  | given h => exact parsePort_iff.mpr (.inl h)

/-- A host before its port, where no bracket opens it. -/
theorem splitAuthority_unbracketed (h : PortPart known tail port) (hopen : host.head? ≠ some '[')
    (hhost : host ≠ []) (huser : '@' ∉ host) (hcolon : tail = [] → ':' ∉ host) :
    splitAuthority (host ++ tail) known = some (host, port) := by
  have hat : '@' ∉ tail := h.not_mem (by decide) (by decide)
  refine splitAuthority_eq_some_iff.mpr ⟨?_, hhost, ?_⟩
  · exact fun hmem => (List.mem_append.mp hmem).elim huser hat
  · cases h with
    | absent h =>
      rw [List.append_nil]
      exact ⟨none, hostAndPort_eq_some_iff.mpr (.name hopen (hcolon rfl)), h⟩
    | @given digits _ h =>
      refine ⟨some digits, hostAndPort_eq_some_iff.mpr (.port ?_ (h.not_mem (by decide))), ?_⟩
      · rw [List.head?_append_of_ne_nil _ hhost]
        exact hopen
      · exact parsePort_iff.mpr (.inl h)

theorem splitAuthority_bracketed {known : Option Nat} (hhost : host ≠ []) (hclose : ']' ∉ host)
    (huser : '@' ∉ host ++ after)
    (hport : takenPort known (stripPrefix ':' after) = some port) :
    splitAuthority ('[' :: (host ++ ']' :: after)) known = some (host, port) := by
  refine splitAuthority_eq_some_iff.mpr
    ⟨?_, hhost, _, hostAndPort_eq_some_iff.mpr (.bracketed hclose), hport⟩
  rw [List.mem_append, not_or] at huser
  simp [huser]

/-- An authority of the right form is taken apart as it is written. -/
theorem splitAuthority_isAuthority (h : IsAuthority known s host port) :
    splitAuthority s known = some (host, port) := by
  cases h with
  | name hhost hport =>
    exact splitAuthority_unbracketed hport hhost.not_open hhost.1
      (hhost.not_mem (by decide)) fun _ =>
      hhost.not_mem (by decide)
  | ipv6 hhost hport =>
    refine splitAuthority_bracketed hhost.ne_nil (hhost.not_mem (by decide)) ?_
      (takenPort_portPart hport)
    intro hmem
    rcases List.mem_append.mp hmem with hmem | hmem
    · exact hhost.not_mem (by decide) hmem
    · exact hport.not_mem (by decide) (by decide) hmem

/-- The authority written for a host and a port splits back into them. -/
theorem splitAuthority_authority (h : IsAuthority none s host port) :
    splitAuthority (authority host port) none = some (host, port) := by
  obtain ⟨digits, hdigits⟩ := h.isPort
  have hport : PortPart none (':' :: text (toString port)) port :=
    .given (isPort_toDigits hdigits.pos hdigits.lt)
  have hname (hhost : IsHostName host) :
      splitAuthority (authority host port) none = some (host, port) := by
    have hwritten : authority host port = host ++ ':' :: text (toString port) := by
      rw [authority, if_neg (hhost.not_mem (by decide))]
      simp [text, toString]
    rw [hwritten]
    exact splitAuthority_isAuthority (.name hhost hport)
  cases h with
  | name hhost => exact hname hhost
  | ipv6 hhost =>
    by_cases hcolon : ':' ∈ host
    · have hwritten : authority host port =
          '[' :: (host ++ ']' :: ':' :: text (toString port)) := by
        rw [authority, if_pos hcolon]
        simp [text, toString]
      rw [hwritten]
      exact splitAuthority_isAuthority (.ipv6 hhost hport)
    · exact hname (hhost.isHostName hcolon)

/-- What is taken is of the right form, or one of the lax ones. -/
theorem lax_or_isAuthority {s : Text} (h : splitAuthority s known = some (host, port)) :
    Lax known s ∨ IsAuthority known s host port := by
  obtain ⟨huser, hhost, p, hparts, hport⟩ := splitAuthority_eq_some_iff.mp h
  cases hostAndPort_eq_some_iff.mp hparts with
  | @bracketed _ after hclose =>
    have hat : '@' ∉ host := fun hmem => huser (by simp [hmem])
    cases hstrip : stripPrefix ':' after with
    | none =>
      rw [hstrip] at hport
      by_cases hafter : after = []
      · subst hafter
        by_cases hname : IsIpv6 host
        · exact .inr (.ipv6 hname (.absent hport))
        · exact .inl (.bracketedName hhost hclose hat hname (.absent hport))
      · refine .inl (.afterBracket hhost hclose hafter ?_ hport fun hmem => huser ?_)
        · intro hhead
          obtain ⟨rest, rfl⟩ := List.head?_eq_some_iff.mp hhead
          cases hstrip
        · rcases List.mem_append.mp hmem with hmem | hmem
          · simp [hmem]
          · simp [hmem]
    | some digits =>
      rw [stripPrefix_eq_some_iff] at hstrip
      subst hstrip
      rcases parsePort_iff.mp hport with hvalue | ⟨_, rfl, hvalue⟩
      · by_cases hname : IsIpv6 host
        · exact .inr (.ipv6 hname (.given hvalue))
        · exact .inl (.bracketedName hhost hclose hat hname (.given hvalue))
      · exact .inl (.signedBracketedPort hhost hclose hat hvalue)
  | @port _ digits hopen hcolon =>
    have hat : '@' ∉ host := fun hmem => huser (by simp [hmem])
    rw [List.head?_append_of_ne_nil _ hhost] at hopen
    rcases parsePort_iff.mp hport with hvalue | ⟨_, rfl, hvalue⟩
    · by_cases hname : IsHostName host
      · exact .inr (.name hname (.given hvalue))
      · obtain ⟨c, hc, hdelim⟩ := exists_isGenDelim hhost hname
        exact .inl (.delimiter hopen hat hc hdelim (.given hvalue) nofun)
    · exact .inl (.signedPort hopen hhost hat hvalue)
  | name hopen hcolon =>
    by_cases hname : IsHostName host
    · have hform : IsAuthority known (host ++ []) host port := .name hname (.absent hport)
      rw [List.append_nil] at hform
      exact .inr hform
    · obtain ⟨c, hc, hdelim⟩ := exists_isGenDelim hhost hname
      have hform := Lax.delimiter hopen (by simpa using huser) hc hdelim (.absent hport)
        fun _ => hcolon
      rw [List.append_nil] at hform
      exact .inl hform

theorem not_isAuthority_bracketed (h : ¬(IsIpv6 host ∧ PortPart known after port)) :
    ¬IsAuthority known ('[' :: (host ++ ']' :: after)) host port := by
  intro hform
  generalize hs : '[' :: (host ++ ']' :: after) = s at hform
  cases hform with
  | name hhost hport =>
    have hmem : '[' ∈ '[' :: (host ++ ']' :: after) := List.mem_cons_self
    rw [hs, List.mem_append] at hmem
    rcases hmem with hmem | hmem
    · exact hhost.not_mem (by decide) hmem
    · exact hport.not_mem (by decide) (by decide) hmem
  | ipv6 hhost hport =>
    obtain ⟨_, hs⟩ := List.cons.inj hs
    cases List.append_cancel_left hs
    exact h ⟨hhost, hport⟩

theorem not_isAuthority_unbracketed (hopen : host.head? ≠ some '[') (hhost : host ≠ [])
    (h : ¬(IsHostName host ∧ PortPart known tail port)) :
    ¬IsAuthority known (host ++ tail) host port := by
  intro hform
  generalize hs : host ++ tail = s at hform
  cases hform with
  | name hname hport =>
    cases List.append_cancel_left hs
    exact h ⟨hname, hport⟩
  | ipv6 =>
    have hhead := congrArg List.head? hs
    rw [List.head?_append_of_ne_nil _ hhost] at hhead
    exact hopen hhead

/-- The lax ones are taken, and not of the right form. -/
theorem Lax.taken {s : Text} (h : Lax known s) : ∃ host port,
    splitAuthority s known = some (host, port) ∧ ¬IsAuthority known s host port := by
  cases h with
  | @afterBracket host after port hhost hclose hafter hcolon hport huser =>
    refine ⟨host, port, splitAuthority_bracketed hhost hclose huser ?_, ?_⟩
    · rw [stripPrefix_eq_none hcolon]
      exact hport
    · refine not_isAuthority_bracketed ?_
      rintro ⟨_, hpart⟩
      cases hpart with
      | absent => exact hafter rfl
      | given => exact hcolon rfl
  | @bracketedName host tail port hhost hclose huser hname hport =>
    refine ⟨host, port, splitAuthority_bracketed hhost hclose ?_ (takenPort_portPart hport), ?_⟩
    · intro hmem
      exact (List.mem_append.mp hmem).elim huser (hport.not_mem (by decide) (by decide))
    · exact not_isAuthority_bracketed fun h => hname h.1
  | @delimiter host c tail port hopen huser hc hdelim hport hcolon =>
    have hhost : host ≠ [] := List.ne_nil_of_mem hc
    refine ⟨host, port, splitAuthority_unbracketed hport hopen hhost huser hcolon, ?_⟩
    exact not_isAuthority_unbracketed hopen hhost fun h => h.1.not_mem hdelim hc
  | @signedPort host digits port hopen hhost huser hport =>
    have hat : '@' ∉ digits := hport.not_mem (by decide)
    refine ⟨host, port, ?_, not_isAuthority_unbracketed hopen hhost fun h => h.2.no_sign⟩
    refine splitAuthority_eq_some_iff.mpr ⟨?_, hhost, some ('+' :: digits),
      hostAndPort_eq_some_iff.mpr (.port ?_ ?_), parsePort_iff.mpr (.inr ⟨digits, rfl, hport⟩)⟩
    · simp [huser, hat]
    · rw [List.head?_append_of_ne_nil _ hhost]
      exact hopen
    · exact List.not_mem_cons_of_ne_of_not_mem (by decide) (hport.not_mem (by decide))
  | @signedBracketedPort host digits port hhost hclose huser hport =>
    have hat : '@' ∉ digits := hport.not_mem (by decide)
    refine ⟨host, port, splitAuthority_bracketed hhost hclose (by simp [huser, hat]) ?_,
      not_isAuthority_bracketed fun h => h.2.no_sign⟩
    exact parsePort_iff.mpr (.inr ⟨digits, rfl, hport⟩)

/-- A path and query with a leading slash. -/
def withSlash (path : Text) : Text := if path.head? = some '/' then path else '/' :: path

/-- The authority that a request asks for, and the port that is known without it. -/
inductive RequestTarget (raw : RawRequest) : Option Nat → Text → Prop
  | connect (hmethod : raw.method = some method)
      (hconnect : eqIgnoreAsciiCase method (text "CONNECT") = true) (htarget : raw.path = some s) :
      RequestTarget raw none s
  | absolute (hmethod : raw.method = some method)
      (hconnect : eqIgnoreAsciiCase method (text "CONNECT") = false)
      (htarget : raw.path = some target) (hform : AbsoluteForm (text "http://") target s path) :
      RequestTarget raw (some 80) s

/-- What the relay is asked to do is what the target of the request says. -/
inductive Denotes (raw : RawRequest) : Request → Prop
  | connect (htarget : raw.path = some s) (hform : IsAuthority none s host port)
      (hback : splitAuthority (authority host port) none = some (host, port)) :
      Denotes raw (.connect host port)
  | forward (hmethod : raw.method = some method) (htarget : raw.path = some absolute)
      (habsolute : AbsoluteForm (text "http://") absolute s path)
      (hform : IsAuthority (some 80) s host port) :
      Denotes raw (.forward host port method absolute (withSlash path) raw.headers)

/-- The part of a target after `http://`, up to its path and from there on. -/
def authorityAndPath (rest : Text) : Text × Text :=
  match rest.span fun c => c ≠ '/' ∧ c ≠ '?' with
  | (_, []) => (rest, ['/'])
  | (authority, path) => (authority, path)

theorem authorityAndPath_append {authority path : Text}
    (hauthority : ∀ c ∈ authority, c ≠ '/' ∧ c ≠ '?')
    (hpath : path = [] ∨ path.head? = some '/' ∨ path.head? = some '?') :
    authorityAndPath (authority ++ path) = (authority, if path = [] then ['/'] else path) := by
  rw [authorityAndPath, takeWhile_authority hauthority hpath]
  cases path with
  | nil => rw [List.append_nil]; rfl
  | cons c path => rfl

theorem exists_authority_path (rest : Text) : ∃ authority path, rest = authority ++ path ∧
    (∀ c ∈ authority, c ≠ '/' ∧ c ≠ '?') ∧
    (path = [] ∨ path.head? = some '/' ∨ path.head? = some '?') := by
  refine ⟨rest.takeWhile fun c => c ≠ '/' ∧ c ≠ '?', rest.dropWhile fun c => c ≠ '/' ∧ c ≠ '?',
    List.takeWhile_append_dropWhile.symm, fun c hc => ?_, ?_⟩
  · exact of_decide_eq_true (List.mem_takeWhile_imp (p := fun c => c ≠ '/' ∧ c ≠ '?') hc)
  · cases hdrop : rest.dropWhile fun c => c ≠ '/' ∧ c ≠ '?' with
    | nil => exact .inl rfl
    | cons c path =>
      have hhead := List.head?_dropWhile_not (fun c => decide (c ≠ '/' ∧ c ≠ '?')) rest
      rw [hdrop] at hhead
      have hc : ¬(c ≠ '/' ∧ c ≠ '?') := of_decide_eq_false hhead
      rw [not_and_or, not_not, not_not] at hc
      rcases hc with rfl | rfl
      · exact .inr (.inl rfl)
      · exact .inr (.inr rfl)

theorem originForm_eq {path : Text}
    (hpath : path = [] ∨ path.head? = some '/' ∨ path.head? = some '?') :
    (let path := if path = [] then ['/'] else path
      if path.head? = some '?' then '/' :: path else path) = withSlash path := by
  rcases hpath with rfl | hpath | hpath
  · rfl
  all_goals
    obtain ⟨rest, rfl⟩ := List.head?_eq_some_iff.mp hpath
    rfl


theorem http_ascii : ∀ c ∈ text "http://", 32 < c.toNat ∧ c.toNat < 128 := by
  have hall : (text "http://").all (fun c => 32 < c.toNat && c.toNat < 128) = true := by decide
  intro c hc
  have hbounds := List.all_eq_true.mp hall c hc
  rw [Bool.and_eq_true, decide_eq_true_eq, decide_eq_true_eq] at hbounds
  exact hbounds

theorem length_le_asBytes (t : Text) : t.length ≤ (asBytes t).length := by
  induction t with
  | nil => exact Nat.le_refl 0
  | cons c t ih =>
    have hc : 0 < (String.utf8EncodeChar c).length := by
      rw [String.length_utf8EncodeChar]
      exact Char.utf8Size_pos c
    rw [asBytes, List.flatMap_cons, List.length_append, List.length_cons]
    have hrest : t.length ≤ (t.flatMap String.utf8EncodeChar).length := ih
    omega

theorem splitAuthority_ne_nil {s : Text} (h : splitAuthority s known = some (host, port)) :
    s ≠ [] := by
  rintro rfl
  obtain ⟨_, hhost, p, hparts, _⟩ := splitAuthority_eq_some_iff.mp h
  cases hparts
  exact hhost rfl

section
variable {httparse : Httparse} {head : List UInt8} {raw : RawRequest} {method target : Text}

theorem parseRequest_connect_iff (hraw : httparse.request MAX_HEADERS head = some raw)
    (hmethod : raw.method = some method) (htarget : raw.path = some target)
    (hconnect : eqIgnoreAsciiCase method (text "CONNECT") = true) {request : Request} :
    parseRequest httparse head = .ok request ↔
      ∃ host port, splitAuthority target none = some (host, port) ∧
        request = .connect host port := by
  have hparse : parseRequest httparse head =
      okOr (.reason "bad CONNECT target") (splitAuthority target none) >>= fun found =>
        return .connect found.1 found.2 := by
    simp only [parseRequest, hraw, hmethod, htarget, okOr, bind, Except.bind, hconnect, if_true]
  rw [hparse]
  constructor
  · intro h
    obtain ⟨⟨host, port⟩, hsplit, h⟩ := except_bind_ok h
    cases h
    exact ⟨host, port, okOr_ok hsplit, rfl⟩
  · rintro ⟨host, port, hsplit, rfl⟩
    rw [hsplit]
    rfl

theorem parseRequest_forward_iff (hraw : httparse.request MAX_HEADERS head = some raw)
    (hmethod : raw.method = some method) (htarget : raw.path = some target)
    (hconnect : eqIgnoreAsciiCase method (text "CONNECT") = false) {request : Request} :
    parseRequest httparse head = .ok request ↔
      ∃ s path host port, AbsoluteForm (text "http://") target s path ∧
        splitAuthority s (some 80) = some (host, port) ∧
        request = .forward host port method target (withSlash path) raw.headers := by
  have hparse : parseRequest httparse head =
      (if 7 < (asBytes target).length then
        okOr .panicked (splitAtByte 7 target) >>= fun halves =>
          if eqIgnoreAsciiCase halves.1 (text "http://") then
            okOr (.reason "bad request target")
              (splitAuthority (authorityAndPath halves.2).1 (some 80)) >>= fun found =>
              let path := (authorityAndPath halves.2).2
              return .forward found.1 found.2 method target
                (if path.head? = some '?' then '/' :: path else path) raw.headers
          else .error (.reason "only proxy requests are accepted")
      else .error (.reason "only proxy requests are accepted")) := by
    simp only [parseRequest, hraw, hmethod, htarget, okOr, bind, Except.bind, hconnect,
      Bool.false_eq_true, if_false]
    rfl
  rw [hparse]
  constructor
  · intro h
    split at h
    · obtain ⟨⟨front, rest⟩, hsplit, h⟩ := except_bind_ok h
      dsimp only at h
      split at h
      · rename_i hfront
        obtain ⟨⟨host, port⟩, hauthority, h⟩ := except_bind_ok h
        cases h
        obtain ⟨s, path, rfl, hs, hpath⟩ := exists_authority_path rest
        rw [authorityAndPath_append hs hpath] at hauthority ⊢
        have htaken := splitAtByte_append (okOr_ok hsplit)
        subst htaken
        exact ⟨s, path, host, port, .mk hfront hs hpath, okOr_ok hauthority,
          by rw [← originForm_eq hpath]⟩
      · cases h
    · cases h
  · rintro ⟨s, path, host, port, hform, hauthority, rfl⟩
    cases hform with
    | @mk front _ _ hfront hs hpath =>
      have hascii := utf8Size_of_eqIgnoreAsciiCase hfront http_ascii
      have hlength : front.length = 7 := length_of_eqIgnoreAsciiCase hfront
      have htaken := splitAtByte_ascii hascii (s ++ path)
      rw [hlength] at htaken
      have hlong : 7 < (asBytes (front ++ (s ++ path))).length := by
        have hs : 0 < s.length := List.length_pos_of_ne_nil (splitAuthority_ne_nil hauthority)
        refine Nat.lt_of_lt_of_le ?_ (length_le_asBytes _)
        rw [List.length_append, List.length_append, hlength]
        omega
      rw [if_pos hlong, htaken]
      simp only [okOr, bind, Except.bind, hfront, if_true, authorityAndPath_append hs hpath,
        hauthority, originForm_eq hpath]
      rfl
end

/-- Where a request is to go. -/
def Request.target : Request → Text × Nat
  | .connect host port => (host, port)
  | .forward host port .. => (host, port)

/-- The target of a request that is accepted is the authority that was taken apart. -/
theorem parseRequest_split {httparse : Httparse} {head : List UInt8} {request : Request}
    (h : parseRequest httparse head = .ok request) :
    ∃ s known, splitAuthority s known = some request.target ∧ (known = none ∨ known = some 80) := by
  obtain ⟨raw, hraw, hrest⟩ := except_bind_ok h
  obtain ⟨method, hmethod, hrest⟩ := except_bind_ok hrest
  obtain ⟨target, htarget, _⟩ := except_bind_ok hrest
  cases hconnect : eqIgnoreAsciiCase method (text "CONNECT") with
  | true =>
    obtain ⟨host, port, hsplit, rfl⟩ := (parseRequest_connect_iff (okOr_ok hraw) (okOr_ok hmethod)
      (okOr_ok htarget) hconnect).mp h
    exact ⟨target, none, hsplit, .inl rfl⟩
  | false =>
    obtain ⟨s, path, host, port, _, hsplit, rfl⟩ := (parseRequest_forward_iff (okOr_ok hraw)
      (okOr_ok hmethod) (okOr_ok htarget) hconnect).mp h
    exact ⟨s, some 80, hsplit, .inr rfl⟩

theorem parseRequest_port {httparse : Httparse} {head : List UInt8} {request : Request}
    (h : parseRequest httparse head = .ok request) : request.target.2 < 2 ^ 16 := by
  obtain ⟨s, known, hsplit, hknown⟩ := parseRequest_split h
  obtain ⟨_, _, p, _, hport⟩ := splitAuthority_eq_some_iff.mp hsplit
  cases p with
  | none =>
    rcases hknown with rfl | rfl
    · cases hport
    · have heq : 80 = request.target.2 := Option.some.inj hport
      omega
  | some p =>
    rcases parsePort_iff.mp hport with hport | ⟨_, _, hport⟩
    · exact hport.lt
    · exact hport.lt

/-- The relay is asked for what the target says, unless the target's authority is a lax one. -/
theorem accepted_target_denoted_iff {httparse : Httparse} {head : List UInt8} :
    (∀ request, parseRequest httparse head = .ok request →
      ∃ raw, httparse.request MAX_HEADERS head = some raw ∧ Denotes raw request) ↔
    ∀ raw known s, httparse.request MAX_HEADERS head = some raw → RequestTarget raw known s →
      ¬Lax known s := by
  constructor
  · intro h raw known s hraw hasked hlax
    obtain ⟨host, port, hsplit, hform⟩ := hlax.taken
    cases hasked with
    | connect hmethod hconnect htarget =>
      obtain ⟨_, hraw', hdenotes⟩ :=
        h _ ((parseRequest_connect_iff hraw hmethod htarget hconnect).mpr
        ⟨host, port, hsplit, rfl⟩)
      cases hraw.symm.trans hraw'
      cases hdenotes with
      | connect htarget' hform' =>
        cases htarget.symm.trans htarget'
        exact hform hform'
    | absolute hmethod hconnect htarget habsolute =>
      obtain ⟨_, hraw', hdenotes⟩ :=
        h _ ((parseRequest_forward_iff hraw hmethod htarget hconnect).mpr
        ⟨s, _, host, port, habsolute, hsplit, rfl⟩)
      cases hraw.symm.trans hraw'
      generalize hslash : withSlash _ = originForm at hdenotes
      cases hdenotes with
      | forward _ _ habsolute' hform' =>
        obtain ⟨rfl, _⟩ := habsolute.unique habsolute'
        exact hform hform'
  · intro h request hparse
    obtain ⟨raw, hraw, hrest⟩ := except_bind_ok hparse
    obtain ⟨method, hmethod, hrest⟩ := except_bind_ok hrest
    obtain ⟨target, htarget, _⟩ := except_bind_ok hrest
    have hraw := okOr_ok hraw
    have hmethod := okOr_ok hmethod
    have htarget := okOr_ok htarget
    refine ⟨raw, hraw, ?_⟩
    cases hconnect : eqIgnoreAsciiCase method (text "CONNECT") with
    | true =>
      obtain ⟨host, port, hsplit, rfl⟩ :=
        (parseRequest_connect_iff hraw hmethod htarget hconnect).mp hparse
      have hform := (lax_or_isAuthority hsplit).resolve_left
        (h raw none target hraw (.connect hmethod hconnect htarget))
      exact .connect htarget hform (splitAuthority_authority hform)
    | false =>
      obtain ⟨s, path, host, port, habsolute, hsplit, rfl⟩ :=
        (parseRequest_forward_iff hraw hmethod htarget hconnect).mp hparse
      have hform := (lax_or_isAuthority hsplit).resolve_left
        (h raw (some 80) s hraw (.absolute hmethod hconnect htarget habsolute))
      exact .forward hmethod htarget habsolute hform

/-- Port 8080 of a malformed address is taken for port 80 of the address in brackets. -/
theorem port_after_bracket_missed :
    let head := asBytes (text "GET http://[::1]x:8080/ HTTP/1.1\r\n\r\n")
    parseRequest Httparse.checked head = .ok (.forward (text "::1") 80 (text "GET")
        (text "http://[::1]x:8080/") (text "/") []) ∧
      ¬∀ request, parseRequest Httparse.checked head = .ok request →
        ∃ raw, Httparse.checked.request MAX_HEADERS head = some raw ∧ Denotes raw request := by
  intro head
  have hparse : parseRequest Httparse.checked head = .ok (.forward (text "::1") 80 (text "GET")
      (text "http://[::1]x:8080/") (text "/") []) := by decide +kernel
  refine ⟨hparse, fun h => ?_⟩
  obtain ⟨raw, _, hdenotes⟩ := h _ hparse
  have hform : AbsoluteForm (text "http://") (text "http://[::1]x:8080/")
      ('[' :: (text "::1" ++ ']' :: text "x:8080")) (text "/") := by
    have hfront : eqIgnoreAsciiCase (text "http://") (text "http://") = true := by decide
    have hs : ('[' :: (text "::1" ++ ']' :: text "x:8080")).all
        (fun c => c ≠ '/' ∧ c ≠ '?') = true := by decide
    exact .mk hfront (fun c hc => of_decide_eq_true (List.all_eq_true.mp hs c hc)) (.inr (.inl rfl))
  generalize hslash : text "/" = originForm at hdenotes
  generalize hheaders : [] = headers at hdenotes
  cases hdenotes with
  | forward _ _ habsolute hauthority =>
    obtain ⟨rfl, _⟩ := hform.unique habsolute
    refine not_isAuthority_bracketed ?_ hauthority
    rintro ⟨_, hpart⟩
    cases hpart

end BrowserServe
