import BrowserServe.Library.FormUrl
import BrowserServe.Config

namespace BrowserServe
open Library
set_option autoImplicit true

/-- `BROWSERSERVE_TOKEN` as it is set, if it is. -/
def readToken (value : Option Text) : Except String (Option Text) :=
  if value.any fun token => trim token = [] then
    .error "BROWSERSERVE_TOKEN is set but empty; set a token or unset the variable"
  else .ok value

def trimEndMatches (c : Char) (t : Text) : Text := (t.reverse.dropWhile (· = c)).reverse

/-- The address that a client is told to connect to, without its token. -/
def baseAddress (externalAddress : Option Text) (headers : HeaderMap) : Text :=
  externalAddress.getD <|
    text "ws://" ++ ((headers.lookup "host").bind headerToStr).getD (text "localhost:9222")

def webSocketDebuggerUrl (token externalAddress : Option Text) (headers : HeaderMap) : Text :=
  let url := trimEndMatches '/' (baseAddress externalAddress headers) ++ ['/']
  match token with
  | some token => url ++ text "?token=" ++ token
  | none => url

/-- What `json_version` tells a client about where to connect. -/
def jsonVersion (state : AppState) (externalAddress : Option Text) (request : WsRequest) :
    Except Response Text :=
  if !checkAuth state request then .error unauthorized
  else .ok (webSocketDebuggerUrl state.token externalAddress request.headers)

/-- `Query` as a map: the last pair of a name stays. -/
def queryMap (query : Text) : QueryMap :=
  (formPairs query).reverse.map fun (name, value) => (String.ofList name, String.ofList value)

/-- What is asked of an URL: a client that connects to it, whatever headers it sends, is one with
the token. -/
structure Connects (state : AppState) (token url : Text) : Prop where
  param : (queryMap (urlQuery url)).lookup "token" = some (String.ofList token)
  accepted : ∀ headers, checkAuth state ⟨queryMap (urlQuery url), headers⟩ = true

/-- The tokens that stay what they are in the query of an URL. -/
structure UrlPlain (token : Text) : Prop where
  plus : '+' ∉ token
  separator : '&' ∉ token
  fragment : '#' ∉ token
  unescaped : ¬Escaped token

theorem mem_trimEndMatches {c d : Char} (h : d ≠ c) (t : Text) :
    d ∈ trimEndMatches c t ↔ d ∈ t := by
  have hsplit := List.takeWhile_append_dropWhile (p := (· = c)) (l := t.reverse)
  have htake : d ∉ t.reverse.takeWhile (· = c) := by
    intro hmem
    exact h (by simpa using List.mem_takeWhile_imp hmem)
  rw [trimEndMatches, List.mem_reverse]
  constructor
  · intro hmem
    exact List.mem_reverse.mp ((List.dropWhile_sublist _).subset hmem)
  · intro hmem
    rw [← List.mem_reverse, ← hsplit, List.mem_append] at hmem
    exact hmem.resolve_left htake

theorem mem_queryMap {query : Text} {value : String}
    (h : (queryMap query).lookup name = some value) :
    ∃ pair ∈ formPairs query, String.ofList pair.2 = value := by
  obtain ⟨before, after, hsplit, _⟩ := List.lookup_eq_some_iff.mp h
  have hmem : (name, value) ∈ queryMap query := by
    rw [hsplit]
    exact List.mem_append_right _ List.mem_cons_self
  obtain ⟨pair, hpair, heq⟩ := List.mem_map.mp hmem
  exact ⟨pair, List.mem_reverse.mp hpair, congrArg Prod.snd heq⟩

theorem token_param (token : Text) :
    text "?token=" ++ token = '?' :: (text "token" ++ '=' :: token) :=
  rfl

/-- Where nothing cuts the token, the parameter is what it decodes to. -/
theorem queryMap_token {token : Text} (h : '&' ∉ token) :
    (queryMap (text "token" ++ '=' :: token)).lookup "token" =
      some (String.ofList (formDecode token)) := by
  have hname : formDecode (text "token") = text "token" :=
    (formDecode_eq_iff _).mpr ⟨by simp [text], not_escaped_of_not_mem (by simp [text])⟩
  rw [queryMap, formPairs_param (by simp [text]) (by simp [text]) h, hname]
  rfl

theorem queryMap_shorter {token query : Text}
    (h : ∀ pair ∈ formPairs query, pair.2.length < token.length) :
    (queryMap query).lookup "token" ≠ some (String.ofList token) := by
  intro hlookup
  obtain ⟨pair, hmem, heq⟩ := mem_queryMap hlookup
  have hlength := h pair hmem
  rw [String.ofList_injective heq] at hlength
  exact Nat.lt_irrefl _ hlength

theorem takeWhile_length_lt {token : Text} (h : '#' ∈ token) :
    (token.takeWhile (· ≠ '#')).length < token.length := by
  obtain ⟨before, after, rfl, hbefore⟩ := List.eq_append_cons_of_mem h
  have hall : ∀ c ∈ before, decide (c ≠ '#') = true := by
    intro c hmem
    rw [decide_eq_true_eq]
    exact ne_of_mem_of_not_mem hmem hbefore
  rw [List.takeWhile_append_of_pos hall]
  simp

theorem takeWhile_eq_self {token : Text} (h : '#' ∉ token) : token.takeWhile (· ≠ '#') = token := by
  rw [List.takeWhile_eq_self_iff]
  intro c hmem
  rw [decide_eq_true_eq]
  exact ne_of_mem_of_not_mem hmem h

/-- A query with nothing but the token gives it back exactly if it is plain. -/
theorem queryMap_token_iff (token : Text) :
    (queryMap ((text "token" ++ '=' :: token).takeWhile (· ≠ '#'))).lookup "token" =
      some (String.ofList token) ↔ UrlPlain token := by
  have hequals : '=' ∉ text "token" := by simp [text]
  have hsep : '&' ∉ text "token" := by simp [text]
  have hname : ∀ c ∈ text "token" ++ ['='], decide (c ≠ '#') = true := by
    simp [text]
  rw [List.append_cons, List.takeWhile_append_of_pos hname, ← List.append_cons]
  by_cases hfragment : '#' ∈ token
  · have hlt := takeWhile_length_lt hfragment
    refine iff_of_false (queryMap_shorter fun pair hmem => ?_) fun h => h.fragment hfragment
    exact Nat.lt_of_le_of_lt (formPairs_length hequals hsep pair hmem) hlt
  · rw [takeWhile_eq_self hfragment]
    by_cases hcut : '&' ∈ token
    · exact iff_of_false (queryMap_shorter (formPairs_cut hequals hsep hcut)) fun h =>
        h.separator hcut
    · have hinjective : String.ofList (formDecode token) = String.ofList token ↔
          formDecode token = token := ⟨fun h => String.ofList_injective h, fun h => by rw [h]⟩
      rw [queryMap_token hcut, Option.some_inj, hinjective, formDecode_eq_iff]
      exact ⟨fun h => ⟨h.1, hcut, hfragment, h.2⟩, fun h => ⟨h.plus, h.unescaped⟩⟩

theorem checkAuth_of_param {state : AppState} {token : Text} {query : QueryMap}
    (htoken : state.token = some token) (h : query.lookup "token" = some (String.ofList token))
    (headers : HeaderMap) : checkAuth state ⟨query, headers⟩ = true := by
  simp [checkAuth, htoken, h, Auth.authorized]

/-- The URL that a client is told to connect to is one with the token exactly if the address has no
fragment and the token is plain. It is for a client that sends the query as it stands in the URL. -/
theorem json_version_connects_iff {state : AppState} {token url : Text} {request : WsRequest}
    {externalAddress : Option Text} (htoken : state.token = some token)
    (hquery : '?' ∉ baseAddress externalAddress request.headers)
    (h : jsonVersion state externalAddress request = .ok url) :
    Connects state token url ↔
      '#' ∉ baseAddress externalAddress request.headers ∧ UrlPlain token := by
  have hparam : Connects state token url ↔
      (queryMap (urlQuery url)).lookup "token" = some (String.ofList token) :=
    ⟨fun hconnects => hconnects.param,
      fun hparam => ⟨hparam, fun headers => checkAuth_of_param htoken hparam headers⟩⟩
  have hurl : url = (trimEndMatches '/' (baseAddress externalAddress request.headers) ++ ['/']) ++
      '?' :: (text "token" ++ '=' :: token) := by
    rw [jsonVersion] at h
    split at h
    · cases h
    · cases h
      rw [htoken, ← token_param]
      exact List.append_assoc _ _ _
  have hmem : ∀ c : Char, c ≠ '/' →
      (c ∈ trimEndMatches '/' (baseAddress externalAddress request.headers) ++ ['/'] ↔
        c ∈ baseAddress externalAddress request.headers) := by
    intro c hc
    simp [mem_trimEndMatches hc, hc]
  have hquery' := (hmem '?' (by decide)).not.mpr hquery
  rw [hparam, hurl]
  by_cases hfragment : '#' ∈ baseAddress externalAddress request.headers
  · rw [urlQuery_fragment hquery' ((hmem '#' (by decide)).mpr hfragment)]
    exact iff_of_false (by simp [queryMap, formPairs]) fun hboth => hboth.1 hfragment
  · rw [urlQuery_append hquery' ((hmem '#' (by decide)).not.mpr hfragment), queryMap_token_iff]
    exact ⟨fun hplain => ⟨hfragment, hplain⟩, fun hboth => hboth.2⟩

/-- A server with a token, and a request with it for the local address. -/
def tokenState (token : String) : AppState :=
  .new { (LoadedConfig.default 4).toRuntimeConfig with token := some token.toList }

def tokenRequest (token : String) : WsRequest :=
  ⟨[("token", token)], [("host", asBytes (text "localhost:9222"))]⟩

theorem json_version_connects_iff_secret :
    Connects (tokenState "secret") (text "secret")
      (text "ws://localhost:9222/?token=secret") := by
  have hurl : jsonVersion (tokenState "secret") none (tokenRequest "secret") =
      .ok (text "ws://localhost:9222/?token=secret") := by decide +kernel
  refine (json_version_connects_iff rfl (by decide +kernel) hurl).mpr ⟨by decide +kernel, ?_⟩
  exact ⟨by decide +kernel, by decide +kernel, by decide +kernel,
    not_escaped_of_not_mem (by decide +kernel)⟩

/-- A token of base64 with a plus sign in it. -/
theorem json_version_refused_token :
    readToken (some (text "a+b")) = .ok (some (text "a+b")) ∧
      ∃ url, jsonVersion (tokenState "a+b") none (tokenRequest "a+b") = .ok url ∧
        ¬Connects (tokenState "a+b") (text "a+b") url := by
  refine ⟨by decide +kernel, text "ws://localhost:9222/?token=a+b", by decide +kernel, fun h => ?_⟩
  exact absurd h.param (by decide +kernel)

end BrowserServe
