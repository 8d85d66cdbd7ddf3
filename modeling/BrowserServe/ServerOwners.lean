import BrowserServe.ServerProxied
import BrowserServe.ServerSingleUse

namespace BrowserServe
open Library
set_option autoImplicit true

/-- The token a request presents, in its query or else in its `Authorization` header. -/
def WsRequest.presented (request : WsRequest) : Option Text :=
  (request.query.lookup "token").map String.toList <|>
    ((request.headers.lookup "authorization").bind headerToStr).bind fun value =>
      if (text "Bearer ").isPrefixOf value then some (trim (value.drop (text "Bearer ").length))
      else none

def WsRequest.origin (request : WsRequest) : Option Text :=
  (request.headers.lookup "origin").map fun value => (headerToStr value).getD (text "invalid")

/-- Whom a server lets in: with a token, whoever presents it; without one, whoever does not come
from the page of another site. -/
def RuntimeConfig.Authorizes (config : RuntimeConfig) (request : WsRequest) : Prop :=
  match config.token with
  | some expected => request.presented = some expected
  | none => Auth.tokenlessOriginAllowed request.origin = true

theorem authorized_iff (expected : Text) (queryToken authorizationHeader : Option Text) :
    Auth.authorized (some expected) queryToken authorizationHeader = true ↔
      (queryToken <|> authorizationHeader.bind fun value =>
        if (text "Bearer ").isPrefixOf value then some (trim (value.drop (text "Bearer ").length))
        else none) = some expected := by
  simp only [Auth.authorized]
  split
  · next hnone =>
    rw [hnone]
    simp
  · next candidate hsome =>
    rw [hsome]
    simp [eq_comm]

theorem checkAuth_iff {config : RuntimeConfig} {state : AppState} (h : state.token = config.token)
    (request : WsRequest) :
    checkAuth state request = true ↔ config.Authorizes request := by
  unfold checkAuth RuntimeConfig.Authorizes
  rw [h]
  cases config.token with
  | none =>
    simp only [Option.isNone_none, Auth.authorized]
    cases hallowed : Auth.tokenlessOriginAllowed request.origin with
    | true =>
      rw [WsRequest.origin] at hallowed
      simp [hallowed]
    | false =>
      rw [WsRequest.origin] at hallowed
      simp [hallowed]
  | some expected =>
    simp only [Option.isNone_some, Bool.false_eq_true, false_and, if_false]
    exact authorized_iff expected _ _

@[simp] theorem ServerHub.dropGuard_token (h : ServerHub) (spentGuard : Bool) :
    (h.dropGuard spentGuard).state.token = h.state.token := by
  cases spentGuard <;> rfl

theorem HandlerStep.sameToken (h : HandlerStep options i request hub phase e hub' phase') :
    hub'.state.token = hub.state.token := by
  cases h with
  | _ => first | rfl | exact ServerHub.dropGuard_token _ _

theorem admission_unauthorized {state : AppState} (h : checkAuth state request = false) :
    admission state request = .refused unauthorized := by
  rw [admission, h]
  rfl

/-- The first section of a handler: a request that is not let in is answered so, and one that is
goes on. -/
theorem HandlerStep.screened
    (h : HandlerStep options i request hub .start e hub' phase') :
    checkAuth hub.state request = true ∨
      phase' = .over ∧ (hub' = hub ∨ hub' = hub.respond i unauthorized) := by
  cases hauth : checkAuth hub.state request with
  | true => exact .inl rfl
  | false =>
    have hrefused := admission_unauthorized hauth
    cases h with
    | unpolled => exact .inr ⟨rfl, .inl rfl⟩
    | refused ha =>
      rw [hrefused] at ha
      cases ha
      exact .inr ⟨rfl, .inr rfl⟩
    | resuming ha =>
      rw [hrefused] at ha
      cases ha
    | admitted ha =>
      rw [hrefused] at ha
      cases ha

/-- Only a request that was let in gets past its first section. -/
structure Server.Screened (config : RuntimeConfig) (s : Server) : Prop where
  token : s.hub.state.token = config.token
  handlers : ∀ handler ∈ s.handlers, handler.phase ≠ .start → handler.phase ≠ .over →
    config.Authorizes handler.request
  given : ∀ i browser, (i, browser) ∈ s.hub.given →
    ∃ handler, s.handlers[i]? = some handler ∧ config.Authorizes handler.request
  sent : ∀ i response, (i, response) ∈ s.hub.sent →
    ∃ handler, s.handlers[i]? = some handler ∧
      (config.Authorizes handler.request ∨ response = unauthorized)

theorem request_set {handlers : List Handler} {i j : Nat} (hi : handlers[i]? = some handler)
    {P : WsRequest → Prop} (hj : ∃ other : Handler, handlers[j]? = some other ∧ P other.request) :
    ∃ other : Handler, (handlers.set i ⟨handler.request, phase⟩)[j]? = some other ∧
      P other.request := by
  obtain ⟨other, hother, hP⟩ := hj
  by_cases hij : i = j
  · subst hij
    rw [hi] at hother
    cases hother
    exact ⟨_, List.getElem?_set_self (List.getElem?_eq_some_iff.1 hi).1, hP⟩
  · exact ⟨other, (List.getElem?_set_ne hij).trans hother, hP⟩

theorem request_append {handlers : List Handler} {j : Nat} {P : WsRequest → Prop}
    (hj : ∃ other : Handler, handlers[j]? = some other ∧ P other.request) :
    ∃ other : Handler, (handlers ++ [handler])[j]? = some other ∧ P other.request := by
  obtain ⟨other, hother, hP⟩ := hj
  exact ⟨other, (List.getElem?_append_left (List.getElem?_eq_some_iff.1 hother).1).trans hother, hP⟩

/-- A handler of a request that was let in may be given a browser and answered in any way. -/
theorem Server.Screened.authorized {s : Server} (hs : s.Screened config)
    (hi : s.handlers[i]? = some handler) (hauth : config.Authorizes handler.request)
    (htoken : hub'.state.token = s.hub.state.token) (browser : Option Browser)
    (response : Option Response)
    (hgiven : hub'.given = (browser.map (i, ·)).toList ++ s.hub.given)
    (hsent : hub'.sent = (response.map (i, ·)).toList ++ s.hub.sent) :
    Server.Screened config ⟨hub', s.handlers.set i ⟨handler.request, phase'⟩⟩ := by
  have hself : ∃ other : Handler, (s.handlers.set i ⟨handler.request, phase'⟩)[i]? = some other ∧
      config.Authorizes other.request := request_set hi ⟨handler, hi, hauth⟩
  refine ⟨htoken.trans hs.token, ?_, ?_, ?_⟩
  · exact forall_mem_set (fun _ _ => hauth) hs.handlers
  · intro j b hmem
    rw [hgiven] at hmem
    rcases List.mem_append.1 hmem with hnew | hold
    · obtain ⟨_, _, heq⟩ := Option.map_eq_some_iff.1 (Option.mem_toList.1 hnew)
      cases heq
      exact hself
    · exact request_set hi (hs.given j b hold)
  · intro j sent hmem
    rw [hsent] at hmem
    rcases List.mem_append.1 hmem with hnew | hold
    · obtain ⟨_, _, heq⟩ := Option.map_eq_some_iff.1 (Option.mem_toList.1 hnew)
      cases heq
      obtain ⟨other, hother, hlet⟩ := hself
      exact ⟨other, hother, .inl hlet⟩
    · exact request_set (P := fun request => config.Authorizes request ∨ sent = unauthorized) hi
        (hs.sent j sent hold)

/-- What a section adds to the browsers given and to the answers: a browser of the handler's own,
or the one behind the token it resumes. -/
theorem HandlerAnswer.adds (h : HandlerAnswer i hub phase hub' phase') :
    ∃ (browser : Option Browser) (response : Option Response),
      hub'.given = (browser.map (i, ·)).toList ++ hub.given ∧
        hub'.sent = (response.map (i, ·)).toList ++ hub.sent ∧
        ∀ b, browser = some b → b.session = i ∨ ∃ token r, phase = .resuming token ∧
          hub.state.resume = some r ∧ hub.behind r token = some b := by
  cases h with
  | quiet hgiven hsent => exact ⟨none, none, hgiven, hsent, nofun⟩
  | early response _ _ hgiven hsent => exact ⟨none, some response, hgiven, hsent, nofun⟩
  | refused response _ _ hgiven hsent => exact ⟨none, some response, hgiven, hsent, nofun⟩
  | noTransport response _ _ _ hgiven hsent =>
    refine ⟨some _, some response, hgiven, hsent, ?_⟩
    rintro b ⟨⟩
    exact .inl rfl
  | resumed hphase hr _ _ hgiven hsent =>
    exact ⟨_, some _, hgiven, hsent, fun b hb => .inr ⟨_, _, hphase, hr, hb⟩⟩
  | claimed _ _ _ _ hgiven hsent =>
    refine ⟨some _, some _, hgiven, hsent, ?_⟩
    rintro b ⟨⟩
    exact .inl rfl
  | created _ _ _ hgiven hsent =>
    refine ⟨some _, some _, hgiven, hsent, ?_⟩
    rintro b ⟨⟩
    exact .inl rfl

theorem Server.Step.screened (h : Server.Step options s a t) (hs : s.Screened config) :
    t.Screened config := by
  cases h with
  | arrive =>
    refine ⟨hs.token, ?_, ?_, ?_⟩
    · exact forall_mem_append_single (fun hne => absurd rfl hne) hs.handlers
    · intro j browser hmem
      exact request_append (hs.given j browser hmem)
    · intro j response hmem
      exact request_append (P := fun request => config.Authorizes request ∨ response = unauthorized)
        (hs.sent j response hmem)
  | @handler i handler e hub' phase' _ hi h =>
    obtain ⟨browser, response, hgiven, hsent, _⟩ := h.answer.adds
    have hlet : config.Authorizes handler.request →
        Server.Screened config ⟨hub', s.handlers.set i ⟨handler.request, phase'⟩⟩ :=
      fun hauth => hs.authorized hi hauth h.sameToken browser response hgiven hsent
    by_cases hstart : handler.phase = .start
    · rw [hstart] at h
      rcases h.screened with hauth | ⟨rfl, hhub⟩
      · exact hlet ((checkAuth_iff hs.token _).1 hauth)
      · refine ⟨h.sameToken.trans hs.token, ?_, ?_, ?_⟩
        · exact forall_mem_set (fun _ hne => absurd rfl hne) hs.handlers
        · intro j found hmem
          have hold : (j, found) ∈ s.hub.given := by
            rcases hhub with rfl | rfl
            · exact hmem
            · exact hmem
          exact request_set hi (hs.given j found hold)
        · intro j found hmem
          have hcases : (j, found) = (i, unauthorized) ∨ (j, found) ∈ s.hub.sent := by
            rcases hhub with rfl | rfl
            · exact .inr hmem
            · exact List.mem_cons.1 hmem
          rcases hcases with heq | hold
          · cases heq
            exact ⟨_, List.getElem?_set_self (List.getElem?_eq_some_iff.1 hi).1, .inr rfl⟩
          · exact request_set
              (P := fun request => config.Authorizes request ∨ found = unauthorized) hi
              (hs.sent j found hold)
    · exact hlet (hs.handlers handler (List.mem_of_getElem? hi) hstart h.not_over)
  | _ => exact ⟨hs.token, hs.handlers, hs.given, hs.sent⟩

theorem Server.screened (h : (Server.system config).Reachable s) : s.Screened config := by
  apply h.invariant
  · rintro _ rfl
    refine ⟨rfl, ?_, ?_, ?_⟩
    · exact fun _ hmem => absurd hmem List.not_mem_nil
    · exact fun _ _ hmem => absurd hmem List.not_mem_nil
    · exact fun _ _ hmem => absurd hmem List.not_mem_nil
  · exact fun _ _ _ _ hs hst => hst.screened hs

/-- In every run of the server a browser is given only to a request that it lets in. Any other
request is answered with 401 or not at all, and changes nothing else. -/
theorem only_authorized_served (h : (Server.system config).Reachable s) :
    (∀ i browser, (i, browser) ∈ s.hub.given →
      ∃ handler, s.handlers[i]? = some handler ∧ config.Authorizes handler.request) ∧
    ∀ (i : Nat) handler, s.handlers[i]? = some handler → ¬ config.Authorizes handler.request →
      (∀ response, (i, response) ∈ s.hub.sent → response = unauthorized) ∧
      ∀ e t, Server.Step config.options s (.handler i e) t →
        t.hub = s.hub ∨ t.hub = s.hub.respond i unauthorized := by
  have hs := Server.screened h
  refine ⟨hs.given, fun i handler hi hno => ⟨?_, ?_⟩⟩
  · intro response hmem
    obtain ⟨other, hother, hlet | hunauthorized⟩ := hs.sent i response hmem
    · rw [hi] at hother
      cases hother
      exact absurd hlet hno
    · exact hunauthorized
  · intro e t hst
    cases hst with
    | handler hj hstep =>
      rw [hi] at hj
      cases hj
      by_cases hstart : handler.phase = .start
      · rw [hstart] at hstep
        rcases hstep.screened with hauth | ⟨_, hhub⟩
        · exact absurd ((checkAuth_iff hs.token _).1 hauth) hno
        · exact hhub
      · exact absurd (hs.handlers handler (List.mem_of_getElem? hi) hstart hstep.not_over) hno

/-- A server with a token, and a client without. -/
theorem only_authorized_served_refused : ∃ s,
    (Server.system { resumableConfig with token := some (text "secret") }).Reachable s ∧
      s.hub.sent ≠ [] ∧ ∀ response, (0, response) ∈ s.hub.sent → response = unauthorized := by
  have hrun : (Server.system { resumableConfig with token := some (text "secret") }).Run
      (.new { resumableConfig with token := some (text "secret") })
      [.arrive ⟨[], []⟩, .handler 0 .check] _ :=
    .cons .arrive <|
      .single (.handler rfl (.refused (admission_unauthorized rfl)))
  have hreach := hrun.reachable (.init rfl)
  refine ⟨_, hreach, List.cons_ne_nil _ _, ?_⟩
  exact ((only_authorized_served hreach).2 0 _ rfl (fun h => by cases h)).1

/-- The resume token that was promised to the client of a session that is not yet served. -/
def HandlerPhase.promised : HandlerPhase → Option String
  | .upgrading _ resumable _ | .seeding _ _ resumable _ => resumable
  | _ => none

/-- A session of a request's own that was answered with a resume token. -/
def ServerHub.Began (hub : ServerHub) (i : Nat) (token : String) : Prop :=
  (∃ relay, (i, sessionResponse (some token) relay) ∈ hub.sent) ∧
    ∃ browser, (i, browser) ∈ hub.given ∧ browser.session = i

theorem ServerHub.Began.mono {hub hub' : ServerHub} (h : hub.Began i token)
    (hsent : ∀ answer ∈ hub.sent, answer ∈ hub'.sent)
    (hgiven : ∀ pair ∈ hub.given, pair ∈ hub'.given) : hub'.Began i token := by
  obtain ⟨⟨relay, hanswer⟩, browser, hbrowser, hown⟩ := h
  exact ⟨⟨relay, hsent _ hanswer⟩, browser, hgiven _ hbrowser, hown⟩

theorem Resume.Step.begun (h : Resume.Step s a t) (ht : task ∈ t.sessions) :
    (∃ old ∈ s.sessions, old.browser = task.browser ∧ old.token = task.token) ∨
      ∃ socket, a = .start task.token task.browser socket := by
  cases h with
  | start =>
    rcases List.mem_append.1 ht with hold | hnew
    · exact .inl ⟨task, hold, rfl, rfl⟩
    · cases List.mem_singleton.1 hnew
      exact .inr ⟨_, rfl⟩
  | serve hi =>
    rcases List.mem_or_eq_of_mem_set ht with hold | rfl
    · exact .inl ⟨task, hold, rfl, rfl⟩
    · exact .inl ⟨_, List.mem_of_getElem? hi, rfl, rfl⟩
  | _ => exact .inl ⟨task, ht, rfl, rfl⟩

/-- A handler registers its own session under the token it has promised. -/
theorem HandlerStep.begun (h : HandlerStep options i request hub phase e hub' phase')
    (hr' : hub'.state.resume = some r') (ht : task ∈ r'.sessions) :
    (∃ r, hub.state.resume = some r ∧
      ∃ old ∈ r.sessions, old.browser = task.browser ∧ old.token = task.token) ∨
      (task.browser = i ∧ phase.promised = some task.token) := by
  have hold (r : Resume) (a : ResumeAction) (hr : hub.state.resume = some r)
      (hs : Resume.Step r a r')
      (ha : ∀ socket, a = .start task.token task.browser socket →
        task.browser = i ∧ phase.promised = some task.token) :
      (∃ r, hub.state.resume = some r ∧
        ∃ old ∈ r.sessions, old.browser = task.browser ∧ old.token = task.token) ∨
        (task.browser = i ∧ phase.promised = some task.token) := by
    rcases hs.begun ht with hsome | ⟨socket, heq⟩
    · exact .inl ⟨r, hr, hsome⟩
    · exact .inr (ha socket heq)
  cases h with
  | unknownToken hr _ hs =>
    cases hr'
    exact hold _ _ hr hs fun _ heq => by cases heq
  | resumed hr _ hs =>
    cases hr'
    exact hold _ _ hr hs fun _ heq => by cases heq
  | poolUpgradedResumable hr hs =>
    cases hr'
    apply hold _ _ hr hs
    rintro socket heq
    cases heq
    exact ⟨rfl, rfl⟩
  | loadedResumable hr hs =>
    cases hr'
    apply hold _ _ hr hs
    rintro socket heq
    cases heq
    exact ⟨rfl, rfl⟩
  | _ =>
    first
    | exact .inl ⟨r', hr', task, ht, rfl, rfl⟩
    | rw [ServerHub.dropGuard_resume] at hr'
      exact .inl ⟨r', hr', task, ht, rfl, rfl⟩

/-- A token is promised with the answer that goes with a browser of the request's own. -/
theorem HandlerStep.promises (h : HandlerStep options i request hub phase e hub' phase')
    (hpromised : phase'.promised = some token) :
    phase.promised = some token ∨ hub'.Began i token := by
  have hbegan (hub : ServerHub) (resumable : Option String) (relay : Bool) (browser : Browser)
      (hresumable : resumable = some token) (hown : browser.session = i) :
      ((hub.give i (some browser)).respond i (sessionResponse resumable relay)).Began i token := by
    subst hresumable
    exact ⟨⟨relay, List.mem_cons_self⟩, browser, List.mem_cons_self, hown⟩
  cases h with
  | @unlimited _ proxy => cases proxy <;> cases hpromised
  | @spent _ _ _ proxy => cases proxy <;> cases hpromised
  | claimed => exact .inr (hbegan _ _ _ _ hpromised rfl)
  | created => exact .inr (hbegan _ _ _ _ hpromised rfl)
  | profileUpgraded => exact .inl hpromised
  | _ => cases hpromised

theorem admission_resume {state : AppState} (h : admission state request = .resume token) :
    request.query.lookup "resume" = some token := by
  unfold admission at h
  split at h
  · cases h
  · split at h
    · next heq =>
      cases h
      exact heq
    · split at h
      · cases h
      · simp only at h
        split at h
        · cases h
        · split at h
          · cases h
          · split at h
            · cases h
            · split at h
              · cases h
              · cases h

/-- A section after which a handler is resuming found the token in its request. -/
theorem HandlerStep.resuming_token
    (h : HandlerStep options i request hub phase e hub' (.resuming token)) :
    request.query.lookup "resume" = some token := by
  generalize hphase : HandlerPhase.resuming token = phase' at h
  cases h with
  | resuming ha =>
    cases hphase
    exact admission_resume ha
  | @unlimited _ proxy => cases proxy <;> cases hphase
  | @spent _ _ _ proxy => cases proxy <;> cases hphase
  | _ => cases hphase

/-- A browser is with the request it was launched for, or with one that resumed its session. -/
def Server.Entitled (s : Server) (i : Nat) (browser : Browser) : Prop :=
  browser.session = i ∨ ∃ handler token, s.handlers[i]? = some handler ∧
    handler.request.query.lookup "resume" = some token ∧ s.hub.Began browser.session token

structure Server.Passes (s : Server) : Prop where
  resuming : ∀ handler ∈ s.handlers, ∀ token, handler.phase = .resuming token →
    handler.request.query.lookup "resume" = some token
  promised : ∀ (i : Nat) handler token, s.handlers[i]? = some handler →
    handler.phase.promised = some token → s.hub.Began i token
  tasks : ∀ r, s.hub.state.resume = some r → ∀ task ∈ r.sessions,
    s.hub.Began task.browser task.token
  given : ∀ i browser, (i, browser) ∈ s.hub.given → s.Entitled i browser

theorem Server.Entitled.mono {s t : Server} (h : s.Entitled i browser)
    (hhandlers : ∀ P : WsRequest → Prop,
      (∃ other : Handler, s.handlers[i]? = some other ∧ P other.request) →
        ∃ other : Handler, t.handlers[i]? = some other ∧ P other.request)
    (hbegan : ∀ k token, s.hub.Began k token → t.hub.Began k token) : t.Entitled i browser := by
  rcases h with hown | ⟨handler, token, hi, hresume, hbegun⟩
  · exact .inl hown
  · obtain ⟨other, hother, hlookup⟩ := hhandlers
      (fun request => request.query.lookup "resume" = some token) ⟨handler, hi, hresume⟩
    exact .inr ⟨other, token, hother, hlookup, hbegan _ _ hbegun⟩

/-- The browser behind a token is the one of the session that began with the token. -/
theorem Server.Passes.behind {s : Server} (hs : s.Passes) (ha : s.Answers)
    (hr : s.hub.state.resume = some r) (hbehind : s.hub.behind r token = some browser) :
    s.hub.Began browser.session token := by
  unfold ServerHub.behind at hbehind
  obtain ⟨k, htask, hlookup⟩ := Option.bind_eq_some_iff.1 hbehind
  obtain ⟨task, hfound, rfl⟩ := Option.map_eq_some_iff.1 htask
  have htoken := of_decide_eq_true (List.find?_some (p := fun task : ServeTask =>
    decide (task.token = token)) hfound)
  have hbegan := hs.tasks r hr task (List.mem_of_find?_eq_some hfound)
  have ⟨_, own, hgiven, hown⟩ := hbegan
  have heq : own = browser :=
    Option.some.inj ((lookup_of_mem ha.givenOnce hgiven).symm.trans hlookup)
  rw [← heq, hown, ← htoken]
  exact hbegan

theorem Server.Step.passes (h : Server.Step options s a t) (hs : s.Passes) (ha : s.Answers) :
    t.Passes := by
  cases h with
  | arrive =>
    refine ⟨?_, ?_, hs.tasks, ?_⟩
    · exact forall_mem_append_single (fun _ hphase => by cases hphase) hs.resuming
    · intro j handler token hj hpromised
      rcases getElem?_append_cases hj with ⟨_, rfl⟩ | hj
      · cases hpromised
      · exact hs.promised j handler token hj hpromised
    · intro j browser hmem
      exact (hs.given j browser hmem).mono (fun _ => request_append) fun _ _ => id
  | @handler i handler e hub' phase' _ hi h =>
    obtain ⟨browser, response, hgiven, hsent, hbrowser⟩ := h.answer.adds
    have hmono (k : Nat) (token : String) (hbegan : s.hub.Began k token) : hub'.Began k token := by
      apply hbegan.mono
      · intro answer hanswer
        rw [hsent]
        exact List.mem_append_right _ hanswer
      · intro pair hpair
        rw [hgiven]
        exact List.mem_append_right _ hpair
    have hkept : ∀ P : WsRequest → Prop, ∀ j : Nat,
        (∃ other : Handler, s.handlers[j]? = some other ∧ P other.request) →
          ∃ other : Handler, (s.handlers.set i ⟨handler.request, phase'⟩)[j]? = some other ∧
            P other.request := fun _ _ => request_set hi
    constructor
    · apply forall_mem_set ?_ hs.resuming
      intro token hphase
      subst hphase
      exact h.resuming_token
    · intro j other token hj hpromised
      rcases getElem?_set_cases hj with ⟨rfl, rfl⟩ | ⟨_, hj⟩
      · rcases h.promises hpromised with hold | hbegan
        · exact hmono _ _ (hs.promised _ handler token hi hold)
        · exact hbegan
      · exact hmono _ _ (hs.promised j other token hj hpromised)
    · intro r' hr' task ht
      rcases h.begun hr' ht with ⟨r, hr, old, hold, hsame, htoken⟩ | ⟨heq, hpromised⟩
      · rw [← hsame, ← htoken]
        exact hmono _ _ (hs.tasks r hr old hold)
      · rw [heq]
        exact hmono _ _ (hs.promised i handler _ hi hpromised)
    · intro j found hmem
      rw [hgiven] at hmem
      rcases List.mem_append.1 hmem with hnew | hold
      · obtain ⟨b, hb, heq⟩ := Option.map_eq_some_iff.1 (Option.mem_toList.1 hnew)
        cases heq
        rcases hbrowser _ hb with hown | ⟨token, r, hphase, hr, hbehind⟩
        · exact .inl hown
        · obtain ⟨other, hother, hlookup⟩ :=
            hkept (fun request => request.query.lookup "resume" = some token) i
              ⟨handler, hi, hs.resuming handler (List.mem_of_getElem? hi) token hphase⟩
          exact .inr ⟨other, token, hother, hlookup, hmono _ _ (hs.behind ha hr hbehind)⟩
      · exact (hs.given j found hold).mono (fun P => hkept P j) hmono
  | resume hbackground hr h =>
    refine ⟨hs.resuming, hs.promised, ?_, hs.given⟩
    rintro _ ⟨⟩ task ht
    rcases h.begun ht with ⟨old, hold, hsame, htoken⟩ | ⟨socket, rfl⟩
    · rw [← hsame, ← htoken]
      exact hs.tasks _ hr old hold
    · cases hbackground
  | cancel =>
    refine ⟨hs.resuming, hs.promised, ?_, hs.given⟩
    intro r hr task ht
    obtain ⟨old, hold, rfl⟩ := Option.map_eq_some_iff.1 hr
    exact hs.tasks old hold task ht
  | _ => exact ⟨hs.resuming, hs.promised, hs.tasks, hs.given⟩

theorem Server.passes (h : (Server.system config).Reachable s) : s.Passes := by
  apply h.invariant
  · rintro _ rfl
    refine ⟨?_, ?_, ?_, ?_⟩
    · exact fun _ hmem => absurd hmem List.not_mem_nil
    · exact fun _ _ _ hi => by cases hi
    · intro r hr task ht
      simp only [Server.new, AppState.new] at hr
      split at hr
      · cases hr
        cases ht
      · cases hr
    · exact fun _ _ hmem => absurd hmem List.not_mem_nil
  · exact fun _ _ _ hreach hs hst => hst.passes hs (Server.answers hreach)

/-- In every run of the server a browser reaches a request other than the one it was launched for
only by the resume token that this one was answered with, and both requests were let in. -/
theorem browser_passes_by_its_token {config : RuntimeConfig}
    (h : (Server.system config).Reachable s) (hgiven : (i, browser) ∈ s.hub.given)
    (hother : browser.session ≠ i) :
    ∃ (later first : Handler) (token : String) (relay : Bool),
      s.handlers[i]? = some later ∧ config.Authorizes later.request ∧
      later.request.query.lookup "resume" = some token ∧
      s.handlers[browser.session]? = some first ∧ config.Authorizes first.request ∧
      (browser.session, sessionResponse (some token) relay) ∈ s.hub.sent := by
  have hscreened := Server.screened h
  rcases (Server.passes h).given i browser hgiven with hown | ⟨later, token, hi, hresume, hbegan⟩
  · exact absurd hown hother
  · obtain ⟨⟨relay, hanswer⟩, own, hown, _⟩ := hbegan
    obtain ⟨same, hsame, hlater⟩ := hscreened.given i browser hgiven
    rw [hi] at hsame
    cases hsame
    obtain ⟨first, hfirst, hauthorized⟩ := hscreened.given browser.session own hown
    exact ⟨later, first, token, relay, hi, hlater, hresume, hfirst, hauthorized, hanswer⟩

/-- A client whose connection breaks, up to where it comes back for its session. -/
theorem brokenConnection_run : ∃ s, (Server.system resumableConfig).Reachable s ∧
    s.handlers[1]? = some ⟨⟨[("resume", "t")], []⟩, .resuming "t"⟩ ∧
    s.hub.state.resume = some (.parkedOnce 5000 "t" 0 ⟨0, none⟩) ∧
    s.hub.given = [(0, ⟨0, none⟩)] := by
  have hadmitted : admission (AppState.new resumableConfig) ⟨[], []⟩ = .session none :=
    admission_session rfl rfl rfl (by decide +kernel) (by decide +kernel) rfl rfl
  have hrun : (Server.system resumableConfig).Run (.new resumableConfig)
      [.arrive ⟨[], []⟩, .handler 0 .check, .handler 0 .spend, .handler 0 .route,
        .handler 0 (.claim .run), .handler 0 (.claim .run), .handler 0 (.claim .launchOk),
        .handler 0 (.claimed true (some "t")), .handler 0 (.upgraded ⟨0, none⟩),
        .resume (.serve 0 .poll), .resume (.serve 0 (.bridgeEnd .clientGone)),
        .resume (.serve 0 .park), .resume (.serve 0 .arm), .arrive ⟨[("resume", "t")], []⟩,
        .handler 1 .check] _ :=
    .cons .arrive <|
      .cons (.handler rfl (.admitted hadmitted)) <|
      .cons (.handler rfl (.unlimited rfl)) <|
      .cons (.handler rfl (.routePool rfl .spawn)) <|
      .cons (.handler rfl (.claim rfl (.claim rfl (.tryAcquireOk rfl)))) <|
      .cons (.handler rfl (.claim rfl (.claim rfl (.noWarm rfl rfl)))) <|
      .cons (.handler rfl (.claim rfl (.claim rfl .launchOk))) <|
      .cons (.handler rfl (.claimed rfl)) <|
      .cons (.handler rfl (.poolUpgradedResumable rfl
        (.start List.not_mem_nil List.not_mem_nil rfl List.not_mem_nil))) <|
      .cons (.resume rfl rfl (.serve rfl .poll)) <|
      .cons (.resume rfl rfl (.serve rfl .clientGone)) <|
      .cons (.resume rfl rfl (.serve rfl .park)) <|
      .cons (.resume rfl rfl (.serve rfl .arm)) <|
      .cons .arrive <|
      .single (.handler rfl (.resuming rfl))
  exact ⟨_, hrun.reachable (.init rfl), rfl, rfl, rfl⟩

/-- The client comes back with its token to the browser it was given first. -/
theorem browser_passes_by_its_token_resumed : ∃ s,
    (Server.system resumableConfig).Reachable s ∧ (1, ⟨0, none⟩) ∈ s.hub.given ∧
      ∃ later : Handler, s.handlers[1]? = some later ∧
        ∃ token, later.request.query.lookup "resume" = some token := by
  obtain ⟨s, hreach, hhandler, hresume, hgiven⟩ := brokenConnection_run
  have hclaim := ResumeRegistry.claim_park (.new 5000) "t" 0
  have hstep := hreach.step (.handler hhandler
    (.resumed hresume (congrArg Prod.fst hclaim) (.claim hclaim)))
  have hbehind : s.hub.behind (.parkedOnce 5000 "t" 0 ⟨0, none⟩) "t" = some ⟨0, none⟩ := by
    have hfind : (Resume.parkedOnce 5000 "t" 0 ⟨0, none⟩).sessions.find?
        (fun task => task.token = "t") = some ⟨"t", 0, .waiting 0 0 (0 + 5000)⟩ :=
      List.find?_cons_of_pos (decide_eq_true rfl)
    rw [ServerHub.behind, hgiven, hfind]
    rfl
  have hnew : (1, (⟨0, none⟩ : Browser)) ∈
      ((s.hub.behind (.parkedOnce 5000 "t" 0 ⟨0, none⟩) "t").map (1, ·)).toList ++ s.hub.given := by
    rw [hbehind]
    exact List.mem_cons_self
  obtain ⟨later, _, token, _, hlater, _, hlookup, _⟩ :=
    browser_passes_by_its_token hstep hnew (by decide)
  exact ⟨_, hstep, hnew, later, hlater, token, hlookup⟩

end BrowserServe
