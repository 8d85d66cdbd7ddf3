import BrowserServe.ResumeExclusive
import BrowserServe.ServerRelays

namespace BrowserServe
open Library
set_option autoImplicit true

theorem insert_applied {response : Response} (h : name ≠ PROXY_APPLIED_HEADER) :
    PROXY_APPLIED_HEADER ∈ (response.insert name value).headers.map Prod.fst ↔
      PROXY_APPLIED_HEADER ∈ response.headers.map Prod.fst := by
  simp only [Response.insert, List.map_cons, List.mem_cons, h.symm, false_or]
  simp only [List.mem_map, List.mem_filter, decide_eq_true_eq]
  constructor
  · rintro ⟨header, ⟨hmem, _⟩, heq⟩
    exact ⟨header, hmem, heq⟩
  · rintro ⟨header, hmem, heq⟩
    exact ⟨header, ⟨hmem, heq ▸ h.symm⟩, heq⟩

theorem withResumeHeader_applied (response : Response) (token : Option String) :
    PROXY_APPLIED_HEADER ∈ (withResumeHeader response token).headers.map Prod.fst ↔
      PROXY_APPLIED_HEADER ∈ response.headers.map Prod.fst := by
  unfold withResumeHeader
  split
  · exact insert_applied (by decide)
  · exact Iff.rfl

/-- The answer of `resume_session` never has the header. -/
theorem resumed_unapplied (token : String) :
    PROXY_APPLIED_HEADER ∉
      (withResumeHeader switchingProtocols (some token)).headers.map Prod.fst := by
  rw [withResumeHeader_applied]
  exact List.not_mem_nil

/-- A session's first answer has the header if it has started a relay. -/
theorem sessionResponse_applied (resumable : Option String) (proxied : Bool) :
    PROXY_APPLIED_HEADER ∈ (sessionResponse resumable proxied).headers.map Prod.fst ↔
      proxied = true := by
  obtain ⟨hstatus, _⟩ := withResumeHeader_status switchingProtocols resumable
  have hnone := withResumeHeader_applied switchingProtocols resumable
  cases proxied with
  | false =>
    rw [sessionResponse, withProxyApplied, if_neg (fun h => by cases h.1), hnone]
    exact ⟨fun h => absurd h List.not_mem_nil, fun h => by cases h⟩
  | true =>
    rw [sessionResponse, withProxyApplied, if_pos ⟨rfl, hstatus⟩]
    exact ⟨fun _ => rfl, fun _ => List.mem_cons_self⟩

/-- A handler with a browser and an upgrade or a profile to seed in front of it. -/
@[simp] def HandlerPhase.Unserved : HandlerPhase → Prop
  | .upgrading .. | .seeding .. => True
  | _ => False

theorem Resume.Step.tasks (h : Resume.Step s a t) (ht : task ∈ t.sessions) :
    (∃ old ∈ s.sessions, old.browser = task.browser) ∨
      ∃ token socket, a = .start token task.browser socket := by
  cases h with
  | start =>
    rcases List.mem_append.1 ht with ht | ht
    · exact .inl ⟨task, ht, rfl⟩
    · cases List.mem_singleton.1 ht
      exact .inr ⟨_, _, rfl⟩
  | serve hi =>
    rcases List.mem_or_eq_of_mem_set ht with ht | rfl
    · exact .inl ⟨task, ht, rfl⟩
    · exact .inl ⟨_, List.mem_of_getElem? hi, rfl⟩
  | _ => exact .inl ⟨task, ht, rfl⟩

/-- A handler starts the `serve` task of its own browser only. -/
theorem HandlerStep.tasks (h : HandlerStep options i request hub phase e hub' phase')
    (hr' : hub'.state.resume = some r') (ht : task ∈ r'.sessions) :
    (∃ r, hub.state.resume = some r ∧ ∃ old ∈ r.sessions, old.browser = task.browser) ∨
      (task.browser = i ∧ phase.Unserved) := by
  have hold (r : Resume) (a : ResumeAction) (hr : hub.state.resume = some r)
      (hs : Resume.Step r a r')
      (ha : ∀ token socket, a = .start token task.browser socket →
        task.browser = i ∧ phase.Unserved) :
      (∃ r, hub.state.resume = some r ∧ ∃ old ∈ r.sessions, old.browser = task.browser) ∨
        (task.browser = i ∧ phase.Unserved) := by
    rcases hs.tasks ht with hsome | ⟨token, socket, heq⟩
    · exact .inl ⟨r, hr, hsome⟩
    · exact .inr (ha token socket heq)
  cases h with
  | unknownToken hr _ hs =>
    cases hr'
    exact hold _ _ hr hs fun _ _ heq => by cases heq
  | resumed hr _ hs =>
    cases hr'
    exact hold _ _ hr hs fun _ _ heq => by cases heq
  | poolUpgradedResumable hr hs =>
    cases hr'
    apply hold _ _ hr hs
    rintro token socket heq
    cases heq
    exact ⟨rfl, trivial⟩
  | loadedResumable hr hs =>
    cases hr'
    apply hold _ _ hr hs
    rintro token socket heq
    cases heq
    exact ⟨rfl, trivial⟩
  | _ =>
    first
    | exact .inl ⟨r', hr', task, ht, rfl⟩
    | rw [ServerHub.dropGuard_resume] at hr'
      exact .inl ⟨r', hr', task, ht, rfl⟩

/-- A handler that comes to hold a browser was given it. -/
theorem HandlerStep.unserved (h : HandlerStep options i request hub phase e hub' phase')
    (hphase : phase'.Unserved) :
    phase.Unserved ∨ ∃ browser, hub'.given = (i, browser) :: hub.given := by
  cases h with
  | @unlimited _ proxy => cases proxy <;> cases hphase
  | @spent _ _ _ proxy => cases proxy <;> cases hphase
  | claimed => exact .inr ⟨_, rfl⟩
  | created => exact .inr ⟨_, rfl⟩
  | profileUpgraded => exact .inl trivial
  | _ => cases hphase

/-- Every browser given is one of the server's own sessions, and every `serve` task has one
that was given. -/
structure Server.Given (s : Server) : Prop where
  own : ∀ i browser, s.hub.given.lookup i = some browser →
    browser.relay = none ∨ browser.relay = some browser.session
  tasks : ∀ r, s.hub.state.resume = some r → ∀ task ∈ r.sessions,
    task.browser ∈ s.hub.given.map Prod.fst
  holders : ∀ (i : Nat) handler, s.handlers[i]? = some handler → handler.phase.Unserved →
    i ∈ s.hub.given.map Prod.fst

/-- The browser a parked session's token leads to. -/
theorem Server.Given.behind {s : Server} (hs : s.Given) (hr : s.hub.state.resume = some r)
    (hsound : r.Sound) (hn : (r.hub.registry.claim token).1 = some handoff) :
    ∃ k browser, s.hub.behind r token = some browser ∧ s.hub.given.lookup k = some browser := by
  obtain ⟨task, ht, htoken, _⟩ := hsound.parked token handoff hn
  have hfind : ∃ found, r.sessions.find? (fun task => task.token = token) = some found := by
    apply Option.isSome_iff_exists.1
    rw [List.find?_isSome]
    exact ⟨task, ht, decide_eq_true htoken⟩
  obtain ⟨found, hfound⟩ := hfind
  obtain ⟨browser, hbrowser⟩ :=
    exists_lookup (hs.tasks r hr found (List.mem_of_find?_eq_some hfound))
  refine ⟨found.browser, browser, ?_, hbrowser⟩
  rw [ServerHub.behind, hfound]
  exact hbrowser

theorem lookup_give {given : List (Nat × Browser)} {browser : Option Browser} {i j : Nat}
    (h : ((browser.map (i, ·)).toList ++ given).lookup j = some found) :
    browser = some found ∨ given.lookup j = some found := by
  cases browser with
  | none => exact .inr h
  | some browser =>
    by_cases hji : j = i
    · subst hji
      exact .inl ((List.lookup_cons_self).symm.trans h)
    · exact .inr ((lookup_cons_ne hji).symm.trans h)

/-- What a handler is given with its answer is a browser of its own, or the one of the
session it resumes. -/
theorem Server.Given.answered {s : Server} (hs : s.Given) (hrelays : s.Relays)
    (hsound : ∀ r, s.hub.state.resume = some r → r.Sound) (hi : s.handlers[i]? = some handler)
    (h : HandlerAnswer i s.hub handler.phase hub' phase') :
    ∃ browser : Option Browser, hub'.given = (browser.map (i, ·)).toList ++ s.hub.given ∧
      ∀ b, browser = some b → b.relay = none ∨ b.relay = some b.session := by
  have hlaunched (c : Nat) (relay spentGuard : Bool) (kind : ClaimKind) (session : Session)
      (hphase : handler.phase = .claiming c relay spentGuard)
      (hc : s.hub.state.pool.claims[c]? = some ⟨kind, .claimed session⟩) :
      s.hub.relayed.lookup session = none ∨ s.hub.relayed.lookup session = some i := by
    rw [hrelays.launched i handler c relay kind session hi (hphase ▸ rfl) hc]
    cases relay with
    | true => exact .inr rfl
    | false => exact .inl rfl
  cases h with
  | quiet hgiven => exact ⟨none, hgiven, fun b hb => by cases hb⟩
  | early _ _ _ hgiven => exact ⟨none, hgiven, fun b hb => by cases hb⟩
  | refused _ _ _ hgiven => exact ⟨none, hgiven, fun b hb => by cases hb⟩
  | noTransport _ hphase hc _ hgiven =>
    refine ⟨some _, hgiven, ?_⟩
    rintro b ⟨⟩
    exact hlaunched _ _ _ _ _ hphase hc
  | resumed _ hr hn _ hgiven =>
    obtain ⟨k, browser, hbehind, hk⟩ := hs.behind hr (hsound _ hr) hn
    refine ⟨_, hgiven, ?_⟩
    intro b hb
    cases hbehind.symm.trans hb
    exact hs.own k browser hk
  | claimed _ hphase hc _ hgiven =>
    refine ⟨some _, hgiven, ?_⟩
    rintro b ⟨⟩
    exact hlaunched _ _ _ _ _ hphase hc
  | @created _ relay _ _ _ _ hgiven =>
    refine ⟨some _, hgiven, ?_⟩
    rintro b ⟨⟩
    cases relay with
    | true => exact .inr rfl
    | false => exact .inl rfl

theorem Server.Step.given (h : Server.Step options s a t) (hs : s.Given) (hrelays : s.Relays)
    (hsound : ∀ r, s.hub.state.resume = some r → r.Sound) : t.Given := by
  cases h with
  | arrive =>
    refine ⟨hs.own, hs.tasks, ?_⟩
    intro i handler hi hunserved
    rcases getElem?_append_cases hi with ⟨_, rfl⟩ | hi
    · cases hunserved
    · exact hs.holders i handler hi hunserved
  | @handler i handler e hub' phase' _ hi h =>
    obtain ⟨browser, hgiven, hown⟩ := hs.answered hrelays hsound hi h.answer
    have hkeep (k : Nat) (hk : k ∈ s.hub.given.map Prod.fst) :
        k ∈ hub'.given.map Prod.fst := by
      rw [hgiven, List.map_append]
      exact List.mem_append_right _ hk
    constructor
    · intro k found hk
      rw [hgiven] at hk
      rcases lookup_give hk with heq | hk
      · exact hown found heq
      · exact hs.own k found hk
    · intro r' hr' task ht
      rcases h.tasks hr' ht with ⟨r, hr, old, hold, heq⟩ | ⟨heq, hunserved⟩
      · rw [← heq]
        exact hkeep _ (hs.tasks r hr old hold)
      · rw [heq]
        exact hkeep _ (hs.holders _ _ hi hunserved)
    · intro j other hj hunserved
      rcases getElem?_set_cases hj with ⟨rfl, rfl⟩ | ⟨_, hj⟩
      · rcases h.unserved hunserved with hold | ⟨found, hnew⟩
        · exact hkeep _ (hs.holders _ _ hi hold)
        · have hmem : j ∈ hub'.given.map Prod.fst := by
            rw [hnew]
            exact List.mem_cons_self
          exact hmem
      · exact hkeep _ (hs.holders j other hj hunserved)
  | resume ha hr h =>
    refine ⟨hs.own, ?_, hs.holders⟩
    rintro _ ⟨⟩ task ht
    rcases h.tasks ht with ⟨old, hold, heq⟩ | ⟨token, socket, rfl⟩
    · rw [← heq]
      exact hs.tasks _ hr old hold
    · cases ha
  | cancel =>
    refine ⟨hs.own, ?_, hs.holders⟩
    intro r hr task ht
    obtain ⟨old, hold, rfl⟩ := Option.map_eq_some_iff.1 hr
    exact hs.tasks old hold task ht
  | _ => exact ⟨hs.own, hs.tasks, hs.holders⟩

theorem Server.sound (h : (Server.system config).Reachable s) (r : Resume)
    (hr : s.hub.state.resume = some r) : r.Sound :=
  Resume.sound (Server.resume_reachable h hr)

theorem Server.given (h : (Server.system config).Reachable s) : s.Given := by
  apply h.invariant
  · rintro _ rfl
    refine ⟨?_, ?_, ?_⟩
    · intro _ _ hi
      cases hi
    · intro r hr task ht
      simp only [Server.new, AppState.new] at hr
      split at hr
      · cases hr
        cases ht
      · cases hr
    · intro _ _ hi
      cases hi
  · exact fun s a t hreach hs hst => hst.given hs (Server.relays hreach) (Server.sound hreach)

/-- The answer has the header if and only if the browser was launched through a relay for its
session. -/
def Response.Tells (response : Response) (browser : Browser) : Prop :=
  PROXY_APPLIED_HEADER ∈ response.headers.map Prod.fst ↔ browser.relay = some browser.session

/-- Every upgrade that was answered with 101 has a browser, and the answer tells the truth
about it. -/
def Server.Truthful (s : Server) : Prop :=
  ∀ i response, (i, response) ∈ s.hub.sent → response.status = 101 →
    ∃ browser, s.hub.given.lookup i = some browser ∧ response.Tells browser

/-- The browser of the parked session that the handler is about to hand its connection to. -/
def HandlerPhase.reattaches (hub : ServerHub) : HandlerPhase → Option Browser
  | .resuming token => hub.state.resume.bind fun r =>
      (r.hub.registry.claim token).1.bind fun _ => hub.behind r token
  | _ => none

/-- No handler hands its connection to a session whose browser was launched through a relay. -/
def Server.ResumesDirect (s : Server) (a : ServerAction) (_ : Server) : Prop :=
  ∀ (i : Nat) event handler browser, a = .handler i event → s.handlers[i]? = some handler →
    handler.phase.reattaches s.hub = some browser → browser.relay = none

theorem Server.Answers.truthful {s t : Server} (hs : s.Answers)
    (hi : s.handlers[i]? = some handler) (hphase : ¬ handler.phase.Answered)
    (browser : Option Browser)
    (hgiven : t.hub.given = (browser.map (i, ·)).toList ++ s.hub.given)
    (hsent : t.hub.sent = (i, response) :: s.hub.sent) :
    t.Truthful ↔ s.Truthful ∧
      (response.status = 101 → ∃ b, browser = some b ∧ response.Tells b) := by
  obtain ⟨hnotGiven, hnotSent⟩ := hs.not_mem hi hphase
  have hself : t.hub.given.lookup i = browser := by
    rw [hgiven]
    cases browser with
    | none => exact lookup_of_not_mem hnotGiven
    | some b => exact List.lookup_cons_self
  have hother (j : Nat) (hj : j ≠ i) : t.hub.given.lookup j = s.hub.given.lookup j := by
    rw [hgiven]
    cases browser with
    | none => rfl
    | some b => exact lookup_cons_ne hj
  have hne (j : Nat) (sent : Response) (hmem : (j, sent) ∈ s.hub.sent) : j ≠ i := by
    rintro rfl
    exact hnotSent (List.mem_map_of_mem hmem)
  unfold Server.Truthful
  rw [hsent]
  constructor
  · intro ht
    refine ⟨fun j sent hmem hstatus => ?_, fun hstatus => ?_⟩
    · obtain ⟨b, hb, htells⟩ := ht j sent (List.mem_cons_of_mem _ hmem) hstatus
      exact ⟨b, (hother j (hne j sent hmem)).symm.trans hb, htells⟩
    · obtain ⟨b, hb, htells⟩ := ht i response List.mem_cons_self hstatus
      exact ⟨b, hself.symm.trans hb, htells⟩
  · rintro ⟨hold, hnew⟩ j sent hmem hstatus
    rcases List.mem_cons.1 hmem with heq | hmem
    · cases heq
      obtain ⟨b, hb, htells⟩ := hnew hstatus
      exact ⟨b, hself.trans hb, htells⟩
    · obtain ⟨b, hb, htells⟩ := hold j sent hmem hstatus
      exact ⟨b, (hother j (hne j sent hmem)).trans hb, htells⟩

theorem HandlerPhase.reattaches_given {phase : HandlerPhase}
    (h : phase.reattaches hub = some browser) : ∃ k, hub.given.lookup k = some browser := by
  cases phase with
  | resuming token =>
    obtain ⟨r, _, h⟩ := Option.bind_eq_some_iff.1 h
    obtain ⟨_, _, h⟩ := Option.bind_eq_some_iff.1 h
    obtain ⟨k, _, hk⟩ := Option.bind_eq_some_iff.1 h
    exact ⟨k, hk⟩
  | _ => cases h

theorem HandlerPhase.reattaches_eq {hub : ServerHub} (hr : hub.state.resume = some r)
    (hn : (r.hub.registry.claim token).1 = some handoff) :
    (HandlerPhase.resuming token).reattaches hub = hub.behind r token := by
  rw [reattaches, hr, Option.bind_some, hn, Option.bind_some]

/-- A handler about to resume a session does that, and answers without the header. -/
theorem HandlerStep.reattached (h : HandlerStep options i request hub phase e hub' phase')
    (hsome : phase.reattaches hub = some browser) :
    ∃ token, hub'.given = (i, browser) :: hub.given ∧
      hub'.sent = (i, withResumeHeader switchingProtocols (some token)) :: hub.sent := by
  cases h with
  | notResumable hr =>
    rw [HandlerPhase.reattaches, hr] at hsome
    cases hsome
  | unknownToken hr hn =>
    rw [HandlerPhase.reattaches, hr, Option.bind_some, hn] at hsome
    cases hsome
  | @resumed _ r token handoff r' hr hn =>
    rw [HandlerPhase.reattaches_eq hr hn] at hsome
    refine ⟨token, ?_, rfl⟩
    simp only [ServerHub.respond, ServerHub.give, ServerHub.withResume, hsome]
    rfl
  | _ => cases hsome

/-- An answer without the header tells the truth about a browser without a relay only. -/
theorem Response.tells_resumed (token : String) {browser : Browser}
    (hown : browser.relay = none ∨ browser.relay = some browser.session) :
    (withResumeHeader switchingProtocols (some token)).Tells browser ↔ browser.relay = none := by
  constructor
  · intro htells
    rcases hown with hnone | hown
    · exact hnone
    · exact absurd (htells.2 hown) (resumed_unapplied token)
  · intro hnone
    refine ⟨fun hmem => absurd hmem (resumed_unapplied token), fun hsome => ?_⟩
    rw [hnone] at hsome
    cases hsome

theorem Response.tells_session (resumable : Option String) (relay : Bool) {browser : Browser}
    (h : browser.relay = if relay then some browser.session else none) :
    (sessionResponse resumable relay).Tells browser := by
  rw [Tells, sessionResponse_applied, h]
  cases relay with
  | true => exact ⟨fun _ => rfl, fun _ => rfl⟩
  | false =>
    constructor
    · intro heq
      cases heq
    · intro heq
      cases heq

theorem HandlerPhase.reattaches_answered {phase : HandlerPhase}
    (h : phase.reattaches hub = some browser) : ¬ phase.Answered := by
  cases phase with
  | resuming => exact id
  | _ => cases h

/-- A resumed connection is told the truth if and only if its session is not proxied. -/
theorem Server.Given.truthful_of_reattach {s : Server} (hgood : s.Given) (hs : s.Answers)
    (hi : s.handlers[i]? = some handler)
    (h : HandlerStep options i handler.request s.hub handler.phase e hub' phase')
    (hsome : handler.phase.reattaches s.hub = some browser) :
    Server.Truthful ⟨hub', s.handlers.set i ⟨handler.request, phase'⟩⟩ ↔
      s.Truthful ∧ browser.relay = none := by
  obtain ⟨k, hk⟩ := HandlerPhase.reattaches_given hsome
  obtain ⟨token, hgiven, hsent⟩ := h.reattached hsome
  have htells := Response.tells_resumed token (hgood.own k browser hk)
  have hstatus := (withResumeHeader_status switchingProtocols (some token)).1
  rw [hs.truthful hi (HandlerPhase.reattaches_answered hsome) (some browser) hgiven hsent]
  apply and_congr_right
  intro _
  constructor
  · intro hnew
    obtain ⟨_, hb, hold⟩ := hnew hstatus
    cases hb
    exact htells.1 hold
  · intro hnone _
    exact ⟨browser, rfl, htells.2 hnone⟩

/-- Any other answer tells the truth. -/
theorem Server.Given.truthful_of_fresh {s : Server} (hgood : s.Given) (hs : s.Answers)
    (hrelays : s.Relays) (hsound : ∀ r, s.hub.state.resume = some r → r.Sound)
    (hi : s.handlers[i]? = some handler)
    (h : HandlerAnswer i s.hub handler.phase hub' phase')
    (hnone : handler.phase.reattaches s.hub = none) :
    Server.Truthful ⟨hub', s.handlers.set i ⟨handler.request, phase'⟩⟩ ↔ s.Truthful := by
  have hanswer (response : Response) (hphase : ¬ handler.phase.Answered)
      (browser : Option Browser)
      (hgiven : hub'.given = (browser.map (i, ·)).toList ++ s.hub.given)
      (hsent : hub'.sent = (i, response) :: s.hub.sent)
      (hnew : response.status = 101 → ∃ b, browser = some b ∧ response.Tells b) :
      Server.Truthful ⟨hub', s.handlers.set i ⟨handler.request, phase'⟩⟩ ↔ s.Truthful :=
    (hs.truthful hi hphase browser hgiven hsent).trans (and_iff_left hnew)
  cases h with
  | quiet hgiven hsent =>
    unfold Server.Truthful
    rw [hgiven, hsent]
  | early response hphase _ hgiven hsent hstatus =>
    exact hanswer response (hphase ▸ id) none hgiven hsent fun heq => absurd heq hstatus
  | refused response hphase _ hgiven hsent hstatus =>
    exact hanswer response hphase none hgiven hsent fun heq => absurd heq hstatus
  | noTransport response hphase _ _ hgiven hsent hstatus =>
    exact hanswer response (hphase ▸ id) (some _) hgiven hsent fun heq => absurd heq hstatus
  | resumed hphase hr hn =>
    obtain ⟨_, browser, hbehind, _⟩ := hgood.behind hr (hsound _ hr) hn
    rw [hphase, HandlerPhase.reattaches_eq hr hn, hbehind] at hnone
    cases hnone
  | claimed resumable hphase hc _ hgiven hsent =>
    apply hanswer _ (hphase ▸ id) (some _) hgiven hsent
    intro _
    refine ⟨_, rfl, Response.tells_session _ _ ?_⟩
    exact hrelays.launched i handler _ _ _ _ hi (hphase ▸ rfl) hc
  | created resumable hphase _ hgiven hsent =>
    apply hanswer _ (hphase ▸ id) (some _) hgiven hsent
    intro _
    exact ⟨_, rfl, Response.tells_session _ _ rfl⟩

theorem Server.resumesDirect_iff {s t : Server} (hi : s.handlers[i]? = some handler) :
    s.ResumesDirect (.handler i e) t ↔
      ∀ browser, handler.phase.reattaches s.hub = some browser → browser.relay = none := by
  constructor
  · intro hdirect browser hsome
    exact hdirect i e handler browser rfl hi hsome
  · intro hdirect j event other browser heq hj hsome
    cases heq
    cases hi.symm.trans hj
    exact hdirect browser hsome

/-- Only a resumed connection to a proxied session is told the wrong thing. -/
theorem Server.Step.truthful (h : Server.Step options s a t) (hs : s.Answers) (hgood : s.Given)
    (hrelays : s.Relays) (hsound : ∀ r, s.hub.state.resume = some r → r.Sound) :
    t.Truthful ↔ s.Truthful ∧ s.ResumesDirect a t := by
  cases h with
  | @handler i handler e hub' phase' _ hi h =>
    rw [Server.resumesDirect_iff hi]
    cases hsome : handler.phase.reattaches s.hub with
    | none =>
      rw [hgood.truthful_of_fresh hs hrelays hsound hi h.answer hsome, and_iff_left]
      intro _ heq
      cases heq
    | some browser =>
      rw [hgood.truthful_of_reattach hs hi h hsome]
      apply and_congr_right
      intro _
      constructor
      · rintro hnone _ ⟨⟩
        exact hnone
      · intro hdirect
        exact hdirect browser rfl
  | _ =>
    apply Iff.symm
    apply and_iff_left
    intro _ _ _ _ heq
    cases heq

/-- Over every run of the server, whatever the requests are: every 101 tells the truth about
the browser behind its connection if and only if no connection is handed to a parked session
whose browser was launched through a relay. -/
theorem proxy_applied_truthful_iff
    (h : (Server.system config).Run (.new config) as s) :
    s.Truthful ↔ ((Server.system config).guarded Server.ResumesDirect).Run (.new config) as s := by
  apply h.guarded_iff (.init rfl)
  · intro i response hmem
    cases hmem
  · intro s a t hreach hst
    exact hst.truthful (Server.answers hreach) (Server.given hreach) (Server.relays hreach)
      (Server.sound hreach)

def resumableConfig : RuntimeConfig where
  minReady := 0
  maxSessions := some 1
  calibrate := false
  maxQueue := 10
  queueTimeout := 30000
  warmIdle := 0
  warmMaxAge := 0
  estimate := 1
  token := none
  pressure := ⟨95, 95⟩
  singleUse := false
  resumeWindow := 5000
  proxyEnabled := true
  allowPrivateUpstream := false
  extraFlags := []

/-- A request for a session through the proxy `http://proxy:8080`. -/
def proxiedRequest : WsRequest :=
  ⟨[], [(PROXY_HEADER, asBytes (text "http://proxy:8080"))]⟩

def requestedUpstream : ProxyUpstream := ⟨.http, text "proxy", 8080, none, none⟩

theorem proxiedRequest_admitted : admission (AppState.new resumableConfig) proxiedRequest =
    .session (some (requestedUpstream, .default)) :=
  admission_session rfl rfl rfl (by decide +kernel) (by decide +kernel) rfl rfl

/-- A proxied session up to its answer. -/
def proxiedSession (token : String) : List ServerAction :=
  [.arrive proxiedRequest, .handler 0 .check, .handler 0 .spend, .handler 0 (.relay (.ok ())),
    .handler 0 .route, .handler 0 (.claim .run), .handler 0 (.claim .run),
    .handler 0 (.claim .launchOk), .handler 0 (.claimed true (some token))]

theorem proxiedSession_run : ∃ s,
    (Server.system resumableConfig).Run (.new resumableConfig) (proxiedSession "t") s ∧
      s.hub.sent = [(0, sessionResponse (some "t") true)] ∧
      s.hub.given = [(0, ⟨0, some 0⟩)] :=
  ⟨_, .cons .arrive <|
    .cons (.handler rfl (.admitted proxiedRequest_admitted)) <|
    .cons (.handler rfl (.unlimited rfl)) <|
    .cons (.handler rfl .relayStarted) <|
    .cons (.handler rfl (.routePool rfl .spawn)) <|
    .cons (.handler rfl (.claim rfl (.claim rfl (.tryAcquireOk rfl)))) <|
    .cons (.handler rfl (.claim rfl (.claim rfl (.launchDedicated rfl)))) <|
    .cons (.handler rfl (.claim rfl (.claim rfl .launchOk))) <|
    .single (.handler rfl (.claimed rfl)), rfl, rfl⟩

/-- The first answer of a proxied session tells the truth. -/
theorem proxy_applied_truthful_iff_first : ∃ s,
    (Server.system resumableConfig).Run (.new resumableConfig) (proxiedSession "t") s ∧
      s.Truthful ∧ ((Server.system resumableConfig).guarded Server.ResumesDirect).Run
        (.new resumableConfig) (proxiedSession "t") s := by
  obtain ⟨s, hrun, hsent, hgiven⟩ := proxiedSession_run
  have htruth : s.Truthful := by
    intro i response hmem _
    rw [hsent] at hmem
    cases List.mem_singleton.1 hmem
    refine ⟨⟨0, some 0⟩, ?_, Response.tells_session (some "t") true rfl⟩
    rw [hgiven]
    exact List.lookup_cons_self
  exact ⟨s, hrun, htruth, (proxy_applied_truthful_iff hrun).1 htruth⟩

/-- A client that comes back to its proxied session gets a 101 without the header. -/
theorem resumed_proxied_unapplied : ∃ s,
    (Server.system resumableConfig).Reachable s ∧ ¬ s.Truthful := by
  have hrun : (Server.system resumableConfig).Run (.new resumableConfig)
      [.arrive proxiedRequest, .handler 0 .check, .handler 0 .spend, .handler 0 (.relay (.ok ())),
        .handler 0 .route, .handler 0 (.claim .run), .handler 0 (.claim .run),
        .handler 0 (.claim .launchOk), .handler 0 (.claimed true (some "t")),
        .handler 0 (.upgraded ⟨0, none⟩), .resume (.serve 0 .poll),
        .resume (.serve 0 (.bridgeEnd .clientGone)), .resume (.serve 0 .park),
        .resume (.serve 0 .arm), .arrive ⟨[("resume", "t")], []⟩, .handler 1 .check,
        .handler 1 .resume] _ :=
    .cons .arrive <|
      .cons (.handler rfl (.admitted proxiedRequest_admitted)) <|
      .cons (.handler rfl (.unlimited rfl)) <|
      .cons (.handler rfl .relayStarted) <|
      .cons (.handler rfl (.routePool rfl .spawn)) <|
      .cons (.handler rfl (.claim rfl (.claim rfl (.tryAcquireOk rfl)))) <|
      .cons (.handler rfl (.claim rfl (.claim rfl (.launchDedicated rfl)))) <|
      .cons (.handler rfl (.claim rfl (.claim rfl .launchOk))) <|
      .cons (.handler rfl (.claimed rfl)) <|
      .cons (.handler rfl (.poolUpgradedResumable rfl
        (.start List.not_mem_nil List.not_mem_nil rfl List.not_mem_nil))) <|
      .cons (.resume rfl rfl (.serve rfl .poll)) <|
      .cons (.resume rfl rfl (.serve rfl .clientGone)) <|
      .cons (.resume rfl rfl (.serve rfl .park)) <|
      .cons (.resume rfl rfl (.serve rfl .arm)) <|
      .cons .arrive <|
      .cons (.handler rfl (.resuming rfl)) <|
      .single (.handler rfl (.resumed rfl
        (congrArg Prod.fst (ResumeRegistry.claim_park (.new 5000) "t" 0))
        (.claim (ResumeRegistry.claim_park (.new 5000) "t" 0))))
  refine ⟨_, hrun.reachable (.init rfl), ?_⟩
  intro htruth
  obtain ⟨browser, hgiven, htells⟩ := htruth 1 _ List.mem_cons_self rfl
  cases hgiven
  exact resumed_unapplied "t" (htells.2 rfl)

end BrowserServe
