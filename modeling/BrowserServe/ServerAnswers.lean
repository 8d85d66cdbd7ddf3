import BrowserServe.ServerParts

namespace BrowserServe
open Library
set_option autoImplicit true

/-- The handler has answered its request, or ended without an answer. -/
@[simp] def HandlerPhase.Answered : HandlerPhase → Prop
  | .upgrading .. | .seeding .. | .serving .. | .capturing .. | .destroying .. | .over => True
  | _ => False

/-- The `SpentGuard` option of a handler that is past `take_single_use`. -/
@[simp] def HandlerPhase.guarded : HandlerPhase → Option Bool
  | .start | .resuming _ | .admitted _ | .over => none
  | .relayStarting _ spentGuard | .routing _ spentGuard | .claiming _ _ spentGuard
  | .profiling _ _ spentGuard | .creating _ _ spentGuard | .upgrading _ _ spentGuard
  | .seeding _ _ _ spentGuard | .serving _ _ spentGuard | .capturing _ _ spentGuard
  | .destroying _ spentGuard => some spentGuard

@[simp] theorem HandlerPhase.spent_guarded (proxy : Option RequestedProxy) (spentGuard : Bool) :
    (HandlerPhase.spent proxy spentGuard).guarded = some spentGuard := by
  cases proxy <;> rfl

@[simp] theorem HandlerPhase.spent_answered (proxy : Option RequestedProxy)
    (spentGuard : Bool) : ¬ (HandlerPhase.spent proxy spentGuard).Answered := by
  cases proxy <;> exact id

def earlyRefusals : List String :=
  ["unauthorized", "proxy_unsupported", "invalid_proxy", "pressure", "thread_limit",
    "calibrating"]

/-- A refusal for authentication, proxy syntax, host pressure, threads or calibration. -/
def Response.Early (response : Response) : Prop :=
  ∃ reason ∈ earlyRefusals, response.error = some reason

theorem reject_early (h : reason ∈ earlyRefusals) (hs : status ≠ 101) :
    (reject status reason detail).Early ∧ (reject status reason detail).status ≠ 101 :=
  ⟨⟨reason, h, rfl⟩, hs⟩

theorem reject_late (h : reason ∉ earlyRefusals) (hs : status ≠ 101) :
    (reject status reason detail).status ≠ 101 ∧ ¬ (reject status reason detail).Early := by
  refine ⟨hs, ?_⟩
  rintro ⟨early, hmem, heq⟩
  cases heq
  exact h hmem

theorem requestedProxy_error {state : AppState}
    (h : requestedProxy state headers = .error response) :
    response.Early ∧ response.status ≠ 101 := by
  unfold requestedProxy at h
  split at h
  · cases h
  · split at h
    · cases h
      exact reject_early (by decide) (by decide)
    · split at h
      · cases h
        exact reject_early (by decide) (by decide)
      · split at h
        · cases h
          exact reject_early (by decide) (by decide)
        · cases h

/-- The checks before `take_single_use` refuse for these reasons only. -/
theorem admission_refused {state : AppState} (h : admission state request = .refused response) :
    response.Early ∧ response.status ≠ 101 := by
  unfold admission at h
  split at h
  · cases h
    exact ⟨⟨"unauthorized", by decide, rfl⟩, by decide⟩
  · split at h
    · cases h
    · split at h
      · next hproxy =>
        cases h
        exact requestedProxy_error hproxy
      · simp only at h
        split at h
        · cases h
          exact reject_early (by decide) (by decide)
        · split at h
          · cases h
            exact reject_early (by decide) (by decide)
          · split at h
            · cases h
              exact reject_early (by decide) (by decide)
            · split at h
              · cases h
                exact reject_early (by decide) (by decide)
              · cases h

theorem proxyStartRefused_late (e : ProxyError) :
    (proxyStartRefused e).status ≠ 101 ∧ ¬ (proxyStartRefused e).Early := by
  cases e with
  | addressNotAllowed => exact reject_late (by decide) (by decide)
  | _ => exact reject_late (by decide) (by decide)

theorem claimStatus_late (e : ClaimError) :
    (claimStatus e).2 ∉ earlyRefusals ∧ (claimStatus e).1 ≠ 101 := by
  cases e with
  | queueFull => exact ⟨show "queue_full" ∉ earlyRefusals by decide, show 503 ≠ 101 by decide⟩
  | queueTimeout =>
    exact ⟨show "queue_timeout" ∉ earlyRefusals by decide, show 503 ≠ 101 by decide⟩
  | closed => exact ⟨by decide, by decide⟩
  | launch => exact ⟨show "launch_failed" ∉ earlyRefusals by decide, show 503 ≠ 101 by decide⟩

theorem withResumeHeader_status (response : Response) (token : Option String) :
    (withResumeHeader response token).status = response.status ∧
      (withResumeHeader response token).error = response.error := by
  unfold withResumeHeader
  split <;> exact ⟨rfl, rfl⟩

theorem sessionResponse_status (resumable : Option String) (proxied : Bool) :
    (sessionResponse resumable proxied).status = 101 ∧
      (sessionResponse resumable proxied).error = none := by
  obtain ⟨hstatus, herror⟩ := withResumeHeader_status switchingProtocols resumable
  unfold sessionResponse withProxyApplied
  split <;> exact ⟨hstatus, herror⟩

/-- What one section of a handler adds to the answers and the browsers given. -/
inductive HandlerAnswer (i : Nat) (hub : ServerHub) (phase : HandlerPhase) (hub' : ServerHub)
    (phase' : HandlerPhase) : Prop
  | quiet (hgiven : hub'.given = hub.given) (hsent : hub'.sent = hub.sent)
      (hphase : phase.Answered → phase'.Answered)
  | early (response : Response) (hphase : phase = .start) (hover : phase' = .over)
      (hgiven : hub'.given = hub.given) (hsent : hub'.sent = (i, response) :: hub.sent)
      (hstatus : response.status ≠ 101)
  | refused (response : Response) (hphase : ¬ phase.Answered) (hover : phase' = .over)
      (hgiven : hub'.given = hub.given) (hsent : hub'.sent = (i, response) :: hub.sent)
      (hstatus : response.status ≠ 101) (hlate : ¬ response.Early)
  | noTransport (response : Response) (hphase : phase = .claiming c relay spentGuard)
      (hc : hub.state.pool.claims[c]? = some ⟨kind, .claimed session⟩)
      (hover : phase' = .over)
      (hgiven : hub'.given = (i, ⟨i, hub.relayed.lookup session⟩) :: hub.given)
      (hsent : hub'.sent = (i, response) :: hub.sent) (hstatus : response.status ≠ 101)
      (hlate : ¬ response.Early)
  | resumed (hphase : phase = .resuming token) (hr : hub.state.resume = some r)
      (hn : (r.hub.registry.claim token).1 = some handoff) (hover : phase' = .over)
      (hgiven : hub'.given = ((hub.behind r token).map (i, ·)).toList ++ hub.given)
      (hsent : hub'.sent = (i, withResumeHeader switchingProtocols (some token)) :: hub.sent)
  | claimed (resumable : Option String) (hphase : phase = .claiming c relay spentGuard)
      (hc : hub.state.pool.claims[c]? = some ⟨kind, .claimed session⟩)
      (hupgrading : phase' = .upgrading (.pool c) resumable spentGuard)
      (hgiven : hub'.given = (i, ⟨i, hub.relayed.lookup session⟩) :: hub.given)
      (hsent : hub'.sent = (i, sessionResponse resumable relay) :: hub.sent)
  | created (resumable : Option String) (hphase : phase = .creating q relay spentGuard)
      (hupgrading : phase' = .upgrading (.profile q) resumable spentGuard)
      (hgiven : hub'.given = (i, ⟨i, if relay then some i else none⟩) :: hub.given)
      (hsent : hub'.sent = (i, sessionResponse resumable relay) :: hub.sent)

theorem HandlerAnswer.of_reject (hphase : ¬ phase.Answered)
    (hlate : response.status ≠ 101 ∧ ¬ response.Early) (hgiven : hub'.given = hub.given)
    (hsent : hub'.sent = (i, response) :: hub.sent) : HandlerAnswer i hub phase hub' .over :=
  .refused response hphase rfl hgiven hsent hlate.1 hlate.2

theorem HandlerStep.answer (h : HandlerStep options i request hub phase e hub' phase') :
    HandlerAnswer i hub phase hub' phase' := by
  cases h with
  | refused ha => exact .early _ rfl rfl rfl rfl (admission_refused ha).2
  | notResumable => exact .of_reject id (reject_late (by decide) (by decide)) rfl rfl
  | unknownToken => exact .of_reject id (reject_late (by decide) (by decide)) rfl rfl
  | resumed hr hn => exact .resumed rfl hr hn rfl rfl rfl
  | alreadySpent => exact .of_reject id (reject_late (by decide) (by decide)) rfl rfl
  | relayFailed =>
    exact .of_reject id (proxyStartRefused_late _) (ServerHub.dropGuard_given _ _)
      (ServerHub.dropGuard_sent _ _)
  | claimFailed =>
    obtain ⟨hlate, hstatus⟩ := claimStatus_late _
    exact .of_reject id (reject_late hlate hstatus) (ServerHub.dropGuard_given _ _)
      (ServerHub.dropGuard_sent _ _)
  | noTransport hc =>
    obtain ⟨hstatus, hlate⟩ := reject_late (show "internal" ∉ earlyRefusals by decide)
      (show 500 ≠ 101 by decide)
    exact .noTransport _ rfl hc rfl (ServerHub.dropGuard_given _ _) (ServerHub.dropGuard_sent _ _)
      hstatus hlate
  | claimed hc => exact .claimed _ rfl hc rfl rfl rfl
  | profileUnknown =>
    exact .of_reject id (reject_late (by decide) (by decide)) (ServerHub.dropGuard_given _ _)
      (ServerHub.dropGuard_sent _ _)
  | created => exact .created _ rfl rfl rfl rfl
  | createFailed =>
    exact .of_reject id (reject_late (by decide) (by decide)) (ServerHub.dropGuard_given _ _)
      (ServerHub.dropGuard_sent _ _)
  | _ =>
    first
    | exact .quiet rfl rfl id
    | exact .quiet rfl rfl False.elim
    | exact .quiet rfl rfl fun _ => trivial
    | exact .quiet (ServerHub.dropGuard_given _ _) (ServerHub.dropGuard_sent _ _) fun _ => trivial

def AnsweredAt (handlers : List Handler) (i : Nat) : Prop :=
  ∃ handler, handlers[i]? = some handler ∧ handler.phase.Answered

/-- Every handler answers once and is given one browser at most. -/
structure Server.Answers (s : Server) : Prop where
  given : ∀ i ∈ s.hub.given.map Prod.fst, AnsweredAt s.handlers i
  sent : ∀ i ∈ s.hub.sent.map Prod.fst, AnsweredAt s.handlers i
  givenOnce : (s.hub.given.map Prod.fst).Nodup
  sentOnce : (s.hub.sent.map Prod.fst).Nodup

theorem AnsweredAt.set {handlers : List Handler} (h : AnsweredAt handlers j)
    (hi : handlers[i]? = some handler) (hphase : handler.phase.Answered → phase'.Answered) :
    AnsweredAt (handlers.set i ⟨handler.request, phase'⟩) j := by
  obtain ⟨other, hj, hanswered⟩ := h
  by_cases hij : i = j
  · subst hij
    rw [hi] at hj
    cases hj
    exact ⟨_, List.getElem?_set_self (List.getElem?_eq_some_iff.1 hi).1, hphase hanswered⟩
  · exact ⟨other, (List.getElem?_set_ne hij).trans hj, hanswered⟩

theorem Server.Answers.not_mem {s : Server} (hs : s.Answers) (hi : s.handlers[i]? = some handler)
    (hphase : ¬ handler.phase.Answered) :
    i ∉ s.hub.given.map Prod.fst ∧ i ∉ s.hub.sent.map Prod.fst := by
  constructor
  · intro hmem
    obtain ⟨other, hother, hanswered⟩ := hs.given i hmem
    rw [hi] at hother
    cases hother
    exact hphase hanswered
  · intro hmem
    obtain ⟨other, hother, hanswered⟩ := hs.sent i hmem
    rw [hi] at hother
    cases hother
    exact hphase hanswered

theorem Server.Answers.of_handlers {s : Server} (hs : s.Answers) {t : Server}
    (hgiven : t.hub.given = s.hub.given) (hsent : t.hub.sent = s.hub.sent)
    (hkeep : ∀ i, AnsweredAt s.handlers i → AnsweredAt t.handlers i) : t.Answers where
  given := by
    rw [hgiven]
    exact fun i hmem => hkeep i (hs.given i hmem)
  sent := by
    rw [hsent]
    exact fun i hmem => hkeep i (hs.sent i hmem)
  givenOnce := hgiven ▸ hs.givenOnce
  sentOnce := hsent ▸ hs.sentOnce

/-- A handler that has not answered may answer, and be given a browser as it does. -/
theorem Server.Answers.answer {s : Server} (hs : s.Answers) (hi : s.handlers[i]? = some handler)
    (hphase : ¬ handler.phase.Answered) (hanswered : phase'.Answered) (browser : Option Browser)
    (hgiven : hub'.given = (browser.map (i, ·)).toList ++ s.hub.given)
    (hsent : hub'.sent = (i, response) :: s.hub.sent) :
    Server.Answers ⟨hub', s.handlers.set i ⟨handler.request, phase'⟩⟩ := by
  obtain ⟨hnotGiven, hnotSent⟩ := hs.not_mem hi hphase
  have hkeep (j : Nat) (hj : AnsweredAt s.handlers j) :
      AnsweredAt (s.handlers.set i ⟨handler.request, phase'⟩) j := hj.set hi fun _ => hanswered
  have hself : AnsweredAt (s.handlers.set i ⟨handler.request, phase'⟩) i :=
    ⟨_, List.getElem?_set_self (List.getElem?_eq_some_iff.1 hi).1, hanswered⟩
  constructor
  · intro j hmem
    rw [hgiven] at hmem
    cases browser with
    | none => exact hkeep j (hs.given j hmem)
    | some browser =>
      rcases List.mem_cons.1 hmem with rfl | hmem
      · exact hself
      · exact hkeep j (hs.given j hmem)
  · intro j hmem
    rw [hsent] at hmem
    rcases List.mem_cons.1 hmem with rfl | hmem
    · exact hself
    · exact hkeep j (hs.sent j hmem)
  · rw [hgiven]
    cases browser with
    | none => exact hs.givenOnce
    | some browser => exact List.nodup_cons.2 ⟨hnotGiven, hs.givenOnce⟩
  · rw [hsent]
    exact List.nodup_cons.2 ⟨hnotSent, hs.sentOnce⟩

theorem Server.Step.answers (h : Server.Step options s a t) (hs : s.Answers) : t.Answers := by
  cases h with
  | arrive =>
    refine hs.of_handlers rfl rfl ?_
    rintro i ⟨handler, hi, hanswered⟩
    exact ⟨handler, (List.getElem?_append_left (List.getElem?_eq_some_iff.1 hi).1).trans hi,
      hanswered⟩
  | handler hi h =>
    cases h.answer with
    | quiet hgiven hsent hphase =>
      exact hs.of_handlers hgiven hsent fun j hj => hj.set hi hphase
    | early response hphase hover hgiven hsent =>
      exact hs.answer hi (hphase ▸ id) (hover ▸ trivial) none hgiven hsent
    | refused response hphase hover hgiven hsent =>
      exact hs.answer hi hphase (hover ▸ trivial) none hgiven hsent
    | noTransport response hphase _ hover hgiven hsent =>
      exact hs.answer hi (hphase ▸ id) (hover ▸ trivial) (some _) hgiven hsent
    | resumed hphase _ _ hover hgiven hsent =>
      exact hs.answer hi (hphase ▸ id) (hover ▸ trivial) _ hgiven hsent
    | claimed _ hphase _ hupgrading hgiven hsent =>
      exact hs.answer hi (hphase ▸ id) (hupgrading ▸ trivial) (some _) hgiven hsent
    | created _ hphase hupgrading hgiven hsent =>
      exact hs.answer hi (hphase ▸ id) (hupgrading ▸ trivial) (some _) hgiven hsent
  | _ => exact hs.of_handlers rfl rfl fun _ => id

theorem Server.answers (h : (Server.system config).Reachable s) : s.Answers := by
  apply h.invariant ?_ fun _ _ _ _ hi hs => hs.answers hi
  rintro _ rfl
  exact ⟨fun _ hm => absurd hm List.not_mem_nil, fun _ hm => absurd hm List.not_mem_nil,
    List.nodup_nil, List.nodup_nil⟩

end BrowserServe
