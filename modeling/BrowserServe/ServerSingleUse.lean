import BrowserServe.ServerAnswers

namespace BrowserServe
open Library
set_option autoImplicit true

theorem ServerHub.dropGuard_singleUse (h : ServerHub) (spentGuard : Bool) :
    (h.dropGuard spentGuard).state.singleUse =
      if spentGuard then h.state.singleUse.map fun single => { single with finished := true }
      else h.state.singleUse := by
  cases spentGuard <;> rfl

/-- What one section of a handler does to the single use and its guard. -/
inductive GuardMove (i : Nat) (hub : ServerHub) (phase : HandlerPhase) (hub' : ServerHub)
    (phase' : HandlerPhase) : Prop
  | kept (hguard : phase'.guarded = phase.guarded)
      (huse : hub'.state.singleUse = hub.state.singleUse) (htakers : hub'.takers = hub.takers)
  | unlimited (hnone : hub.state.singleUse = none)
  | took (hphase : phase = .admitted proxy) (hs : hub.state.singleUse = some single)
      (hfree : single.spent = false) (hguard : phase'.guarded = some true)
      (huse : hub'.state.singleUse = some { single with spent := true })
      (htakers : hub'.takers = i :: hub.takers) (hsent : hub'.sent = hub.sent)
  | ended (hguard : phase.guarded = some spentGuard) (hover : phase' = .over)
      (huse : hub'.state.singleUse = if spentGuard then
          hub.state.singleUse.map fun single => { single with finished := true }
        else hub.state.singleUse)
      (htakers : hub'.takers = hub.takers)

theorem HandlerStep.guard (h : HandlerStep options i request hub phase e hub' phase') :
    GuardMove i hub phase hub' phase' := by
  cases h with
  | unlimited hs => exact .unlimited hs
  | spent hs ht =>
    unfold SingleUse.trySpend at ht
    split at ht
    · cases ht
    · next hfree =>
      cases ht
      exact .took rfl hs (Bool.eq_false_iff.2 hfree) (HandlerPhase.spent_guarded _ _) rfl rfl rfl
  | _ =>
    first
    | exact .kept rfl rfl rfl
    | exact .ended rfl rfl (ServerHub.dropGuard_singleUse _ _) (ServerHub.dropGuard_takers _ _)

theorem HandlerStep.not_over (h : HandlerStep options i request hub phase e hub' phase') :
    phase ≠ .over := by
  rintro rfl
  cases h

/-- The use is taken by one handler at most, which holds the guard until it ends; with its end
the session is marked finished. -/
structure Server.UsedOnce (s : Server) (single : SingleUse) : Prop where
  use : s.hub.state.singleUse = some single
  resume : s.hub.state.resume = none
  holders : ∀ i handler spentGuard, s.handlers[i]? = some handler →
    handler.phase.guarded = some spentGuard →
      spentGuard = true ∧ i ∈ s.hub.takers ∧ single.finished = false
  unspent : single.spent = false → s.hub.takers = [] ∧ single.finished = false
  spent : single.spent = true → ∃ i handler, s.hub.takers = [i] ∧
    s.handlers[i]? = some handler ∧
      (handler.phase.guarded = some true ∧ single.finished = false ∨
        handler.phase = .over ∧ single.finished = true)

theorem Server.UsedOnce.of_hub {s : Server} (hs : s.UsedOnce single) (hub : ServerHub)
    (huse : hub.state.singleUse = s.hub.state.singleUse)
    (hresume : hub.state.resume = none) (htakers : hub.takers = s.hub.takers) :
    Server.UsedOnce ⟨hub, s.handlers⟩ single where
  use := huse.trans hs.use
  resume := hresume
  holders := by
    rw [htakers]
    exact hs.holders
  unspent := by
    rw [htakers]
    exact hs.unspent
  spent := by
    rw [htakers]
    exact hs.spent

theorem Server.UsedOnce.taker {s : Server} (hs : s.UsedOnce single) (hi : i ∈ s.hub.takers) :
    s.hub.takers = [i] ∧ ∃ handler, s.handlers[i]? = some handler ∧
      (handler.phase.guarded = some true ∧ single.finished = false ∨
        handler.phase = .over ∧ single.finished = true) := by
  cases hspent : single.spent with
  | false =>
    rw [(hs.unspent hspent).1] at hi
    cases hi
  | true =>
    obtain ⟨k, handler, htakers, hk, hphase⟩ := hs.spent hspent
    rw [htakers] at hi
    cases List.mem_singleton.1 hi
    exact ⟨htakers, handler, hk, hphase⟩

theorem Server.UsedOnce.move {s : Server} (hs : s.UsedOnce single)
    (hi : s.handlers[i]? = some handler) (hmove : GuardMove i s.hub handler.phase hub' phase')
    (hover : handler.phase ≠ .over) (hresume : hub'.state.resume = none) :
    ∃ single', Server.UsedOnce ⟨hub', s.handlers.set i ⟨handler.request, phase'⟩⟩ single' := by
  have hself := List.getElem?_set_self (a := ⟨handler.request, phase'⟩)
    (List.getElem?_eq_some_iff.1 hi).1
  cases hmove with
  | kept hguard huse htakers =>
    refine ⟨single, huse.trans hs.use, hresume, ?_, ?_, ?_⟩
    · rw [htakers]
      intro j other spentGuard hj hother
      rcases getElem?_set_cases hj with ⟨rfl, rfl⟩ | ⟨_, hj⟩
      · exact hs.holders _ handler spentGuard hi (hguard ▸ hother)
      · exact hs.holders j other spentGuard hj hother
    · rw [htakers]
      exact hs.unspent
    · rw [htakers]
      intro hspent
      obtain ⟨k, other, hk, hother, hphase⟩ := hs.spent hspent
      by_cases hik : i = k
      · subst hik
        rw [hi] at hother
        cases hother
        refine ⟨i, _, hk, hself, .inl ?_⟩
        rcases hphase with ⟨hheld, hfinished⟩ | ⟨hdone, _⟩
        · exact ⟨hguard.trans hheld, hfinished⟩
        · exact absurd hdone hover
      · exact ⟨k, other, hk, (List.getElem?_set_ne hik).trans hother, hphase⟩
  | unlimited hnone =>
    rw [hs.use] at hnone
    cases hnone
  | took hphase hsingle hfree hguard huse htakers =>
    rw [hs.use] at hsingle
    cases hsingle
    obtain ⟨hempty, hfinished⟩ := hs.unspent hfree
    rw [hempty] at htakers
    refine ⟨_, huse, hresume, ?_, ?_, ?_⟩
    · rw [htakers]
      intro j other spentGuard hj hother
      rcases getElem?_set_cases hj with ⟨rfl, rfl⟩ | ⟨_, hj⟩
      · cases hguard.symm.trans hother
        exact ⟨rfl, List.mem_singleton.2 rfl, hfinished⟩
      · obtain ⟨_, hmem, _⟩ := hs.holders j other spentGuard hj hother
        rw [hempty] at hmem
        cases hmem
    · intro hn
      cases hn
    · exact fun _ => ⟨i, _, htakers, hself, .inl ⟨hguard, hfinished⟩⟩
  | @ended spentGuard hguard hdone huse htakers =>
    obtain ⟨rfl, hmem, hfinished⟩ := hs.holders i handler spentGuard hi hguard
    obtain ⟨hone, _⟩ := hs.taker hmem
    subst hdone
    rw [if_pos rfl, hs.use] at huse
    refine ⟨_, huse, hresume, ?_, ?_, ?_⟩
    · intro j other spentGuard hj hother
      rcases getElem?_set_cases hj with ⟨rfl, rfl⟩ | ⟨hne, hj⟩
      · cases hother
      · obtain ⟨_, hmem, _⟩ := hs.holders j other spentGuard hj hother
        rw [hone] at hmem
        exact absurd (List.mem_singleton.1 hmem) hne
    · intro hn
      rw [(hs.unspent hn).1] at hmem
      cases hmem
    · exact fun _ => ⟨i, _, htakers.trans hone, hself, .inr ⟨rfl, rfl⟩⟩

theorem Server.Step.usedOnce (h : Server.Step options s a t) (hs : s.UsedOnce single) :
    ∃ single', t.UsedOnce single' := by
  have hresume : t.hub.state.resume = none := by
    rcases h.resume_cases with heq | ⟨r, _, _, hr, _⟩
    · exact heq.trans hs.resume
    · rw [hs.resume] at hr
      cases hr
  cases h with
  | arrive =>
    refine ⟨single, hs.use, hs.resume, ?_, hs.unspent, fun hspent => ?_⟩
    · intro i handler spentGuard hi hguard
      rcases getElem?_append_cases hi with ⟨_, rfl⟩ | hi
      · cases hguard
      · exact hs.holders i handler spentGuard hi hguard
    · obtain ⟨i, handler, htakers, hi, hphase⟩ := hs.spent hspent
      exact ⟨i, handler, htakers,
        (List.getElem?_append_left (List.getElem?_eq_some_iff.1 hi).1).trans hi, hphase⟩
  | handler hi h => exact hs.move hi h.guard h.not_over hresume
  | _ => exact ⟨single, hs.of_hub _ rfl hresume rfl⟩

theorem Server.usedOnce (hsingle : config.singleUse = true)
    (h : (Server.system config).Reachable s) : ∃ single, s.UsedOnce single := by
  apply h.invariant ?_ fun _ _ _ _ hi hs => hi.elim fun _ hi => hs.usedOnce hi
  rintro _ rfl
  refine ⟨.new, ?_, ?_, fun _ _ _ hi _ => ?_, fun _ => ⟨rfl, rfl⟩, fun hn => ?_⟩
  · simp only [Server.new, AppState.new, if_pos hsingle]
  · simp [Server.new, AppState.new, hsingle]
  · cases hi
  · cases hn

/-- Only a handler that took the use is given a browser, and no early refusal is its answer. -/
structure Server.UseAnswers (s : Server) : Prop where
  given : ∀ i ∈ s.hub.given.map Prod.fst, i ∈ s.hub.takers
  early : ∀ i response, (i, response) ∈ s.hub.sent → response.Early → i ∉ s.hub.takers

theorem Server.UseAnswers.keep {s : Server} (hs : s.UseAnswers) {t : Server}
    (hgiven : t.hub.given = s.hub.given) (hsent : t.hub.sent = s.hub.sent)
    (htakers : t.hub.takers = s.hub.takers) : t.UseAnswers where
  given := by
    rw [hgiven, htakers]
    exact hs.given
  early := by
    rw [hsent, htakers]
    exact hs.early

/-- A handler that has not come to `take_single_use` may be refused early. -/
theorem Server.UseAnswers.refuse {s t : Server} (hs : s.UseAnswers)
    (hgiven : t.hub.given = s.hub.given) (hsent : t.hub.sent = (i, response) :: s.hub.sent)
    (htakers : t.hub.takers = s.hub.takers) (hnot : response.Early → i ∉ s.hub.takers) :
    t.UseAnswers where
  given := by
    rw [hgiven, htakers]
    exact hs.given
  early := by
    rw [hsent, htakers]
    intro j other hmem
    rcases List.mem_cons.1 hmem with heq | hmem
    · cases heq
      exact hnot
    · exact hs.early j other hmem

/-- A handler that holds the guard may be given a browser. -/
theorem Server.UseAnswers.give {s t : Server} (hs : s.UseAnswers) (hi : i ∈ s.hub.takers)
    (hgiven : t.hub.given = (i, browser) :: s.hub.given)
    (hsent : t.hub.sent = (i, response) :: s.hub.sent)
    (htakers : t.hub.takers = s.hub.takers) (hlate : ¬ response.Early) : t.UseAnswers where
  given := by
    rw [hgiven, htakers]
    intro j hmem
    rcases List.mem_cons.1 hmem with rfl | hmem
    · exact hi
    · exact hs.given j hmem
  early := by
    rw [hsent, htakers]
    intro j other hmem
    rcases List.mem_cons.1 hmem with heq | hmem
    · cases heq
      exact fun hearly => absurd hearly hlate
    · exact hs.early j other hmem

theorem sessionResponse_late (resumable : Option String) (proxied : Bool) :
    ¬ (sessionResponse resumable proxied).Early := by
  rintro ⟨reason, _, herror⟩
  rw [(sessionResponse_status resumable proxied).2] at herror
  cases herror

/-- Where no use is taken, the takers stay the same. -/
theorem GuardMove.takers (h : GuardMove i hub phase hub' phase')
    (huse : hub.state.singleUse = some single) (hphase : ∀ proxy, phase ≠ .admitted proxy) :
    hub'.takers = hub.takers := by
  cases h with
  | kept _ _ htakers => exact htakers
  | unlimited hnone =>
    rw [huse] at hnone
    cases hnone
  | took hadmitted => exact absurd hadmitted (hphase _)
  | ended _ _ _ htakers => exact htakers

theorem Server.UsedOnce.not_taker {s : Server} (hs : s.UsedOnce single)
    (hi : s.handlers[i]? = some handler) (hguard : handler.phase.guarded = none)
    (hover : handler.phase ≠ .over) : i ∉ s.hub.takers := by
  intro hmem
  obtain ⟨_, other, hother, hphase⟩ := hs.taker hmem
  rw [hi] at hother
  cases hother
  rcases hphase with ⟨hheld, _⟩ | ⟨hdone, _⟩
  · rw [hguard] at hheld
    cases hheld
  · exact hover hdone

/-- Taking the use answers nothing. -/
theorem Server.UseAnswers.take {s t : Server} (hs : s.UseAnswers) (ha : s.Answers)
    (hi : s.handlers[i]? = some handler) (hphase : ¬ handler.phase.Answered)
    (hgiven : t.hub.given = s.hub.given) (hsent : t.hub.sent = s.hub.sent)
    (htakers : t.hub.takers = i :: s.hub.takers) : t.UseAnswers where
  given := by
    rw [hgiven, htakers]
    exact fun j hmem => List.mem_cons_of_mem i (hs.given j hmem)
  early := by
    rw [hsent, htakers]
    intro j response hmem hearly hj
    rcases List.mem_cons.1 hj with rfl | hj
    · exact (ha.not_mem hi hphase).2 (List.mem_map_of_mem hmem)
    · exact hs.early j response hmem hearly hj

theorem HandlerStep.useAnswers {s : Server} (hs : s.UseAnswers) (hu : s.UsedOnce single)
    (ha : s.Answers) (hi : s.handlers[i]? = some handler)
    (h : HandlerStep options i handler.request s.hub handler.phase e hub' phase') :
    Server.UseAnswers ⟨hub', s.handlers.set i ⟨handler.request, phase'⟩⟩ := by
  have hmove := h.guard
  cases h.answer with
  | quiet hgiven hsent =>
    cases hmove with
    | kept _ _ htakers => exact hs.keep hgiven hsent htakers
    | unlimited hnone =>
      rw [hu.use] at hnone
      cases hnone
    | took hphase _ _ _ _ htakers => exact hs.take ha hi (hphase ▸ id) hgiven hsent htakers
    | ended _ _ _ htakers => exact hs.keep hgiven hsent htakers
  | early response hphase hover hgiven hsent =>
    have htakers := hmove.takers hu.use (hphase ▸ nofun)
    exact hs.refuse hgiven hsent htakers fun _ =>
      hu.not_taker hi (hphase ▸ rfl) (hphase ▸ fun heq => by cases heq)
  | refused response hphase hover hgiven hsent _ hlate =>
    cases hmove with
    | kept _ _ htakers => exact hs.refuse hgiven hsent htakers fun hearly => absurd hearly hlate
    | unlimited hnone =>
      rw [hu.use] at hnone
      cases hnone
    | took _ _ _ _ _ _ hquiet =>
      rw [hquiet] at hsent
      exact absurd hsent.symm (List.cons_ne_self _ _)
    | ended _ _ _ htakers => exact hs.refuse hgiven hsent htakers fun hearly => absurd hearly hlate
  | noTransport response hphase _ hover hgiven hsent _ hlate =>
    have htakers := hmove.takers hu.use (hphase ▸ nofun)
    obtain ⟨_, hmem, _⟩ := hu.holders i handler _ hi (congrArg HandlerPhase.guarded hphase)
    exact hs.give hmem hgiven hsent htakers hlate
  | resumed _ hr =>
    rw [hu.resume] at hr
    cases hr
  | claimed _ hphase _ _ hgiven hsent =>
    have htakers := hmove.takers hu.use (hphase ▸ nofun)
    obtain ⟨_, hmem, _⟩ := hu.holders i handler _ hi (congrArg HandlerPhase.guarded hphase)
    exact hs.give hmem hgiven hsent htakers (sessionResponse_late _ _)
  | created _ hphase _ hgiven hsent =>
    have htakers := hmove.takers hu.use (hphase ▸ nofun)
    obtain ⟨_, hmem, _⟩ := hu.holders i handler _ hi (congrArg HandlerPhase.guarded hphase)
    exact hs.give hmem hgiven hsent htakers (sessionResponse_late _ _)

theorem Server.useAnswers (hsingle : config.singleUse = true)
    (h : (Server.system config).Reachable s) : s.UseAnswers := by
  apply h.invariant
  · rintro _ rfl
    exact ⟨fun _ hm => absurd hm List.not_mem_nil, fun _ _ hm => absurd hm List.not_mem_nil⟩
  · intro s a t hreach hs hst
    obtain ⟨single, hu⟩ := Server.usedOnce hsingle hreach
    cases hst with
    | handler hi h => exact h.useAnswers hs hu (Server.answers hreach) hi
    | _ => exact hs.keep rfl rfl rfl

theorem Server.UsedOnce.given_length {s : Server} (hs : s.UsedOnce single) (ha : s.Answers)
    (hg : s.UseAnswers) : s.hub.given.length ≤ 1 := by
  have hsub : s.hub.given.map Prod.fst ⊆ s.hub.takers := hg.given
  have hle := (List.subperm_of_subset ha.givenOnce hsub).length_le
  rw [List.length_map] at hle
  cases hspent : single.spent with
  | false =>
    rw [(hs.unspent hspent).1] at hle
    exact Nat.le_succ_of_le hle
  | true =>
    obtain ⟨_, _, htakers, _⟩ := hs.spent hspent
    rw [htakers] at hle
    exact hle

/-- In single-use mode, over every run with any number of requests of any kind: at most one
request is ever given a browser, and it is the one that took the use; no request refused early
has taken it; the use is finished exactly when the request that took it has ended, and no
request is past `take_single_use` then; and a finished use lets the shutdown go on. -/
theorem single_use_serves_one (hsingle : config.singleUse = true)
    (h : (Server.system config).Reachable s) :
    ∃ single, s.hub.state.singleUse = some single ∧
      s.hub.given.length ≤ 1 ∧ (∀ i browser, (i, browser) ∈ s.hub.given → s.hub.takers = [i]) ∧
      (∀ i response, (i, response) ∈ s.hub.sent → response.Early → i ∉ s.hub.takers) ∧
      (single.spent = true ↔ s.hub.takers ≠ []) ∧
      (∀ i ∈ s.hub.takers, ∃ handler, s.handlers[i]? = some handler ∧
        (handler.phase = .over ↔ single.finished = true)) ∧
      (single.finished = true → s.hub.takers ≠ [] ∧
        (∀ handler ∈ s.handlers, handler.phase.guarded = none) ∧
        (s.hub.stopped = true ∨ ∃ t, Server.Step config.options s .shutdown t)) := by
  obtain ⟨single, hu⟩ := Server.usedOnce hsingle h
  have hg := Server.useAnswers hsingle h
  have hspent : single.spent = true ↔ s.hub.takers ≠ [] := by
    constructor
    · intro hspent
      obtain ⟨i, _, htakers, _⟩ := hu.spent hspent
      rw [htakers]
      exact List.cons_ne_nil i []
    · intro hne
      cases hspent : single.spent with
      | false => exact absurd (hu.unspent hspent).1 hne
      | true => rfl
  refine ⟨single, hu.use, hu.given_length (Server.answers h) hg, ?_, hg.early, hspent, ?_, ?_⟩
  · intro i browser hmem
    exact (hu.taker (hg.given i (List.mem_map_of_mem hmem))).1
  · intro i hmem
    obtain ⟨_, handler, hi, hphase⟩ := hu.taker hmem
    refine ⟨handler, hi, ?_⟩
    rcases hphase with ⟨hheld, hfinished⟩ | ⟨hover, hfinished⟩
    · rw [hfinished]
      constructor
      · intro hover
        rw [hover] at hheld
        cases hheld
      · intro hn
        cases hn
    · exact ⟨fun _ => hfinished, fun _ => hover⟩
  · intro hfinished
    refine ⟨?_, ?_, ?_⟩
    · apply hspent.1
      cases hs : single.spent with
      | false =>
        rw [(hu.unspent hs).2] at hfinished
        cases hfinished
      | true => rfl
    · intro handler hmem
      obtain ⟨i, hi⟩ := List.mem_iff_getElem?.1 hmem
      cases hguard : handler.phase.guarded with
      | none => rfl
      | some spentGuard =>
        obtain ⟨_, _, hn⟩ := hu.holders i handler spentGuard hi hguard
        rw [hfinished] at hn
        cases hn
    · cases hstopped : s.hub.stopped with
      | true => exact .inl rfl
      | false => exact .inr ⟨_, .shutdown (.inr ⟨single, hu.use, hfinished⟩) hstopped .close⟩

def singleUseConfig : RuntimeConfig where
  minReady := 0
  maxSessions := some 1
  calibrate := false
  maxQueue := 10
  queueTimeout := 30000
  warmIdle := 0
  warmMaxAge := 0
  estimate := 1
  token := none
  pressure := ⟨95, 95⟩
  singleUse := true
  resumeWindow := 0
  proxyEnabled := true
  allowPrivateUpstream := false
  extraFlags := []

/-- One client is served, and its end finishes the use. -/
theorem single_use_serves_one_served :
    ∃ s, (Server.system singleUseConfig).Reachable s ∧ s.hub.given = [(0, ⟨0, none⟩)] ∧
      ∃ single, s.hub.state.singleUse = some single ∧ single.finished = true ∧
        s.hub.given.length ≤ 1 := by
  have hadmitted : admission (AppState.new singleUseConfig) ⟨[], []⟩ = .session none :=
    admission_session rfl rfl rfl (by decide +kernel) (by decide +kernel) rfl rfl
  have hrun : (Server.system singleUseConfig).Run (.new singleUseConfig)
      [.arrive ⟨[], []⟩, .handler 0 .check, .handler 0 .spend, .handler 0 .route,
        .handler 0 (.claim .run), .handler 0 (.claim .run), .handler 0 (.claim .launchOk),
        .handler 0 (.claimed true none), .handler 0 (.upgraded ⟨0, none⟩), .handler 0 .served,
        .pool (.claim 0 .run), .pool (.claim 0 .run), .handler 0 .destroyed] _ :=
    .cons .arrive <|
      .cons (.handler rfl (.admitted hadmitted)) <|
      .cons (.handler rfl (.spent rfl rfl)) <|
      .cons (.handler rfl (.routePool rfl .spawn)) <|
      .cons (.handler rfl (.claim rfl (.claim rfl (.tryAcquireOk rfl)))) <|
      .cons (.handler rfl (.claim rfl (.claim rfl (.noWarm rfl rfl)))) <|
      .cons (.handler rfl (.claim rfl (.claim rfl .launchOk))) <|
      .cons (.handler rfl (.claimed rfl)) <|
      .cons (.handler rfl .poolUpgraded) <|
      .cons (.handler rfl (.poolServed trivial (.claim rfl .destroy))) <|
      .cons (.pool rfl (.claim rfl .destroyed)) <|
      .cons (.pool rfl (.claim rfl .addPermit)) <|
      .single (.handler rfl (.poolDestroyed rfl))
  have hreach := hrun.reachable (.init rfl)
  obtain ⟨single, huse, hlength, _⟩ := single_use_serves_one rfl hreach
  cases huse
  exact ⟨_, hreach, rfl, _, rfl, rfl, hlength⟩

end BrowserServe
