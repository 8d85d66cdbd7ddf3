import BrowserServe.ProfileTokens

namespace BrowserServe
open Library
set_option autoImplicit true

theorem ProfileStore.pickUp_some {store : ProfileStore}
    (h : (store.pickUp now token).1 = some payload) : store.slot token = some (.ready payload) := by
  unfold pickUp at h
  cases hl : (store.sweep now).entries.lookup token with
  | none => simp [hl] at h
  | some entry =>
    obtain ⟨held, since⟩ := entry
    cases held with
    | pending found => simp [hl] at h
    | inFlight => simp [hl] at h
    | ready found =>
      simp only [hl, Option.some.injEq] at h
      subst h
      exact slot_sweep (slot_eq_some.2 ⟨since, hl⟩)

/-- What is ready under a token was, or is the payload of a deposit under it. -/
theorem StoreCall.ready_perform {store : ProfileStore} {call : StoreCall}
    (h : (call.perform now token store).slot other = some (.ready payload)) :
    store.slot other = some (.ready payload) ∨ other = token ∧ call = .depositResult payload := by
  by_cases hin : store.slot token = some .inFlight
  · cases call with
    | finishWithoutResult =>
      cases StoreCall.slot_perform h with
      | inl hsame => exact .inl hsame.1
      | inr hready =>
        obtain ⟨rfl, _⟩ := hready
        rw [perform, ProfileStore.finishWithoutResult_inFlight hin, ProfileStore.slot_erase] at h
        cases h
    | depositResult deposited =>
      rw [perform, ProfileStore.depositResult_inFlight hin] at h
      by_cases hother : other = token
      · subst hother
        rw [ProfileStore.slot_insert] at h
        cases h
        exact .inr ⟨rfl, rfl⟩
      · rw [ProfileStore.slot_insert_ne hother] at h
        exact .inl h
  · cases call with
    | finishWithoutResult =>
      rw [perform, ProfileStore.finishWithoutResult_of_ne hin] at h
      exact .inl h
    | depositResult deposited =>
      rw [perform, ProfileStore.depositResult_of_ne hin] at h
      exact .inl h

/-- Only a session that ends makes its token ready, with the one call it makes. -/
theorem RequestStep.ready (h : RequestStep now token store phase event store' phase')
    (hslot : store'.slot other = some (.ready payload)) :
    store.slot other = some (.ready payload) ∨
      other = token ∧ phase = .running ∧ phase' = .over ∧
        ∃ run, event = .ended run ∧ profileSession run = [.depositResult payload] := by
  cases h with
  | @ended _ run =>
    obtain ⟨call, hcall⟩ := profileSession_single run
    rw [hcall] at hslot
    cases StoreCall.ready_perform hslot with
    | inl hsame => exact .inl hsame
    | inr hdeposit => exact .inr ⟨hdeposit.1, rfl, rfl, run, rfl, hdeposit.2 ▸ hcall⟩
  | claimed h =>
    obtain ⟨_, hflight, hothers⟩ := ProfileStore.claim_some h
    by_cases hother : other = token
    · subst hother
      rw [hflight] at hslot
      cases hslot
    · exact .inl (hothers other _ hother hslot)
  | refused h =>
    rw [ProfileStore.claim_none h] at hslot
    exact .inl (ProfileStore.slot_sweep hslot)
  | _ => exact .inl hslot

theorem RequestStep.pending (h : RequestStep now token store phase event store' phase')
    (hslot : store'.slot other = some (.pending payload)) :
    store.slot other = some (.pending payload) := by
  rcases h.slot hslot with hsame | ⟨_, _, hheld, _⟩ | ⟨_, _, _, hheld⟩
  · exact hsame
  · cases hheld
  · cases hheld

theorem RequestStep.claim_event (h : RequestStep now token store phase event store' phase')
    (hnot : ¬ phase.Claimed) (hc : phase'.Claimed) : event = .claim := by
  cases h with
  | claimed => rfl
  | refused => cases hc
  | dropped => cases hc
  | _ => exact absurd trivial hnot

/-- Every profile the store has, and every claim of one, with what led to it. -/
structure ProfileServer.Traced (as : List ProfileAction) (s : ProfileServer) : Prop where
  pending : ∀ token payload, s.store.slot token = some (.pending payload) →
    .dropOff payload (some token) ∈ as
  claimed : ∀ (i : Nat) token phase, s.requests[i]? = some ⟨token, phase⟩ → phase.Claimed →
    ∃ first, List.Sublist [.dropOff first (some token), .request i .claim] as
  once : ∀ (i j : Nat) token phase phase', s.requests[i]? = some ⟨token, phase⟩ →
    phase.Claimed → s.requests[j]? = some ⟨token, phase'⟩ → phase'.Claimed → i = j
  ready : ∀ token payload, s.store.slot token = some (.ready payload) →
    ∃ first i run, List.Sublist
        [.dropOff first (some token), .request i .claim, .request i (.ended run)] as ∧
      s.requests[i]? = some ⟨token, .over⟩ ∧ profileSession run = [.depositResult payload]

theorem sublist_snoc {l as : List ProfileAction} (h : l.Sublist as) (a : ProfileAction) :
    l.Sublist (as ++ [a]) :=
  h.trans (List.sublist_append_left as [a])

/-- A step that leaves the requests alone and adds no profile but a dropped-off one. -/
theorem ProfileServer.Traced.keep {s t : ProfileServer} (h : s.Traced as)
    (hrequests : t.requests = s.requests)
    (hpending : ∀ token payload, t.store.slot token = some (.pending payload) →
      s.store.slot token = some (.pending payload) ∨ a = .dropOff payload (some token))
    (hready : ∀ token payload, t.store.slot token = some (.ready payload) →
      s.store.slot token = some (.ready payload)) : t.Traced (as ++ [a]) := by
  refine ⟨?_, ?_, ?_, ?_⟩
  · intro token payload hslot
    cases hpending token payload hslot with
    | inl hold => exact List.mem_append_left _ (h.pending token payload hold)
    | inr hnew =>
      rw [hnew]
      exact List.mem_append_right _ (List.mem_singleton_self _)
  · intro i token phase hi hc
    rw [hrequests] at hi
    obtain ⟨first, hsub⟩ := h.claimed i token phase hi hc
    exact ⟨first, sublist_snoc hsub _⟩
  · rw [hrequests]
    exact h.once
  · intro token payload hslot
    obtain ⟨first, i, run, hsub, hi, hrun⟩ := h.ready token payload (hready token payload hslot)
    rw [hrequests]
    exact ⟨first, i, run, sublist_snoc hsub _, hi, hrun⟩

theorem ProfileServer.Traced.request {s : ProfileServer} {i : Nat} {store' : ProfileStore}
    (ht : s.Traced as) (ho : s.Owned) (hi : s.requests[i]? = some ⟨token, phase⟩)
    (h : RequestStep s.now token s.store phase event store' phase') :
    Traced (as ++ [.request i event])
      { s with store := store', requests := s.requests.set i ⟨token, phase'⟩ } := by
  have hlt := (List.getElem?_eq_some_iff.1 hi).1
  -- no other request has claimed a token that is pending when this one claims it
  have halone (hnot : ¬ phase.Claimed) (hc : phase'.Claimed) {j : Nat} {phase'' : RequestPhase}
      (hj : s.requests[j]? = some ⟨token, phase''⟩) : ¬ phase''.Claimed := by
    intro hother
    obtain ⟨⟨payload, hpending⟩, _⟩ := h.claims hnot hc
    exact ho.pending token payload hpending _ (List.mem_of_getElem? hj) hother rfl
  have hclaimed : ∀ (j : Nat) other phase'',
      (s.requests.set i ⟨token, phase'⟩)[j]? = some ⟨other, phase''⟩ → phase''.Claimed →
      ∃ first, List.Sublist [.dropOff first (some other), .request j .claim]
        (as ++ [.request i event]) := by
    intro j other phase'' hj hc
    rcases getElem?_set_cases hj with ⟨rfl, heq⟩ | ⟨_, hold⟩
    · cases heq
      by_cases hold : phase.Claimed
      · obtain ⟨first, hsub⟩ := ht.claimed _ _ _ hi hold
        exact ⟨first, sublist_snoc hsub _⟩
      · obtain ⟨⟨payload, hpending⟩, _⟩ := h.claims hold hc
        have hdropped := ht.pending _ _ hpending
        rw [h.claim_event hold hc]
        exact ⟨payload, (List.singleton_sublist.2 hdropped).append (List.Sublist.refl _)⟩
    · obtain ⟨first, hsub⟩ := ht.claimed _ _ _ hold hc
      exact ⟨first, sublist_snoc hsub _⟩
  refine ⟨?_, hclaimed, ?_, ?_⟩
  · intro other payload hslot
    exact List.mem_append_left _ (ht.pending other payload (h.pending hslot))
  · intro j k other phase₁ phase₂ hj hc₁ hk hc₂
    rcases getElem?_set_cases hj with ⟨rfl, heq⟩ | ⟨hji, hj'⟩
    · cases heq
      rcases getElem?_set_cases hk with ⟨rfl, _⟩ | ⟨hki, hk'⟩
      · rfl
      · by_cases hold : phase.Claimed
        · exact ht.once _ _ _ _ _ hi hold hk' hc₂
        · exact absurd hc₂ (halone hold hc₁ hk')
    · rcases getElem?_set_cases hk with ⟨rfl, heq⟩ | ⟨_, hk'⟩
      · cases heq
        by_cases hold : phase.Claimed
        · exact ht.once _ _ _ _ _ hj' hc₁ hi hold
        · exact absurd hc₁ (halone hold hc₂ hj')
      · exact ht.once _ _ _ _ _ hj' hc₁ hk' hc₂
  · intro other payload hslot
    rcases h.ready hslot with hold | ⟨rfl, rfl, rfl, run, rfl, hrun⟩
    · obtain ⟨first, j, run, hsub, hj, hrun⟩ := ht.ready other payload hold
      refine ⟨first, j, run, sublist_snoc hsub _, ?_, hrun⟩
      by_cases hij : i = j
      · subst j
        cases hi.symm.trans hj
        cases h
      · rw [List.getElem?_set_ne hij]
        exact hj
    · obtain ⟨first, hsub⟩ := ht.claimed i _ _ hi trivial
      exact ⟨first, i, run, hsub.append (List.Sublist.refl [ProfileAction.request i (.ended run)]),
        List.getElem?_set_self hlt, hrun⟩

theorem ProfileServer.Step.traced (h : ProfileServer.Step s a t) (ho : s.Owned)
    (ht : s.Traced as) : t.Traced (as ++ [a]) := by
  cases h with
  | tick => exact ht.keep rfl (fun _ _ h => .inl h) fun _ _ h => h
  | @dropOff fresh _ payload hfresh =>
    refine ht.keep rfl ?_ ?_
    · intro token dropped hslot
      cases ProfileStore.slot_dropOff hslot with
      | inl hold => exact .inl hold
      | inr hnew =>
        obtain ⟨hminted, heq⟩ := hnew
        cases heq
        rw [ProfileStore.dropOff_minted hminted]
        exact .inr rfl
    · intro token dropped hslot
      cases ProfileStore.slot_dropOff hslot with
      | inl hold => exact hold
      | inr hnew => cases hnew.2
  | pickUp =>
    exact ht.keep rfl (fun _ _ h => .inl (ProfileStore.slot_pickUp h)) fun _ _ h =>
      ProfileStore.slot_pickUp h
  | @arrive token =>
    refine ⟨?_, ?_, ?_, ?_⟩
    · intro other payload hslot
      exact List.mem_append_left _ (ht.pending other payload hslot)
    · intro i other phase hi hc
      rcases getElem?_append_cases hi with ⟨_, heq⟩ | hold
      · cases heq
        cases hc
      · obtain ⟨first, hsub⟩ := ht.claimed i other phase hold hc
        exact ⟨first, sublist_snoc hsub _⟩
    · intro i j other phase phase' hi hc hj hc'
      rcases getElem?_append_cases hi with ⟨_, heq⟩ | hi'
      · cases heq
        cases hc
      · rcases getElem?_append_cases hj with ⟨_, heq⟩ | hj'
        · cases heq
          cases hc'
        · exact ht.once _ _ _ _ _ hi' hc hj' hc'
    · intro other payload hslot
      obtain ⟨first, i, run, hsub, hi, hrun⟩ := ht.ready other payload hslot
      have hlt := (List.getElem?_eq_some_iff.1 hi).1
      exact ⟨first, i, run, sublist_snoc hsub _, (List.getElem?_append_left hlt).trans hi, hrun⟩
  | request hi h => exact ht.request ho hi h

theorem ProfileServer.traced (h : (ProfileServer.system life cap).Run (.new life cap) as s) :
    s.Traced as := by
  induction h with
  | nil =>
    exact ⟨fun _ _ hslot => (nomatch hslot), fun _ _ _ hi => (nomatch hi),
      fun _ _ _ _ _ hi => (nomatch hi), fun _ _ hslot => (nomatch hslot)⟩
  | snoc hrun hst ih => exact hst.traced (ProfileServer.owned (hrun.reachable (.init rfl))) ih

theorem toCapture_of_deposit {run : SessionRun}
    (h : profileSession run = [.depositResult payload]) : run.ToCapture := by
  by_contra hnot
  rw [profileSession_finishes hnot] at h
  cases h

/-- What an application picks up is what one session ended on, and that session was the only
one to run on what was dropped off. For every run of the server, with any number of requests
side by side: a claim that succeeds takes a profile that was dropped off under its token and
that no request had before, and a pick-up that succeeds gives the profile which the one request
that claimed its token deposited after a session that came to its capture. -/
theorem profiles_pass_through_sessions
    (h : (ProfileServer.system life cap).Run (.new life cap) as s) (token : String) :
    (∀ payload, (s.store.claim s.now token).1 = some payload →
      .dropOff payload (some token) ∈ as ∧
        ∀ (i : Nat) phase, s.requests[i]? = some ⟨token, phase⟩ → ¬ phase.Claimed) ∧
      ∀ payload, (s.store.pickUp s.now token).1 = some payload →
        ∃ first i run,
          List.Sublist
              [.dropOff first (some token), .request i .claim, .request i (.ended run)] as ∧
            run.ToCapture ∧ profileSession run = [.depositResult payload] ∧
            s.requests[i]? = some ⟨token, .over⟩ ∧
            ∀ (j : Nat) phase, s.requests[j]? = some ⟨token, phase⟩ → phase.Claimed → j = i := by
  have ht := ProfileServer.traced h
  have ho := ProfileServer.owned (h.reachable (.init rfl))
  constructor
  · intro payload hclaim
    have hpending : s.store.slot token = some (.pending payload) :=
      (ProfileStore.claim_some (Prod.ext hclaim rfl)).1
    refine ⟨ht.pending token payload hpending, fun i phase hi hc => ?_⟩
    exact ho.pending token payload hpending _ (List.mem_of_getElem? hi) hc rfl
  · intro payload hpick
    obtain ⟨first, i, run, hsub, hi, hrun⟩ :=
      ht.ready token payload (ProfileStore.pickUp_some hpick)
    exact ⟨first, i, run, hsub, toCapture_of_deposit hrun, hrun, hi,
      fun j phase hj hc => ht.once j i token phase .over hj hc hi trivial⟩

/-- A session whose three reads succeed and find nothing. -/
def SessionRun.plain : SessionRun where
  readOnly := false
  hasPipe := true
  seeded := .ok ()
  served := .bridged .clientFinished
  sent := .ok ()
  inbound := [.ok (.obj [("id", .int 1), ("result", .obj [])])]
  udd := ⟨fun _ => none, ⟨none, none⟩⟩
  codecs := ⟨fun _ => none, fun _ => none⟩
  joined := true

/-- A profile that is dropped off, run on and picked up, while a second request for it is
refused. -/
theorem profiles_pass_through_sessions_refused :
    ∃ as s, (ProfileServer.system PROFILE_TTL MAX_PENDING).Run (.new PROFILE_TTL MAX_PENDING) as s ∧
      s.requests = [⟨"t", .over⟩, ⟨"t", .refused⟩] ∧
      ∃ first i run, List.Sublist
          [.dropOff first (some "t"), .request i .claim, .request i (.ended run)] as ∧
        profileSession run = [.depositResult ⟨[], [], []⟩] := by
  have hclaim : (((ProfileServer.new PROFILE_TTL MAX_PENDING).store.dropOff 0 ⟨[], [⟨"o", []⟩], []⟩
      (some "t")).2).claim 0 "t" = (some ⟨[], [⟨"o", []⟩], []⟩, _) := rfl
  have hrun : (ProfileServer.system PROFILE_TTL MAX_PENDING).Run (.new PROFILE_TTL MAX_PENDING)
      [.dropOff ⟨[], [⟨"o", []⟩], []⟩ (some "t"), .arrive "t", .arrive "t", .request 0 .claim,
        .request 1 .claim, .request 0 .launched, .request 0 .upgraded,
        .request 0 (.ended .plain)] _ :=
    .cons (.dropOff fun _ _ => List.not_mem_nil) <| .cons .arrive <| .cons .arrive <|
      .cons (.request (i := 0) rfl (.claimed hclaim)) <|
      .cons (.request (i := 1) rfl (.refused rfl)) <|
      .cons (.request (i := 0) rfl .launched) <| .cons (.request (i := 0) rfl .upgraded) <|
      .single (.request (i := 0) rfl .ended)
  have hpass := profiles_pass_through_sessions hrun "t"
  obtain ⟨first, i, run, hsub, _, hdeposit, _⟩ := hpass.2 ⟨[], [], []⟩ rfl
  exact ⟨_, _, hrun, rfl, first, i, run, hsub, hdeposit⟩

end BrowserServe
