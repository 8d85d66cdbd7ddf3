import BrowserServe.Library.Keyed
import BrowserServe.ServerAnswers

namespace BrowserServe
open Library
set_option autoImplicit true

/-- Where the session of a claim comes from: it had it before, took it from the warm stock, or
has just launched it. -/
inductive ClaimOrigin (s : Pool) (a : Action) (c : Nat) (kind : ClaimKind) (x : Session) : Prop
  | before (hc : s.claims[c]? = some ⟨kind, .claimed x⟩)
  | warm (ha : a = .claim c .run) (entry : Warm)
      (hc : s.claims[c]? = some ⟨kind, .popped entry⟩) (hx : entry.session = x)
  | launched (ha : a = .claim c .launchOk) (hc : s.claims[c]? = some ⟨kind, .launching⟩)
      (hx : x = s.inner.created)

theorem Pool.Step.claimed {c : Nat} (h : Pool.Step options s a t)
    (hc : t.claims[c]? = some ⟨kind, .claimed x⟩) : ClaimOrigin s a c kind x := by
  cases h with
  | spawn =>
    rcases getElem?_append_cases hc with ⟨_, heq⟩ | hc
    · cases heq
    · exact .before hc
  | @claim i claim e p phase _ hi h =>
    rcases getElem?_set_cases hc with ⟨rfl, heq⟩ | ⟨_, hc⟩
    · obtain ⟨claimKind, before⟩ := claim
      cases heq
      generalize hafter : ClaimPhase.claimed x = after at h
      cases h with
      | @warmAlive _ entry =>
        cases hafter
        exact .warm rfl entry hi rfl
      | launchOk =>
        cases hafter
        exact .launched rfl hi rfl
      | _ => cases hafter
    · exact .before hc
  | _ => exact .before hc

theorem Pool.Step.keepsKind {c : Nat} (h : Pool.Step options s a t)
    (hc : s.claims[c]? = some ⟨kind, phase⟩) : ∃ phase', t.claims[c]? = some ⟨kind, phase'⟩ := by
  cases h with
  | spawn =>
    exact ⟨phase, (List.getElem?_append_left (List.getElem?_eq_some_iff.1 hc).1).trans hc⟩
  | @claim i _ _ _ _ _ hi h =>
    by_cases hic : i = c
    · subst hic
      rw [hi] at hc
      cases hc
      exact ⟨_, List.getElem?_set_self (List.getElem?_eq_some_iff.1 hi).1⟩
    · exact ⟨phase, (List.getElem?_set_ne hic).trans hc⟩
  | _ => exact ⟨phase, hc⟩

/-- What the pool keeps of its claims: only `claim` looks at the warm stock, and what a claim
has it was handed. -/
structure Pool.Handed (s : Pool) : Prop where
  popped : ∀ (c : Nat) kind entry, s.claims[c]? = some ⟨kind, .popped entry⟩ → kind = .claim
  claimed : ∀ (c : Nat) kind x, s.claims[c]? = some ⟨kind, .claimed x⟩ → x ∈ s.inner.handedOut

theorem ClaimStep.popped (h : ClaimStep options i kind p phase e p' (.popped entry)) :
    kind = .claim := by
  cases h with
  | popWarm hk => exact hk

theorem Pool.Step.handed (h : Pool.Step options s a t) (hs : s.Handed) : t.Handed where
  popped := by
    intro c kind entry hc
    cases h with
    | spawn =>
      rcases getElem?_append_cases hc with ⟨_, heq⟩ | hc
      · cases heq
      · exact hs.popped c kind entry hc
    | claim hi h =>
      rcases getElem?_set_cases hc with ⟨rfl, heq⟩ | ⟨_, hc⟩
      · cases heq
        exact h.popped
      · exact hs.popped c kind entry hc
    | _ => exact hs.popped c kind entry hc
  claimed := by
    intro c kind x hc
    cases h.claimed hc with
    | before hb => exact h.handedOut (hs.claimed c kind x hb)
    | warm ha entry hb hx =>
      subst ha hx
      cases h with
      | claim hi h =>
        rw [hi] at hb
        cases hb
        generalize hbefore : ClaimPhase.popped entry = before at h
        cases h with
        | warmAlive =>
          cases hbefore
          exact List.mem_cons_self
        | warmDead =>
          rw [List.getElem?_set_self (List.getElem?_eq_some_iff.1 hi).1] at hc
          cases hc
        | _ => cases hbefore
    | launched ha hb hx =>
      subst ha hx
      cases h with
      | claim hi h =>
        rw [hi] at hb
        cases hb
        cases h with
        | launchOk => exact List.mem_cons_self

theorem Pool.Step.launched (h : Pool.Step options s (.claim c .launchOk) t) :
    s.inner.created ∈ t.inner.handedOut := by
  cases h with
  | @claim _ claim _ _ _ _ _ h =>
    obtain ⟨kind, phase⟩ := claim
    cases h with
    | launchOk => exact List.mem_cons_self

theorem Pool.handed (h : (Pool.system options).Reachable s) : s.Handed := by
  apply h.invariant ?_ fun _ _ _ _ hi hs => hs.handed hi
  rintro _ rfl
  constructor
  · intro _ _ _ hc
    cases hc
  · intro _ _ _ hc
    cases hc

theorem Pool.Owned.lt_created {s : Pool} (ho : s.Owned) (hx : x ∈ s.inner.handedOut) :
    x < s.inner.created := by
  have hhanded := ho.handed x
  have hcount := List.count_pos_iff.2 hx
  unfold Inner.born at hhanded
  split at hhanded
  · assumption
  · omega

/-- What a claim took from the warm stock has not been handed out. -/
theorem Pool.Owned.not_handedOut {s : Pool} {c : Nat} {entry : Warm} (ho : s.Owned)
    (hc : s.claims[c]? = some ⟨kind, .popped entry⟩) : entry.session ∉ s.inner.handedOut := by
  intro hx
  have hhanded := ho.handed entry.session
  have hborn := s.inner.born_le entry.session
  have hcount := List.count_pos_iff.2 hx
  have hone : (ClaimPhase.popped entry).stock entry.session = 1 := List.count_singleton_self
  have hweight := Nat.le_trans (Nat.le_of_eq hone.symm) (weight_le_total
    (fun c : Claim => c.phase.stock entry.session) (List.mem_of_getElem? hc))
  simp only [Pool.stock] at hhanded
  omega

/-- The claim a handler waits for, and whether it has started a relay. -/
@[simp] def HandlerPhase.waitsFor : HandlerPhase → Option (Nat × Bool)
  | .claiming c relay _ => some (c, relay)
  | _ => none

/-- What one section of a handler does to the claims of the pool. -/
inductive ClaimMove (options : PoolOptions) (i : Nat) (hub : ServerHub) (phase : HandlerPhase)
    (hub' : ServerHub) (phase' : HandlerPhase) : Prop
  | kept (hpool : hub'.state.pool = hub.state.pool) (hrelayed : hub'.relayed = hub.relayed)
      (hphase : phase'.waitsFor = none)
  | spawned (relay : Bool)
      (hp : Pool.Step options hub.state.pool (.spawn (claimKind relay)) hub'.state.pool)
      (hrelayed : hub'.relayed = hub.relayed)
      (hphase : phase'.waitsFor = some (hub.state.pool.claims.length, relay))
  | progressed (hphase : phase.waitsFor = some (c, relay)) (hphase' : phase' = phase)
      (hp : Pool.Step options hub.state.pool (.claim c e) hub'.state.pool)
      (hrelayed : hub'.relayed = if relay ∧ e = .launchOk then
          (hub.state.pool.inner.created, i) :: hub.relayed
        else hub.relayed)
  | released (he : e ≠ .run ∧ e ≠ .launchOk)
      (hp : Pool.Step options hub.state.pool (.claim c e) hub'.state.pool)
      (hrelayed : hub'.relayed = hub.relayed) (hphase : phase'.waitsFor = none)

theorem ClaimMove.release (he : e ≠ .run ∧ e ≠ .launchOk)
    (hp : Pool.Step options hub.state.pool (.claim c e) pool) (hpool : hub'.state.pool = pool)
    (hrelayed : hub'.relayed = hub.relayed) (hphase : phase'.waitsFor = none) :
    ClaimMove options i hub phase hub' phase' :=
  .released he (hpool ▸ hp) hrelayed hphase

theorem HandlerPhase.spent_waitsFor (proxy : Option RequestedProxy) (spentGuard : Bool) :
    (HandlerPhase.spent proxy spentGuard).waitsFor = none := by
  cases proxy <;> rfl

theorem HandlerStep.claims (h : HandlerStep options i request hub phase e hub' phase') :
    ClaimMove options i hub phase hub' phase' := by
  cases h with
  | unlimited => exact .kept rfl rfl (HandlerPhase.spent_waitsFor _ _)
  | spent => exact .kept rfl rfl (HandlerPhase.spent_waitsFor _ _)
  | routePool _ hp => exact .spawned _ hp rfl rfl
  | claim _ hp => exact .progressed rfl rfl hp rfl
  | claimDropped he hp =>
    refine .release ?_ hp (ServerHub.dropGuard_pool _ _) (ServerHub.dropGuard_relayed _ _) rfl
    rcases he with rfl | rfl <;> decide
  | noTransport _ hp =>
    exact .release (by decide) hp (ServerHub.dropGuard_pool _ _) (ServerHub.dropGuard_relayed _ _)
      rfl
  | poolUpgradeFailed hp =>
    exact .release (by decide) hp (ServerHub.dropGuard_pool _ _) (ServerHub.dropGuard_relayed _ _)
      rfl
  | poolServed _ hp => exact .release (by decide) hp rfl rfl rfl
  | _ =>
    first
    | exact .kept rfl rfl rfl
    | exact .kept (ServerHub.dropGuard_pool _ _) (ServerHub.dropGuard_relayed _ _) rfl

/-- A handler waits for a claim of its own, and the record of the relays says how the session
of that claim was launched. -/
structure Server.Relays (s : Server) : Prop where
  handed : ∀ x ∈ s.hub.relayed.map Prod.fst, x ∈ s.hub.state.pool.inner.handedOut
  kinds : ∀ (i : Nat) handler c relay, s.handlers[i]? = some handler →
    handler.phase.waitsFor = some (c, relay) →
      ∃ phase, s.hub.state.pool.claims[c]? = some ⟨claimKind relay, phase⟩
  alone : ∀ (i j : Nat) handler other c relay relay', s.handlers[i]? = some handler →
    s.handlers[j]? = some other → handler.phase.waitsFor = some (c, relay) →
      other.phase.waitsFor = some (c, relay') → i = j
  launched : ∀ (i : Nat) handler c relay kind x, s.handlers[i]? = some handler →
    handler.phase.waitsFor = some (c, relay) →
      s.hub.state.pool.claims[c]? = some ⟨kind, .claimed x⟩ →
        s.hub.relayed.lookup x = if relay then some i else none

/-- A step of the pool that launches nothing for a handler keeps the record true. -/
theorem Server.Relays.of_pool {s : Server} (hs : s.Relays) (ho : s.hub.state.pool.Owned)
    (hh : s.hub.state.pool.Handed) (hub' : ServerHub)
    (hp : Pool.Step options s.hub.state.pool a hub'.state.pool)
    (ha : ∀ c, a ≠ .claim c .launchOk) (hrelayed : hub'.relayed = s.hub.relayed)
    (handlers : List Handler)
    (hkeep : ∀ (i : Nat) handler c relay, handlers[i]? = some handler →
      handler.phase.waitsFor = some (c, relay) →
        ∃ before, s.handlers[i]? = some before ∧ before.phase.waitsFor = some (c, relay)) :
    Server.Relays ⟨hub', handlers⟩ where
  handed := by
    rw [hrelayed]
    exact fun x hx => hp.handedOut (hs.handed x hx)
  kinds := by
    intro i handler c relay hi hwaits
    obtain ⟨before, hb, hbefore⟩ := hkeep i handler c relay hi hwaits
    obtain ⟨_, hc⟩ := hs.kinds i before c relay hb hbefore
    exact hp.keepsKind hc
  alone := by
    intro i j handler other c relay relay' hi hj hwaits hother
    obtain ⟨_, hb, hbefore⟩ := hkeep i handler c relay hi hwaits
    obtain ⟨_, hb', hbefore'⟩ := hkeep j other c relay' hj hother
    exact hs.alone i j _ _ c relay relay' hb hb' hbefore hbefore'
  launched := by
    intro i handler c relay kind x hi hwaits hc
    rw [hrelayed]
    obtain ⟨before, hb, hbefore⟩ := hkeep i handler c relay hi hwaits
    cases hp.claimed hc with
    | before hc => exact hs.launched i before c relay kind x hb hbefore hc
    | warm _ entry hc hx =>
      obtain ⟨_, hkind⟩ := hs.kinds i before c relay hb hbefore
      rw [hc] at hkind
      cases hkind
      have hnotWith := hh.popped c _ entry hc
      cases relay with
      | true => cases hnotWith
      | false =>
        apply lookup_of_not_mem
        intro hmem
        exact ho.not_handedOut hc (hx ▸ hs.handed x hmem)
    | launched heq => exact absurd heq (ha c)

theorem Server.Relays.of_same {s : Server} (hs : s.Relays) (hub' : ServerHub)
    (hpool : hub'.state.pool = s.hub.state.pool) (hrelayed : hub'.relayed = s.hub.relayed)
    (handlers : List Handler)
    (hkeep : ∀ (i : Nat) handler c relay, handlers[i]? = some handler →
      handler.phase.waitsFor = some (c, relay) →
        ∃ before, s.handlers[i]? = some before ∧ before.phase.waitsFor = some (c, relay)) :
    Server.Relays ⟨hub', handlers⟩ where
  handed := by
    rw [hrelayed, hpool]
    exact hs.handed
  kinds := by
    rw [hpool]
    intro i handler c relay hi hwaits
    obtain ⟨before, hb, hbefore⟩ := hkeep i handler c relay hi hwaits
    exact hs.kinds i before c relay hb hbefore
  alone := by
    intro i j handler other c relay relay' hi hj hwaits hother
    obtain ⟨_, hb, hbefore⟩ := hkeep i handler c relay hi hwaits
    obtain ⟨_, hb', hbefore'⟩ := hkeep j other c relay' hj hother
    exact hs.alone i j _ _ c relay relay' hb hb' hbefore hbefore'
  launched := by
    rw [hpool, hrelayed]
    intro i handler c relay kind x hi hwaits hc
    obtain ⟨before, hb, hbefore⟩ := hkeep i handler c relay hi hwaits
    exact hs.launched i before c relay kind x hb hbefore hc

/-- Where handler `i` moves on, another one that waits has waited before. -/
theorem waitsFor_set {handlers : List Handler} {i j : Nat} (hwaits : phase'.waitsFor = none)
    (hj : (handlers.set i ⟨request, phase'⟩)[j]? = some other)
    (hother : other.phase.waitsFor = some (c, relay)) :
    ∃ before, handlers[j]? = some before ∧ before.phase.waitsFor = some (c, relay) := by
  rcases getElem?_set_cases hj with ⟨_, rfl⟩ | ⟨_, hj⟩
  · rw [hwaits] at hother
    cases hother
  · exact ⟨other, hj, hother⟩

theorem Server.Relays.spawn {s : Server} (hs : s.Relays)
    (hp : Pool.Step options s.hub.state.pool (.spawn kind) hub'.state.pool)
    (hkind : kind = claimKind relay) (hrelayed : hub'.relayed = s.hub.relayed)
    (hphase : phase'.waitsFor = some (s.hub.state.pool.claims.length, relay)) :
    Server.Relays ⟨hub', s.handlers.set i ⟨request, phase'⟩⟩ := by
  have hclaims : hub'.state.pool.claims = s.hub.state.pool.claims ++ [⟨kind, .start⟩] := by
    generalize hub'.state.pool = pool at hp
    cases hp
    rfl
  have hless (j : Nat) (other : Handler) (c : Nat) (relay' : Bool)
      (hj : s.handlers[j]? = some other) (hother : other.phase.waitsFor = some (c, relay')) :
      c < s.hub.state.pool.claims.length := by
    obtain ⟨_, hc⟩ := hs.kinds j other c relay' hj hother
    exact (List.getElem?_eq_some_iff.1 hc).1
  constructor
  · rw [hrelayed]
    exact fun x hx => hp.handedOut (hs.handed x hx)
  · intro j other c relay' hj hother
    rcases getElem?_set_cases hj with ⟨_, rfl⟩ | ⟨_, hj⟩
    · cases hphase.symm.trans hother
      refine ⟨.start, ?_⟩
      rw [hclaims, hkind]
      exact List.getElem?_concat_length
    · obtain ⟨_, hc⟩ := hs.kinds j other c relay' hj hother
      exact hp.keepsKind hc
  · intro j k other third c relay₁ relay₂ hj hk hother hthird
    rcases getElem?_set_cases hj with ⟨rfl, rfl⟩ | ⟨_, hj'⟩
    · rcases getElem?_set_cases hk with ⟨rfl, _⟩ | ⟨_, hk'⟩
      · rfl
      · cases hphase.symm.trans hother
        exact absurd (hless k third _ relay₂ hk' hthird) (Nat.lt_irrefl _)
    · rcases getElem?_set_cases hk with ⟨_, rfl⟩ | ⟨_, hk'⟩
      · cases hphase.symm.trans hthird
        exact absurd (hless j other _ relay₁ hj' hother) (Nat.lt_irrefl _)
      · exact hs.alone j k other third c relay₁ relay₂ hj' hk' hother hthird
  · intro j other c relay' kind' x hj hother hc
    rw [hrelayed]
    cases hp.claimed hc with
    | before hb =>
      rcases getElem?_set_cases hj with ⟨_, rfl⟩ | ⟨_, hj⟩
      · cases hphase.symm.trans hother
        exact absurd (List.getElem?_eq_some_iff.1 hb).1 (Nat.lt_irrefl _)
      · exact hs.launched j other c relay' kind' x hj hother hb
    | warm ha => cases ha
    | launched ha => cases ha

/-- A launch through a relay is recorded under the handler that waits for it. -/
theorem Server.Relays.launch {s : Server} {i : Nat} {handler : Handler} {relay : Bool}
    (hs : s.Relays) (ho : s.hub.state.pool.Owned) (hh : s.hub.state.pool.Handed)
    (hi : s.handlers[i]? = some handler)
    (hwaits : handler.phase.waitsFor = some (c, relay))
    (hp : Pool.Step options s.hub.state.pool (.claim c .launchOk) hub'.state.pool)
    (hrelayed : hub'.relayed = if relay then
        (s.hub.state.pool.inner.created, i) :: s.hub.relayed
      else s.hub.relayed) :
    Server.Relays ⟨hub', s.handlers⟩ := by
  have hcreated : s.hub.state.pool.inner.created ∉ s.hub.state.pool.inner.handedOut :=
    fun hx => absurd (ho.lt_created hx) (Nat.lt_irrefl _)
  constructor
  · intro x hx
    rw [hrelayed] at hx
    cases relay with
    | false => exact hp.handedOut (hs.handed x hx)
    | true =>
      rcases List.mem_cons.1 hx with rfl | hx
      · exact hp.launched
      · exact hp.handedOut (hs.handed x hx)
  · intro j other c' relay' hj hother
    obtain ⟨_, hc⟩ := hs.kinds j other c' relay' hj hother
    exact hp.keepsKind hc
  · exact hs.alone
  · intro j other c' relay' kind x hj hother hc
    rw [hrelayed]
    cases hp.claimed hc with
    | before hb =>
      have hold := hs.launched j other c' relay' kind x hj hother hb
      cases relay with
      | false => exact hold
      | true =>
        have hne : x ≠ s.hub.state.pool.inner.created := by
          rintro rfl
          exact hcreated (hh.claimed c' kind _ hb)
        exact (lookup_cons_ne hne).trans hold
    | warm ha => cases ha
    | launched ha _ hx =>
      cases ha
      subst hx
      obtain rfl := hs.alone i j handler other c relay relay' hi hj hwaits hother
      rw [hi] at hj
      cases hj
      cases hwaits.symm.trans hother
      cases relay with
      | false => exact lookup_of_not_mem fun hmem => hcreated (hs.handed _ hmem)
      | true => exact List.lookup_cons_self

theorem Server.Step.relays (h : Server.Step options s a t) (hs : s.Relays)
    (ho : s.hub.state.pool.Owned) (hh : s.hub.state.pool.Handed) : t.Relays := by
  have hid (i : Nat) (handler : Handler) (c : Nat) (relay : Bool)
      (hi : s.handlers[i]? = some handler) (hwaits : handler.phase.waitsFor = some (c, relay)) :
      ∃ before, s.handlers[i]? = some before ∧ before.phase.waitsFor = some (c, relay) :=
    ⟨handler, hi, hwaits⟩
  cases h with
  | arrive =>
    refine hs.of_same _ rfl rfl _ ?_
    intro i handler c relay hi hwaits
    rcases getElem?_append_cases hi with ⟨_, rfl⟩ | hi
    · cases hwaits
    · exact ⟨handler, hi, hwaits⟩
  | @handler i handler e hub' phase' _ hi h =>
    cases h.claims with
    | kept hpool hrelayed hphase =>
      exact hs.of_same _ hpool hrelayed _ fun _ _ _ _ hj hother => waitsFor_set hphase hj hother
    | spawned relay hp hrelayed hphase => exact hs.spawn hp rfl hrelayed hphase
    | released he hp hrelayed hphase =>
      refine hs.of_pool ho hh _ hp ?_ hrelayed _
        fun _ _ _ _ hj hother => waitsFor_set hphase hj hother
      intro c heq
      cases heq
      exact he.2 rfl
    | @progressed c relay e hphase hphase' hp hrelayed =>
      have hsame : s.handlers.set i ⟨handler.request, phase'⟩ = s.handlers := by
        obtain ⟨hlt, rfl⟩ := List.getElem?_eq_some_iff.1 hi
        rw [hphase']
        exact List.set_getElem_self hlt
      rw [hsame]
      by_cases he : e = .launchOk
      · subst he
        refine hs.launch ho hh hi hphase hp ?_
        rw [hrelayed]
        cases relay <;> rfl
      · rw [if_neg fun hboth => he hboth.2] at hrelayed
        refine hs.of_pool ho hh _ hp ?_ hrelayed _ hid
        intro c' heq
        cases heq
        exact he rfl
  | pool ha hp =>
    refine hs.of_pool ho hh (s.hub.withPool _) hp ?_ rfl _ hid
    rintro c rfl
    cases ha
  | calibrated _ hp =>
    exact hs.of_pool ho hh { s.hub.withPool _ with calibration := .swapped } hp
      (fun _ heq => by cases heq) rfl _ hid
  | adjusted _ hp =>
    exact hs.of_pool ho hh { s.hub.withPool _ with calibration := .adjusted } hp
      (fun _ heq => by cases heq) rfl _ hid
  | shutdown _ _ hp =>
    exact hs.of_pool ho hh { s.hub.withPool _ with stopped := true } hp
      (fun _ heq => by cases heq) rfl _ hid
  | _ => exact ⟨hs.handed, hs.kinds, hs.alone, hs.launched⟩

theorem Server.relays (h : (Server.system config).Reachable s) : s.Relays := by
  apply h.invariant
  · rintro _ rfl
    refine ⟨fun _ hx => ?_, fun _ _ _ _ hi => ?_, fun _ _ _ _ _ _ _ hi => ?_,
      fun _ _ _ _ _ _ hi => ?_⟩
    · cases hx
    · cases hi
    · cases hi
    · cases hi
  · intro s a t hreach hs hst
    have hpool := System.guarded_reachable (Server.pool_reachable hreach)
    exact hst.relays hs (Pool.owned hpool) (Pool.handed hpool)

end BrowserServe
