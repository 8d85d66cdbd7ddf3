import BrowserServe.ResumeStep

namespace BrowserServe
open Library
set_option autoImplicit true

/-- The token the channel was made for. -/
def ResumeHub.tokenOf (h : ResumeHub) (chan : Nat) : Option String :=
  h.channels[chan]?.map Channel.token

theorem ResumeHub.tokenOf_lt {h : ResumeHub} (ht : h.tokenOf chan = some token) :
    chan < h.channels.length := by
  obtain ⟨channel, hch, _⟩ := Option.map_eq_some_iff.1 ht
  exact (List.getElem?_eq_some_iff.1 hch).1

theorem tokenOf_set {l : List Channel} {chan c : Nat} (hch : l[chan]? = some channel) :
    (l.set chan ⟨channel.token, buffered, receiver⟩)[c]?.map Channel.token =
      l[c]?.map Channel.token := by
  rw [← List.getElem?_map, ← List.getElem?_map, map_set_eq Channel.token hch]
  rfl

theorem tokenOf_append {l : List Channel} {c : Nat} (ht : l[c]?.map Channel.token = some token) :
    (l ++ [channel])[c]?.map Channel.token = some token := by
  obtain ⟨old, hold, rfl⟩ := Option.map_eq_some_iff.1 ht
  rw [List.getElem?_append_left (List.getElem?_eq_some_iff.1 hold).1, hold]
  rfl

theorem ServeStep.tokenOf (h : ServeStep upgrades token browser hub phase e hub' phase')
    (ht : hub.tokenOf c = some T) : hub'.tokenOf c = some T := by
  cases h with
  | park => exact tokenOf_append ht
  | recv hch hb => exact (tokenOf_set hch).trans ht
  | cleaned hch => exact (tokenOf_set hch).trans ht
  | drop hch => exact (tokenOf_set hch).trans ht
  | _ => exact ht

theorem UpgradeStep.tokenOf (h : UpgradeStep hub u e hub' u') (ht : hub.tokenOf c = some T) :
    hub'.tokenOf c = some T := by
  cases h with
  | sendOk hch => exact (tokenOf_set hch).trans ht
  | _ => exact ht

/-- A channel belongs to the token it was made for through every step. -/
theorem Resume.Step.tokenOf (h : Resume.Step s a t) (ht : s.hub.tokenOf c = some T) :
    t.hub.tokenOf c = some T := by
  cases h with
  | serve _ h => exact h.tokenOf ht
  | upgrade _ h => exact h.tokenOf ht
  | _ => exact ht

/-- Tokens and browsers tell the sessions apart. -/
structure Resume.Distinct (s : Resume) : Prop where
  tokens : (s.sessions.map ServeTask.token).Nodup
  browsers : (s.sessions.map ServeTask.browser).Nodup

theorem Resume.Step.distinct (h : Resume.Step s a t) (hd : s.Distinct) : t.Distinct := by
  cases h with
  | start ht hb =>
    exact ⟨nodup_map_append _ hd.tokens ht, nodup_map_append _ hd.browsers hb⟩
  | @serve i task e hub phase _ ht h =>
    have htokens := map_set_eq (b := { task with phase }) ServeTask.token ht rfl
    have hbrowsers := map_set_eq (b := { task with phase }) ServeTask.browser ht rfl
    exact ⟨htokens.symm ▸ hd.tokens, hbrowsers.symm ▸ hd.browsers⟩
  | _ => exact ⟨hd.tokens, hd.browsers⟩

/-- The senders and sockets of an upgrade callback go to the token of its request. -/
def Upgrade.Routed (hub : ResumeHub) : Upgrade → Prop
  | .upgrading token handoff => hub.tokenOf handoff = some token
  | .sending handoff socket => ∃ token, hub.tokenOf handoff = some token ∧
      socket.presented = some token
  | _ => True

/-- What a session's task holds was made for its token. -/
structure ServeTask.Routed (hub : ResumeHub) (task : ServeTask) : Prop where
  chan : ∀ c, task.phase.chan = some c → hub.tokenOf c = some task.token
  pending : ∀ x, task.phase.pending = some x →
    x.presented = none ∨ x.presented = some task.token

def Channel.Routed (channel : Channel) : Prop :=
  ∀ x, channel.buffered = some x → x.presented = some channel.token

theorem Upgrade.Routed.mono {u : Upgrade} (hu : u.Routed hub)
    (hm : ∀ c T, hub.tokenOf c = some T → hub'.tokenOf c = some T) : u.Routed hub' := by
  cases u with
  | upgrading token handoff => exact hm _ _ hu
  | sending handoff socket =>
    obtain ⟨token, ht, hp⟩ := hu
    exact ⟨token, hm _ _ ht, hp⟩
  | _ => trivial

theorem ServeTask.Routed.mono {task : ServeTask} (ht : task.Routed hub)
    (hm : ∀ c T, hub.tokenOf c = some T → hub'.tokenOf c = some T) : task.Routed hub' :=
  ⟨fun c hc => hm _ _ (ht.chan c hc), ht.pending⟩

theorem ServePhase.chan_of_listing {phase : ServePhase} (h : phase.listing = some c) :
    phase.chan = some c := by
  cases phase <;> simp_all

structure Resume.Routed (s : Resume) : Prop where
  task : ∀ task ∈ s.sessions, task.Routed s.hub
  upgrade : ∀ u ∈ s.upgrades, u.Routed s.hub
  channel : ∀ channel ∈ s.hub.channels, channel.Routed
  parked : ∀ T c, s.hub.registry.parked.lookup T = some c →
    ∃ task ∈ s.sessions, task.token = T ∧ task.phase.listing = some c
  bridged : ∀ b x T, (b, x) ∈ s.hub.bridged → x.presented = some T →
    ∃ task ∈ s.sessions, task.token = T ∧ task.browser = b

theorem ServeStep.task_routed (h : ServeStep upgrades token browser hub phase e hub' phase')
    (ht : ServeTask.Routed hub ⟨token, browser, phase⟩)
    (hch : ∀ channel ∈ hub.channels, channel.Routed) :
    ServeTask.Routed hub' ⟨token, browser, phase'⟩ := by
  have hmono := ht.mono fun c T => h.tokenOf (c := c) (T := T)
  cases h with
  | park =>
    refine ⟨?_, fun x hx => (nomatch hx)⟩
    rintro _ ⟨⟩
    simp [ResumeHub.tokenOf]
  | @recv chan channel socket _ since deadline hc hb =>
    refine ⟨hmono.chan, ?_⟩
    rintro _ ⟨⟩
    have hp := hch channel (List.mem_of_getElem? hc) socket hb
    have ho := ht.chan chan rfl
    simp only [ResumeHub.tokenOf, hc, Option.map_some, Option.some.injEq] at ho
    exact .inr (ho ▸ hp)
  | @unpark _ chan since waited =>
    cases waited with
    | resumed socket => exact ⟨hmono.chan, hmono.pending⟩
    | expired => exact ⟨hmono.chan, fun x hx => (nomatch hx)⟩
    | gone => exact ⟨hmono.chan, fun x hx => (nomatch hx)⟩
  | cleaned hc => exact ⟨fun c hc => (nomatch hc), hmono.pending⟩
  | _ => first
    | exact ⟨hmono.chan, hmono.pending⟩
    | exact ⟨hmono.chan, fun x hx => (nomatch hx)⟩
    | exact ⟨fun c hc => (nomatch hc), fun x hx => (nomatch hx)⟩

theorem ServeStep.channel_routed (h : ServeStep upgrades token browser hub phase e hub' phase')
    (hch : ∀ channel ∈ hub.channels, channel.Routed) :
    ∀ channel ∈ hub'.channels, channel.Routed := by
  cases h with
  | park => exact forall_mem_append_single (fun x hx => (nomatch hx)) hch
  | recv hc => exact forall_mem_set (fun x hx => (nomatch hx)) hch
  | cleaned hc => exact forall_mem_set (fun x hx => (nomatch hx)) hch
  | drop hc => exact forall_mem_set (fun x hx => (nomatch hx)) hch
  | _ => exact hch

theorem UpgradeStep.upgrade_routed (h : UpgradeStep hub u e hub' u') (hu : u.Routed hub) :
    u'.Routed hub' := by
  cases h with
  | upgraded hp => exact ⟨_, hu, hp⟩
  | _ => trivial

theorem UpgradeStep.channel_routed (h : UpgradeStep hub u e hub' u') (hu : u.Routed hub)
    (hch : ∀ channel ∈ hub.channels, channel.Routed) :
    ∀ channel ∈ hub'.channels, channel.Routed := by
  cases h with
  | @sendOk handoff channel _ socket hc =>
    apply forall_mem_set ?_ hch
    obtain ⟨token, ht, hp⟩ := hu
    simp only [ResumeHub.tokenOf, hc, Option.map_some, Option.some.injEq] at ht
    rintro _ ⟨⟩
    exact ht ▸ hp
  | _ => exact hch

/-- How a section of `serve` changes the registry: `park` lists its own token and `unpark`
takes it out again. -/
theorem ServeStep.registry (h : ServeStep upgrades token browser hub phase e hub' phase') :
    (hub'.registry = hub.registry ∧ ∀ c, phase.listing = some c → phase'.listing = some c) ∨
    (phase.listing = none ∧ phase'.listing = some hub.channels.length ∧
      hub'.registry = hub.registry.park token hub.channels.length) ∨
    (hub'.registry = hub.registry.unpark token ∧ phase'.listing = none) := by
  cases h with
  | park => exact .inr (.inl ⟨rfl, rfl, rfl⟩)
  | @unpark _ _ _ waited => cases waited <;> exact .inr (.inr ⟨rfl, rfl⟩)
  | _ => exact .inl ⟨rfl, fun c hc => hc⟩

theorem UpgradeStep.registry (h : UpgradeStep hub u e hub' u') :
    hub'.registry = hub.registry := by
  cases h <;> rfl

/-- Whatever a registry lists after a token left it, it listed before, under another token. -/
theorem ResumeRegistry.lookup_unpark {r : ResumeRegistry}
    (h : (r.unpark token).parked.lookup T = some c) : T ≠ token ∧ r.parked.lookup T = some c := by
  by_cases hT : T = token
  · subst T
    rw [unpark, AList.lookup_erase] at h
    cases h
  · rw [unpark, AList.lookup_erase_ne hT] at h
    exact ⟨hT, h⟩

theorem ResumeRegistry.lookup_park {r : ResumeRegistry}
    (h : (r.park token chan).parked.lookup T = some c) :
    T = token ∧ c = chan ∨ T ≠ token ∧ r.parked.lookup T = some c := by
  by_cases hT : T = token
  · subst T
    rw [park, AList.lookup_insert] at h
    exact .inl ⟨rfl, (Option.some.inj h).symm⟩
  · rw [park, AList.lookup_insert_ne hT] at h
    exact .inr ⟨hT, h⟩

theorem ResumeRegistry.claim_eq {r : ResumeRegistry} (h : r.claim token = (handoff, registry)) :
    r.parked.lookup token = handoff ∧ registry = r.unpark token := by
  cases h
  exact ⟨rfl, rfl⟩

theorem Resume.Step.parked (h : Resume.Step s a t)
    (hp : ∀ T c, s.hub.registry.parked.lookup T = some c →
      ∃ task ∈ s.sessions, task.token = T ∧ task.phase.listing = some c) :
    ∀ T c, t.hub.registry.parked.lookup T = some c →
      ∃ task ∈ t.sessions, task.token = T ∧ task.phase.listing = some c := by
  intro T c hl
  cases h with
  | start =>
    obtain ⟨task, ht, hrest⟩ := hp T c hl
    exact ⟨task, List.mem_append_left _ ht, hrest⟩
  | @serve i task e hub phase _ ht h =>
    rcases h.registry with ⟨hr, hkeep⟩ | ⟨hnone, hnew, hr⟩ | ⟨hr, hnone⟩
    · rw [hr] at hl
      exact exists_mem_set ht (fun hb => ⟨hb.1, hkeep c hb.2⟩) (hp T c hl)
    · rw [hr] at hl
      rcases ResumeRegistry.lookup_park hl with ⟨rfl, rfl⟩ | ⟨hT, hl⟩
      · exact ⟨_, List.mem_set (List.getElem?_eq_some_iff.1 ht).1 _, rfl, hnew⟩
      · exact exists_mem_set ht (fun hb => (hT hb.1.symm).elim) (hp T c hl)
    · rw [hr] at hl
      obtain ⟨hT, hl⟩ := ResumeRegistry.lookup_unpark hl
      exact exists_mem_set ht (fun hb => (hT hb.1.symm).elim) (hp T c hl)
  | claim h =>
    obtain ⟨_, rfl⟩ := ResumeRegistry.claim_eq h
    exact hp T c (ResumeRegistry.lookup_unpark hl).2
  | unknown h =>
    obtain ⟨_, rfl⟩ := ResumeRegistry.claim_eq h
    exact hp T c (ResumeRegistry.lookup_unpark hl).2
  | upgrade _ h =>
    rw [h.registry] at hl
    exact hp T c hl
  | _ => exact hp T c hl

theorem ServeStep.bridged (h : ServeStep upgrades token browser hub phase e hub' phase') :
    hub'.bridged = hub.bridged ∨
      ∃ x, phase.pending = some x ∧ hub'.bridged = (browser, x) :: hub.bridged := by
  cases h with
  | poll => exact .inr ⟨_, rfl, rfl⟩
  | _ => exact .inl rfl

theorem UpgradeStep.bridged (h : UpgradeStep hub u e hub' u') : hub'.bridged = hub.bridged := by
  cases h <;> rfl

theorem Resume.Step.bridged (h : Resume.Step s a t) (hr : s.Routed) :
    ∀ b x T, (b, x) ∈ t.hub.bridged → x.presented = some T →
      ∃ task ∈ t.sessions, task.token = T ∧ task.browser = b := by
  intro b x T hx hp
  cases h with
  | start =>
    obtain ⟨task, ht, hrest⟩ := hr.bridged b x T hx hp
    exact ⟨task, List.mem_append_left _ ht, hrest⟩
  | @serve i task e hub phase _ ht h =>
    rcases h.bridged with hb | ⟨y, hy, hb⟩
    · rw [hb] at hx
      exact exists_mem_set ht id (hr.bridged b x T hx hp)
    · rw [hb] at hx
      cases List.mem_cons.1 hx with
      | inl hx =>
        cases hx
        cases (hr.task task (List.mem_of_getElem? ht)).pending x hy with
        | inl hnone =>
          rw [hnone] at hp
          cases hp
        | inr hsome =>
          rw [hsome] at hp
          cases hp
          exact ⟨_, List.mem_set (List.getElem?_eq_some_iff.1 ht).1 _, rfl, rfl⟩
      | inr hx => exact exists_mem_set ht id (hr.bridged b x T hx hp)
  | upgrade _ h =>
    rw [h.bridged] at hx
    exact hr.bridged b x T hx hp
  | _ => exact hr.bridged b x T hx hp

theorem Resume.Routed.lookup {s : Resume} (hr : s.Routed)
    (h : s.hub.registry.parked.lookup T = some c) : s.hub.tokenOf c = some T := by
  obtain ⟨task, ht, rfl, hl⟩ := hr.parked T c h
  exact (hr.task task ht).chan c (ServePhase.chan_of_listing hl)

theorem Resume.Step.routed (h : Resume.Step s a t) (hr : s.Routed) : t.Routed := by
  have hmono := fun c T => h.tokenOf (c := c) (T := T)
  have hbridged := h.bridged hr
  have hparked := h.parked hr.parked
  have htasks : ∀ task ∈ s.sessions, task.Routed t.hub := fun task ht =>
    (hr.task task ht).mono hmono
  have hupgrades : ∀ u ∈ s.upgrades, u.Routed t.hub := fun u hu => (hr.upgrade u hu).mono hmono
  cases h with
  | start _ _ hp =>
    refine ⟨forall_mem_append_single ⟨fun c hc => (nomatch hc), ?_⟩ htasks, hupgrades,
      hr.channel, hparked, hbridged⟩
    rintro _ ⟨⟩
    exact .inl hp
  | serve ht h =>
    have htask := h.task_routed (hr.task _ (List.mem_of_getElem? ht)) hr.channel
    exact ⟨forall_mem_set htask htasks, hupgrades, h.channel_routed hr.channel, hparked, hbridged⟩
  | claim h =>
    have hroute := hr.lookup (ResumeRegistry.claim_eq h).1
    exact ⟨htasks, forall_mem_append_single hroute hupgrades, hr.channel, hparked, hbridged⟩
  | upgrade hu h =>
    have hroute := hr.upgrade _ (List.mem_of_getElem? hu)
    exact ⟨htasks, forall_mem_set (h.upgrade_routed hroute |>.mono fun _ _ => id) hupgrades,
      h.channel_routed hroute hr.channel, hparked, hbridged⟩
  | _ => exact ⟨htasks, hupgrades, hr.channel, hparked, hbridged⟩

/-- Every channel is claimed at most once, and a claimed one is listed no more. -/
structure Resume.Claimed (s : Resume) : Prop where
  nodup : s.hub.claims.Nodup
  made : ∀ c ∈ s.hub.claims, ∃ T, s.hub.tokenOf c = some T
  unlisted : ∀ c ∈ s.hub.claims, ∀ T, s.hub.registry.parked.lookup T ≠ some c

theorem ServeStep.claims (h : ServeStep upgrades token browser hub phase e hub' phase') :
    hub'.claims = hub.claims := by
  cases h <;> rfl

theorem UpgradeStep.claims (h : UpgradeStep hub u e hub' u') : hub'.claims = hub.claims := by
  cases h <;> rfl

theorem Resume.Step.claimed (h : Resume.Step s a t) (hr : s.Routed) (hc : s.Claimed) :
    t.Claimed := by
  have hmono := fun c T => h.tokenOf (c := c) (T := T)
  have hmade : ∀ c ∈ s.hub.claims, ∃ T, t.hub.tokenOf c = some T := by
    intro c hmem
    obtain ⟨T, hT⟩ := hc.made c hmem
    exact ⟨T, hmono c T hT⟩
  cases h with
  | @serve i task e hub phase _ ht h =>
    refine ⟨h.claims ▸ hc.nodup, h.claims ▸ hmade, h.claims ▸ fun c hmem T hl => ?_⟩
    rcases h.registry with ⟨hreg, _⟩ | ⟨_, _, hreg⟩ | ⟨hreg, _⟩
    · rw [hreg] at hl
      exact hc.unlisted c hmem T hl
    · rw [hreg] at hl
      rcases ResumeRegistry.lookup_park hl with ⟨_, rfl⟩ | ⟨_, hl⟩
      · obtain ⟨T', hT'⟩ := hc.made _ hmem
        exact Nat.lt_irrefl _ (ResumeHub.tokenOf_lt hT')
      · exact hc.unlisted c hmem T hl
    · rw [hreg] at hl
      exact hc.unlisted c hmem T (ResumeRegistry.lookup_unpark hl).2
  | @claim handoff registry _ token h =>
    obtain ⟨hl, rfl⟩ := ResumeRegistry.claim_eq h
    have hfresh : handoff ∉ s.hub.claims := fun hmem => hc.unlisted _ hmem _ hl
    have htoken := hr.lookup hl
    refine ⟨List.nodup_cons.2 ⟨hfresh, hc.nodup⟩, ?_, ?_⟩
    · intro c hmem
      cases List.mem_cons.1 hmem with
      | inl heq => exact ⟨_, heq ▸ htoken⟩
      | inr hmem => exact hmade c hmem
    · intro c hmem T hlist
      obtain ⟨hT, hlist⟩ := ResumeRegistry.lookup_unpark hlist
      cases List.mem_cons.1 hmem with
      | inl heq =>
        have hother := hr.lookup hlist
        rw [heq, htoken] at hother
        exact hT (Option.some.inj hother).symm
      | inr hmem => exact hc.unlisted c hmem T hlist
  | unknown h =>
    obtain ⟨_, rfl⟩ := ResumeRegistry.claim_eq h
    exact ⟨hc.nodup, hmade, fun c hmem T hl =>
      hc.unlisted c hmem T (ResumeRegistry.lookup_unpark hl).2⟩
  | upgrade _ h =>
    refine ⟨h.claims ▸ hc.nodup, h.claims ▸ hmade, h.claims ▸ fun c hmem T hl => ?_⟩
    rw [h.registry] at hl
    exact hc.unlisted c hmem T hl
  | _ => exact ⟨hc.nodup, hmade, hc.unlisted⟩

/-- What holds of the registry, the channels and the claims in every state the server can
reach. -/
structure Resume.Sound (s : Resume) : Prop extends
  Resume.Distinct s, Resume.Routed s, Resume.Claimed s

theorem Resume.Step.sound (h : Resume.Step s a t) (hs : s.Sound) : t.Sound where
  toDistinct := h.distinct hs.toDistinct
  toRouted := h.routed hs.toRouted
  toClaimed := h.claimed hs.toRouted hs.toClaimed

theorem Resume.sound (h : (Resume.system window).Reachable s) : s.Sound := by
  apply h.invariant ?_ fun _ _ _ _ hi hs => hs.sound hi
  intro _ hinit
  cases hinit
  constructor <;> constructor <;> simp [Resume.new, ResumeRegistry.new]

theorem Resume.Step.returned (h : Resume.Step s a t)
    (hr : ∃ task ∈ s.sessions, task.token = T ∧ task.phase = .returned) :
    ∃ task ∈ t.sessions, task.token = T ∧ task.phase = .returned := by
  cases h with
  | start =>
    obtain ⟨task, ht, hrest⟩ := hr
    exact ⟨task, List.mem_append_left _ ht, hrest⟩
  | serve ht h =>
    apply exists_mem_set ht (fun hb => ?_) hr
    rw [hb.2] at h
    cases h
  | _ => exact hr

theorem Resume.Sound.lookup_returned {s : Resume} (hs : s.Sound)
    (hr : ∃ task ∈ s.sessions, task.token = T ∧ task.phase = .returned) :
    s.hub.registry.parked.lookup T = none := by
  obtain ⟨task, ht, htoken, hphase⟩ := hr
  cases hl : s.hub.registry.parked.lookup T with
  | none => rfl
  | some c =>
    obtain ⟨other, ho, hotoken, hlisting⟩ := hs.parked T c hl
    have heq := List.inj_on_of_nodup_map hs.tokens ht ho (htoken.trans hotoken.symm)
    rw [← heq, hphase] at hlisting
    cases hlisting

/-- The one session with the token. -/
def Resume.Owner (s : Resume) (T : String) (task : ServeTask) : Prop :=
  task ∈ s.sessions ∧ task.token = T ∧ ∀ other ∈ s.sessions, other.token = T → other = task

theorem Resume.Distinct.owner {s : Resume} (hd : s.Distinct) (ht : task ∈ s.sessions) :
    s.Owner task.token task :=
  ⟨ht, rfl, fun _ ho hot => List.inj_on_of_nodup_map hd.tokens ho ht hot⟩

/-- Over every run of the server with any number of resumable sessions: only a session
between its own `park` and `unpark` is listed; the token of a session whose `serve` has
returned is listed in no later state; no park is claimed twice; no two sessions bridge to
one browser; and a socket that presented a token was bridged to the browser of the session
with that token only. -/
theorem resume_hand_over_exclusive (h : (Resume.system window).Reachable s) :
    (∀ T c, s.hub.registry.parked.lookup T = some c →
      ∃ task, s.Owner T task ∧ task.phase.listing = some c) ∧
    (∀ task ∈ s.sessions, task.phase = .returned → ∀ as t, (Resume.system window).Run s as t →
      t.hub.registry.parked.lookup task.token = none) ∧
    s.hub.claims.Nodup ∧
    (∀ task ∈ s.sessions, ∀ other ∈ s.sessions, ∀ x y, task.phase = .bridging x →
      other.phase = .bridging y → task.browser = other.browser → task = other) ∧
    (∀ b x T, (b, x) ∈ s.hub.bridged → x.presented = some T →
      ∃ task, s.Owner T task ∧ task.browser = b) := by
  have hs := Resume.sound h
  refine ⟨?_, ?_, hs.nodup, ?_, ?_⟩
  · intro T c hl
    obtain ⟨task, ht, rfl, hlisting⟩ := hs.parked T c hl
    exact ⟨task, hs.owner ht, hlisting⟩
  · intro task ht hphase as t hrun
    have hreturned := hrun.preserves
      (I := fun t => ∃ done ∈ t.sessions, done.token = task.token ∧ done.phase = .returned)
      ⟨task, ht, rfl, hphase⟩ fun _ _ _ hi hst => hst.returned hi
    exact (Resume.sound (hrun.reachable h)).lookup_returned hreturned
  · intro task ht other ho x y _ _ hb
    exact List.inj_on_of_nodup_map hs.browsers ht ho hb
  · intro b x T hx hp
    obtain ⟨task, ht, rfl, hb⟩ := hs.bridged b x T hx hp
    exact ⟨task, hs.owner ht, hb⟩

/-- A client that lost its connection comes back to its browser and finishes there. -/
theorem resume_hand_over_exclusive_resumed :
    ∃ s, (Resume.system 60).Reachable s ∧
      s.hub.bridged = [(7, ⟨1, some "a"⟩), (7, ⟨0, none⟩)] ∧
      s.hub.registry.parked.lookup "a" = none ∧ s.hub.claims.Nodup ∧
      ∃ task, s.Owner "a" task ∧ task.browser = 7 := by
  have hback := Resume.resumes 60 "a" 7 ⟨0, none⟩ ⟨1, some "a"⟩ rfl (by decide)
  have hrun : (Resume.system 60).Run (.resumedOnce 60 "a" 7 ⟨0, none⟩ ⟨1, some "a"⟩)
      [.serve 0 (.bridgeEnd .clientFinished)] _ := .single (.serve rfl (.ended (by decide)))
  have hreach := (((Resume.parks 60 "a" 7 ⟨0, none⟩ rfl).trans hback).trans hrun).reachable
    (.init rfl)
  have hsafe := resume_hand_over_exclusive hreach
  exact ⟨_, hreach, rfl, hsafe.2.1 _ (List.mem_singleton.2 rfl) rfl [] _ .nil, hsafe.2.2.1,
    hsafe.2.2.2.2 7 ⟨1, some "a"⟩ "a" (by decide) rfl⟩

end BrowserServe
