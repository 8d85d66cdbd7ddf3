import BrowserServe.ResumeDelivery

namespace BrowserServe
open Library
set_option autoImplicit true

/-- The channel of a session that waits for its client, and since when. -/
@[simp] def ServePhase.parkedSince : ServePhase → Option (Nat × Nat)
  | .arming chan since | .waiting chan since _ => some (chan, since)
  | _ => none

theorem ServePhase.chan_of_parkedSince {phase : ServePhase}
    (h : phase.parkedSince = some (c, since)) : phase.chan = some c := by
  cases phase <;> simp_all

/-- A client that claimed the session still has the sender, or its socket arrived. -/
def ResumeHub.Handed (h : ResumeHub) (upgrades : List Upgrade) (c : Nat) : Prop :=
  some c ∈ upgrades.map Upgrade.handoff ∨
    ∃ channel, h.channels[c]? = some channel ∧ channel.buffered ≠ none

/-- A session that waits and whose window is not over can be claimed with its token, or was
handed to a client. -/
def ServeTask.Kept (hub : ResumeHub) (upgrades : List Upgrade) (task : ServeTask) : Prop :=
  ∀ c since, task.phase.parkedSince = some (c, since) → hub.now < since + hub.registry.window →
    hub.registry.parked.lookup task.token = some c ∨ hub.Handed upgrades c

/-- Sessions live for their window: none expired before its end, and until then each that
waits is kept. -/
structure Resume.KeepsWindow (s : Resume) : Prop where
  expiries : ∀ e ∈ s.hub.expiries, e.since + s.hub.registry.window ≤ e.endedAt
  parked : ∀ task ∈ s.sessions, task.Kept s.hub s.upgrades

/-- A step that lets no claimed sender go while its session still waits out its window. -/
def Resume.KeepsSender (s : Resume) : ResumeAction → Prop
  | .upgrade j .abandoned => ∀ u c, s.upgrades[j]? = some u → u.handoff = some c →
      ∀ task ∈ s.sessions, ∀ since, task.phase.parkedSince = some (c, since) →
        since + s.hub.registry.window ≤ s.hub.now
  | _ => True

theorem ServeStep.window (h : ServeStep upgrades token browser hub phase e hub' phase') :
    hub'.registry.window = hub.registry.window ∧ hub'.now = hub.now := by
  cases h <;> exact ⟨rfl, rfl⟩

theorem UpgradeStep.window (h : UpgradeStep hub u e hub' u') :
    hub'.registry.window = hub.registry.window ∧ hub'.now = hub.now := by
  cases h <;> exact ⟨rfl, rfl⟩

/-- A section of one session's `serve` leaves the other tokens' channels and entries alone. -/
theorem ServeStep.others (h : ServeStep upgrades token browser hub phase e hub' phase')
    (hown : ∀ c, phase.chan = some c → hub.tokenOf c = some token)
    (hT : hub.tokenOf c = some T) (hne : T ≠ token) :
    hub'.channels[c]? = hub.channels[c]? ∧
      hub'.registry.parked.lookup T = hub.registry.parked.lookup T := by
  have hc : ∀ chan, phase.chan = some chan → chan ≠ c := by
    rintro chan hchan rfl
    have htoken := hown chan hchan
    rw [hT] at htoken
    exact hne (Option.some.inj htoken)
  cases h with
  | park =>
    refine ⟨List.getElem?_append_left (ResumeHub.tokenOf_lt hT), ?_⟩
    exact AList.lookup_insert_ne hne
  | recv => exact ⟨List.getElem?_set_ne (hc _ rfl), rfl⟩
  | unpark => exact ⟨rfl, AList.lookup_erase_ne hne⟩
  | cleaned => exact ⟨List.getElem?_set_ne (hc _ rfl), rfl⟩
  | drop => exact ⟨List.getElem?_set_ne (hc _ rfl), rfl⟩
  | _ => exact ⟨rfl, rfl⟩

/-- After a step of one session, every session is that one moved on or another one. -/
theorem Resume.Distinct.mem_set {s : Resume} (hd : s.Distinct) {task : ServeTask}
    (ht : s.sessions[i]? = some task) (hmem : other ∈ s.sessions.set i moved) :
    other = moved ∨ other ∈ s.sessions ∧ other.token ≠ task.token := by
  obtain ⟨j, hj⟩ := List.getElem?_of_mem hmem
  rcases getElem?_set_cases hj with ⟨_, rfl⟩ | ⟨hne, hold⟩
  · exact .inl rfl
  · refine .inr ⟨List.mem_of_getElem? hold, fun heq => hne ?_⟩
    have hlt : j < (s.sessions.map ServeTask.token).length := by
      simpa using (List.getElem?_eq_some_iff.1 hold).1
    exact (List.getElem?_inj hlt hd.tokens).1 (by simp [hold, ht, heq])

/-- The receiver of a session's channel is open as long as its task has it, and the deadline
of its wait is late enough. -/
structure ServeTask.Waits (hub : ResumeHub) (task : ServeTask) : Prop where
  live : ∀ c, task.phase.chan = some c →
    ∃ channel, hub.channels[c]? = some channel ∧ channel.receiver = true
  arming : ∀ c since, task.phase = .arming c since → since ≤ hub.now
  waiting : ∀ c since deadline, task.phase = .waiting c since deadline →
    since + hub.registry.window ≤ deadline

theorem ServeStep.live (h : ServeStep upgrades token browser hub phase e hub' phase')
    (hl : ∀ c, phase.chan = some c →
      ∃ channel, hub.channels[c]? = some channel ∧ channel.receiver = true) :
    ∀ c, phase'.chan = some c →
      ∃ channel, hub'.channels[c]? = some channel ∧ channel.receiver = true := by
  intro c hc
  cases h with
  | park =>
    cases hc
    exact ⟨_, List.getElem?_concat_length, rfl⟩
  | recv hch hb =>
    obtain ⟨channel, hlive, hr⟩ := hl c hc
    cases hc
    rw [hch] at hlive
    cases hlive
    exact ⟨_, List.getElem?_set_self (List.getElem?_eq_some_iff.1 hch).1, hr⟩
  | @unpark _ _ _ waited => cases waited <;> exact hl c hc
  | cleaned => cases hc
  | drop => cases hc
  | _ => exact hl c hc

theorem ServeStep.waits (h : ServeStep upgrades token browser hub phase e hub' phase')
    (hw : ServeTask.Waits hub ⟨token, browser, phase⟩) :
    ServeTask.Waits hub' ⟨token, browser, phase'⟩ := by
  have hlive := h.live hw.live
  cases h with
  | park =>
    refine ⟨hlive, ?_, fun c since deadline hp => (nomatch hp)⟩
    rintro _ _ ⟨⟩
    exact Nat.le_refl _
  | arm =>
    refine ⟨hlive, fun c since hp => (nomatch hp), ?_⟩
    rintro _ _ _ ⟨⟩
    exact Nat.add_le_add_right (hw.arming _ _ rfl) _
  | frame => exact ⟨hlive, hw.arming, hw.waiting⟩
  | @unpark _ _ _ waited =>
    cases waited <;>
      exact ⟨hlive, fun c since hp => (nomatch hp), fun c since deadline hp => (nomatch hp)⟩
  | _ =>
    exact ⟨hlive, fun c since hp => (nomatch hp), fun c since deadline hp => (nomatch hp)⟩

theorem UpgradeStep.live (h : UpgradeStep hub u e hub' u') {c : Nat}
    (hl : ∃ channel, hub.channels[c]? = some channel ∧ channel.receiver = true) :
    ∃ channel, hub'.channels[c]? = some channel ∧ channel.receiver = true := by
  cases h with
  | @sendOk handoff _ _ _ hch hr =>
    by_cases hc : handoff = c
    · subst c
      exact ⟨_, List.getElem?_set_self (List.getElem?_eq_some_iff.1 hch).1, hr⟩
    · obtain ⟨channel, hold, hopen⟩ := hl
      exact ⟨channel, (List.getElem?_set_ne hc).trans hold, hopen⟩
  | _ => exact hl

theorem Resume.Step.waits (h : Resume.Step s a t) (hs : s.Sound)
    (hw : ∀ task ∈ s.sessions, task.Waits s.hub) : ∀ task ∈ t.sessions, task.Waits t.hub := by
  intro task hmem
  cases h with
  | tick =>
    have hold := hw task hmem
    exact ⟨hold.live, fun c since hp => Nat.le_succ_of_le (hold.arming c since hp), hold.waiting⟩
  | start =>
    cases List.mem_append.1 hmem with
    | inl hmem => exact ⟨(hw task hmem).live, (hw task hmem).arming, (hw task hmem).waiting⟩
    | inr hmem =>
      cases List.mem_singleton.1 hmem
      exact ⟨fun c hc => (nomatch hc), fun c since hp => (nomatch hp),
        fun c since deadline hp => (nomatch hp)⟩
  | @serve i owner e hub phase _ ht h =>
    have howner := List.mem_of_getElem? ht
    rcases hs.mem_set ht hmem with rfl | ⟨hmem, hne⟩
    · exact h.waits (hw owner howner)
    · obtain ⟨hwindow, hnow⟩ := h.window
      have hold := hw task hmem
      refine ⟨fun c hc => ?_, hnow ▸ hold.arming, hwindow ▸ hold.waiting⟩
      have hT := (hs.task task hmem).chan c hc
      rw [(h.others (hs.task owner howner).chan hT hne).1]
      exact hold.live c hc
  | upgrade _ h =>
    obtain ⟨hwindow, hnow⟩ := h.window
    have hold := hw task hmem
    exact ⟨fun c hc => h.live (hold.live c hc), hnow ▸ hold.arming, hwindow ▸ hold.waiting⟩
  | claim h =>
    obtain ⟨_, rfl⟩ := ResumeRegistry.claim_eq h
    exact ⟨(hw task hmem).live, (hw task hmem).arming, (hw task hmem).waiting⟩
  | unknown h =>
    obtain ⟨_, rfl⟩ := ResumeRegistry.claim_eq h
    exact ⟨(hw task hmem).live, (hw task hmem).arming, (hw task hmem).waiting⟩
  | shutdown => exact ⟨(hw task hmem).live, (hw task hmem).arming, (hw task hmem).waiting⟩

/-- How many clients a channel was handed to: callbacks with its sender, and a socket in its
buffer. -/
def Resume.handoffs (c : Nat) (s : Resume) : Nat :=
  total (fun u => u.handoff.toList.count c) s.upgrades +
    ((s.hub.channels[c]?.bind Channel.buffered).toList).length

theorem ServeStep.handoffs (h : ServeStep upgrades token browser hub phase e hub' phase')
    (c : Nat) :
    ((hub'.channels[c]?.bind Channel.buffered).toList).length ≤
      ((hub.channels[c]?.bind Channel.buffered).toList).length := by
  have hset {chan : Nat} {channel : Channel} (hch : hub.channels[chan]? = some channel)
      {receiver : Bool} :
      (((hub.channels.set chan ⟨channel.token, none, receiver⟩)[c]?.bind
          Channel.buffered).toList).length ≤
        ((hub.channels[c]?.bind Channel.buffered).toList).length := by
    by_cases hc : chan = c
    · subst c
      rw [List.getElem?_set_self (List.getElem?_eq_some_iff.1 hch).1]
      exact Nat.zero_le _
    · rw [List.getElem?_set_ne hc]
  cases h with
  | park =>
    by_cases hc : c < hub.channels.length
    · exact Nat.le_of_eq (by rw [List.getElem?_append_left hc])
    · cases hch : (hub.channels ++ [⟨token, none, true⟩])[c]? with
      | none => exact Nat.zero_le _
      | some channel =>
        rcases getElem?_append_cases hch with ⟨_, rfl⟩ | hold
        · exact Nat.zero_le _
        · exact (hc (List.getElem?_eq_some_iff.1 hold).1).elim
  | recv hch hb => exact hset hch
  | cleaned hch => exact hset hch
  | drop hch => exact hset hch
  | _ => exact Nat.le_refl _

theorem UpgradeStep.handoffs (h : UpgradeStep hub u e hub' u') (c : Nat) :
    u'.handoff.toList.count c + ((hub'.channels[c]?.bind Channel.buffered).toList).length ≤
      u.handoff.toList.count c + ((hub.channels[c]?.bind Channel.buffered).toList).length := by
  cases h with
  | @sendOk handoff channel _ socket hch hr hb =>
    by_cases hc : handoff = c
    · subst c
      rw [List.getElem?_set_self (List.getElem?_eq_some_iff.1 hch).1]
      simp
    · rw [List.getElem?_set_ne hc]
      simp
  | abandoned => exact Nat.add_le_add_right (Nat.zero_le _) _
  | sendErr => exact Nat.add_le_add_right (Nat.zero_le _) _
  | _ => exact Nat.le_refl _

/-- A channel is handed to as many clients as claimed it, so to one at most. -/
theorem Resume.Step.handoffs (h : Resume.Step s a t)
    (hs : ∀ c, s.handoffs c ≤ s.hub.claims.count c) (c : Nat) :
    t.handoffs c ≤ t.hub.claims.count c := by
  have hc := hs c
  cases h with
  | serve _ h =>
    have := h.handoffs c
    simp only [Resume.handoffs, h.claims] at *
    omega
  | claim =>
    simp only [Resume.handoffs, total_append, total_cons, total_nil, Upgrade.handoff,
      Option.toList_some, List.count_cons, List.count_nil] at *
    omega
  | @upgrade j u e hub u' _ hu h =>
    have := h.handoffs c
    have := total_set (fun u : Upgrade => u.handoff.toList.count c) hu u'
    simp only [Resume.handoffs, h.claims] at *
    omega
  | _ => exact hc

structure Resume.Timed (s : Resume) : Prop extends Resume.Sound s where
  waits : ∀ task ∈ s.sessions, task.Waits s.hub
  handoffs : ∀ c, s.handoffs c ≤ s.hub.claims.count c

theorem Resume.timed (h : (Resume.system window).Reachable s) : s.Timed := by
  apply h.invariant ?_ fun _ _ _ _ hi hs =>
    ⟨hs.sound hi.toSound, hs.waits hi.toSound hi.waits, hs.handoffs hi.handoffs⟩
  intro _ hinit
  cases hinit
  exact ⟨Resume.sound (.init rfl), fun task hmem => (nomatch hmem), fun c => Nat.le_refl _⟩

/-- A channel whose last sender a callback lets go of was handed to nobody else. -/
theorem Resume.Timed.abandoned {s : Resume} (hs : s.Timed) (hu : s.upgrades[j]? = some u)
    (hc : u.handoff = some c) :
    (∀ T, s.hub.registry.parked.lookup T ≠ some c) ∧
      ¬ s.hub.Handed (s.upgrades.set j .over) c := by
  have hle := hs.handoffs c
  have honce := List.nodup_iff_count_le_one.1 hs.nodup c
  have hset := total_set (fun u : Upgrade => u.handoff.toList.count c) hu .over
  have hover : Upgrade.over.handoff = none := rfl
  simp only [hc, hover, Option.toList_some, Option.toList_none, List.count_singleton_self,
    List.count_nil] at hset
  simp only [Resume.handoffs] at hle
  refine ⟨hs.unlisted c (List.count_pos_iff.1 (by omega)), ?_⟩
  rintro (hmem | ⟨channel, hch, hb⟩)
  · obtain ⟨u', hu', hc'⟩ := List.mem_map.1 hmem
    have hw := weight_le_total (fun u : Upgrade => u.handoff.toList.count c) hu'
    simp only [hc', Option.toList_some, List.count_singleton_self] at hw
    omega
  · obtain ⟨x, hx⟩ := Option.ne_none_iff_exists'.1 hb
    simp only [hch, Option.bind_some, hx, Option.toList_some, List.length_singleton] at hle
    omega

theorem ResumeHub.hasSender_of_lookup {h : ResumeHub}
    (hl : h.registry.parked.lookup T = some c) : h.hasSender upgrades c :=
  .inl (List.mem_map.2 ⟨⟨T, c⟩, AList.mem_lookup_iff.1 hl, rfl⟩)

/-- A session expires at its deadline, or when its last sender is gone. -/
theorem ServeStep.expiries (h : ServeStep upgrades token browser hub phase e hub' phase')
    (hw : ServeTask.Waits hub ⟨token, browser, phase⟩)
    (hk : ServeTask.Kept hub upgrades ⟨token, browser, phase⟩)
    (he : ∀ e ∈ hub.expiries, e.since + hub.registry.window ≤ e.endedAt) :
    ∀ e ∈ hub'.expiries, e.since + hub.registry.window ≤ e.endedAt := by
  cases h with
  | @recvNone chan channel _ since _ hch hb hs =>
    apply List.forall_mem_cons.2 ⟨?_, he⟩
    by_contra hlt
    rcases hk chan since rfl (Nat.not_le.1 hlt) with hl | hup | ⟨channel', hch', hb'⟩
    · exact hs (ResumeHub.hasSender_of_lookup hl)
    · exact hs (.inr hup)
    · rw [hch] at hch'
      cases hch'
      exact hb' hb
  | deadline hd =>
    apply List.forall_mem_cons.2 ⟨?_, he⟩
    exact Nat.le_trans (hw.waiting _ _ _ rfl) hd
  | _ => exact he

theorem UpgradeStep.expiries (h : UpgradeStep hub u e hub' u') :
    hub'.expiries = hub.expiries := by
  cases h <;> rfl

theorem ServeStep.kept_task (h : ServeStep upgrades token browser hub phase e hub' phase')
    (hk : ServeTask.Kept hub upgrades ⟨token, browser, phase⟩) :
    ServeTask.Kept hub' upgrades ⟨token, browser, phase'⟩ := by
  intro c since hp hnow
  cases h with
  | park =>
    cases hp
    exact .inl (AList.lookup_insert _)
  | @unpark _ _ _ waited => cases waited <;> cases hp
  | arm => exact hk c since hp hnow
  | frame => exact hk c since hp hnow
  | _ => cases hp

theorem ServeStep.kept_other (h : ServeStep upgrades token browser hub phase e hub' phase')
    (hown : ∀ c, phase.chan = some c → hub.tokenOf c = some token) {task : ServeTask}
    (ht : task.Routed hub) (hne : task.token ≠ token) (hk : task.Kept hub upgrades) :
    task.Kept hub' upgrades := by
  intro c since hp hnow
  obtain ⟨hwindow, hclock⟩ := h.window
  have htoken := ht.chan c (ServePhase.chan_of_parkedSince hp)
  obtain ⟨hch, hl⟩ := h.others hown htoken hne
  rw [hwindow, hclock] at hnow
  simpa only [ResumeHub.Handed, hch, hl] using hk c since hp hnow

theorem mem_handoffs_set {upgrades : List Upgrade} {j : Nat} (hu : upgrades[j]? = some u)
    (hkeep : u.handoff = some c → u'.handoff = some c)
    (hmem : some c ∈ upgrades.map Upgrade.handoff) :
    some c ∈ (upgrades.set j u').map Upgrade.handoff := by
  obtain ⟨v, hv, hc⟩ := List.mem_map.1 hmem
  obtain ⟨w, hw, hc'⟩ := exists_mem_set (P := fun v => v.handoff = some c) hu hkeep ⟨v, hv, hc⟩
  exact List.mem_map.2 ⟨w, hw, hc'⟩

/-- A step of a callback keeps the session it may hand to, unless it lets the sender go. -/
theorem UpgradeStep.handed (h : UpgradeStep hub u e hub' u') (hu : upgrades[j]? = some u)
    (he : e = .abandoned → u.handoff ≠ some c)
    (hlive : ∃ channel, hub.channels[c]? = some channel ∧ channel.receiver = true)
    (hh : hub.Handed upgrades c) : hub'.Handed (upgrades.set j u') c := by
  cases h with
  | upgraded => exact hh.imp_left (mem_handoffs_set hu id)
  | abandoned => exact hh.imp_left (mem_handoffs_set hu fun hc => (he rfl hc).elim)
  | @sendOk handoff channel _ socket hch hr hb =>
    by_cases hc : handoff = c
    · subst c
      exact .inr ⟨_, List.getElem?_set_self (List.getElem?_eq_some_iff.1 hch).1,
        Option.some_ne_none _⟩
    · rcases hh with hmem | ⟨channel, hold, hb⟩
      · exact .inl (mem_handoffs_set hu (fun heq => (hc (Option.some.inj heq)).elim) hmem)
      · exact .inr ⟨channel, (List.getElem?_set_ne hc).trans hold, hb⟩
  | sendErr hch hr =>
    apply hh.imp_left (mem_handoffs_set hu fun heq => ?_)
    cases heq
    obtain ⟨channel, hold, hopen⟩ := hlive
    rw [hch] at hold
    cases hold
    rw [hr] at hopen
    cases hopen
  | close => exact hh.imp_left (mem_handoffs_set hu fun heq => (nomatch heq))

/-- A claim hands the session it finds to the claiming client. -/
theorem ServeTask.Kept.claim {task : ServeTask} {hub : ResumeHub} {presented : String}
    (hk : task.Kept hub upgrades)
    (hl : hub.registry.parked.lookup presented = some handoff) :
    task.Kept
      { hub with registry := hub.registry.unpark presented, claims := handoff :: hub.claims }
      (upgrades ++ [.upgrading presented handoff]) := by
  intro c since hp hnow
  rcases hk c since hp hnow with hold | hold
  · by_cases htoken : task.token = presented
    · rw [htoken, hl] at hold
      cases hold
      exact .inr (.inl (by simp))
    · exact .inl ((AList.lookup_erase_ne htoken).trans hold)
  · apply Or.inr
    apply hold.imp_left
    intro hup
    rw [List.map_append]
    exact List.mem_append_left _ hup

/-- A claim that finds no session leaves every one as it is. -/
theorem ServeTask.Kept.unknown {task : ServeTask} {hub : ResumeHub} {presented : String}
    (hk : task.Kept hub upgrades)
    (hl : hub.registry.parked.lookup presented = none) :
    task.Kept { hub with registry := hub.registry.unpark presented } upgrades := by
  intro c since hp hnow
  rcases hk c since hp hnow with hold | hold
  · by_cases htoken : task.token = presented
    · rw [htoken, hl] at hold
      cases hold
    · exact .inl ((AList.lookup_erase_ne htoken).trans hold)
  · exact .inr hold

theorem Resume.KeepsWindow.serve {s : Resume} {i : Nat} (hk : s.KeepsWindow) (hs : s.Timed)
    (ht : s.sessions[i]? = some owner)
    (h : ServeStep s.upgrades owner.token owner.browser s.hub owner.phase e hub' phase') :
    KeepsWindow
      { s with hub := hub', sessions := s.sessions.set i { owner with phase := phase' } } := by
  have howner := List.mem_of_getElem? ht
  have hexp := h.expiries (hs.waits owner howner) (hk.parked owner howner) hk.expiries
  obtain ⟨hwindow, _⟩ := h.window
  constructor
  · exact hwindow ▸ hexp
  · intro task hmem
    rcases hs.mem_set ht hmem with rfl | ⟨hmem, hne⟩
    · exact h.kept_task (hk.parked owner howner)
    · exact h.kept_other (hs.task owner howner).chan (hs.task task hmem) hne
        (hk.parked task hmem)

/-- A callback keeps the sessions exactly when it lets no sender go that one waits for. -/
theorem Resume.KeepsWindow.upgrade_iff {s : Resume} {j : Nat} (hk : s.KeepsWindow)
    (hs : s.Timed) (hu : s.upgrades[j]? = some u) (h : UpgradeStep s.hub u e hub' u') :
    KeepsWindow { s with hub := hub', upgrades := s.upgrades.set j u' } ↔
      s.KeepsSender (.upgrade j e) := by
  constructor
  · intro hgood
    cases e with
    | abandoned =>
      cases h
      intro v c hv hc task hmem since hp
      rw [hu] at hv
      cases hv
      by_contra hlt
      obtain ⟨hlist, hnone⟩ := hs.abandoned hu hc
      rcases hgood.parked task hmem c since hp (Nat.not_le.1 hlt) with hl | hh
      · exact hlist _ hl
      · exact hnone hh
    | _ => trivial
  · intro hok
    obtain ⟨hwindow, hnow⟩ := h.window
    constructor
    · simp only [h.expiries, hwindow]
      exact hk.expiries
    · intro task hmem c since hp hlt
      simp only [hwindow, hnow] at hlt
      have hlive := (hs.waits task hmem).live c (ServePhase.chan_of_parkedSince hp)
      rcases hk.parked task hmem c since hp hlt with hl | hh
      · exact .inl (h.registry ▸ hl)
      · apply Or.inr
        apply h.handed hu ?_ hlive hh
        intro he hc
        subst he
        exact Nat.not_le.2 hlt (hok u c hu hc task hmem since hp)

/-- The sessions stay kept through exactly the steps that keep their senders. -/
theorem Resume.Step.keepsWindow_iff (h : Resume.Step s a t) (hs : s.Timed)
    (hk : s.KeepsWindow) : t.KeepsWindow ↔ s.KeepsSender a := by
  cases h with
  | tick =>
    apply iff_of_true
    · refine ⟨hk.expiries, ?_⟩
      intro task hmem c since hp hnow
      exact hk.parked task hmem c since hp (Nat.lt_of_succ_lt hnow)
    · trivial
  | shutdown => exact iff_of_true ⟨hk.expiries, hk.parked⟩ trivial
  | start =>
    apply iff_of_true
    · exact ⟨hk.expiries,
        forall_mem_append_single (fun c since hp => (nomatch hp)) hk.parked⟩
    · trivial
  | serve ht h => exact iff_of_true (hk.serve hs ht h) trivial
  | claim h =>
    obtain ⟨hl, rfl⟩ := ResumeRegistry.claim_eq h
    exact iff_of_true ⟨hk.expiries, fun task hmem => (hk.parked task hmem).claim hl⟩ trivial
  | unknown h =>
    obtain ⟨hl, rfl⟩ := ResumeRegistry.claim_eq h
    exact iff_of_true ⟨hk.expiries, fun task hmem => (hk.parked task hmem).unknown hl⟩ trivial
  | upgrade hu h => exact hk.upgrade_iff hs hu h

/-- Over every run of the server, sessions live for their window in every state if and only
if no step of the run lets a claimed sender go while its session still waits out its
window: a claimed client that abandons its upgrade is the one way to lose a session early. -/
theorem parked_for_window_iff :
    ((Resume.system window).guarded fun _ _ t => t.KeepsWindow).Run (.new window) as s ↔
      ((Resume.system window).guarded fun s a _ => s.KeepsSender a).Run (.new window) as s := by
  apply System.guarded_run_iff (.init rfl)
  · exact ⟨fun e he => (nomatch he), fun task hmem => (nomatch hmem)⟩
  · intro s a t hr hgood hst
    exact hst.keepsWindow_iff (Resume.timed hr) hgood

/-- A client claims a parked session and abandons its upgrade at once: the session expires
with all of its window left. -/
theorem abandoned_upgrade_expires :
    ∃ as s, (Resume.system 60).Run (.new 60) as s ∧ s.hub.cancelled = false ∧
      s.hub.expiries = [⟨"a", 0, 0⟩] ∧ s.hub.registry.parked.lookup "a" = none ∧
      ¬ s.KeepsWindow := by
  have hrun : (Resume.system 60).Run (.parkedOnce 60 "a" 7 ⟨0, none⟩)
      [.claim "a", .upgrade 0 .abandoned, .serve 0 .recv] _ :=
    .cons (.claim rfl) <| .cons (.upgrade rfl .abandoned) <|
      .single (.serve rfl (.recvNone rfl rfl (by decide)))
  have hall := (Resume.parks 60 "a" 7 ⟨0, none⟩ rfl).trans hrun
  refine ⟨_, _, hall, rfl, rfl, rfl, fun hk => ?_⟩
  have hlate := hk.expiries ⟨"a", 0, 0⟩ List.mem_cons_self
  exact absurd hlate (by decide)

end BrowserServe
