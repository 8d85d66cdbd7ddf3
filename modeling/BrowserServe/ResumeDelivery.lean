import BrowserServe.ResumeExclusive

namespace BrowserServe
open Library
set_option autoImplicit true

def Resume.unsent (x : Socket) (s : Resume) : Nat :=
  total (fun u => u.unsent.toList.count x) s.upgrades

def ResumeHub.buffered (x : Socket) (h : ResumeHub) : Nat :=
  total (fun channel => channel.buffered.toList.count x) h.channels

def Resume.pending (x : Socket) (s : Resume) : Nat :=
  total (fun task => task.phase.pending.toList.count x) s.sessions

/-- A section of `serve` moves a socket on, to its bridge or out, and loses track of none. -/
theorem ServeStep.kept (h : ServeStep upgrades token browser hub phase e hub' phase')
    (x : Socket) :
    hub'.buffered x + phase'.pending.toList.count x + (hub'.bridged.map Prod.snd).count x +
        hub'.dropped.count x =
      hub.buffered x + phase.pending.toList.count x + (hub.bridged.map Prod.snd).count x +
        hub.dropped.count x := by
  cases h with
  | poll =>
    simp only [ServePhase.pending, Option.toList_some, Option.toList_none, List.map_cons,
      List.count_cons, List.count_nil, ResumeHub.buffered]
    omega
  | cancelSelect =>
    simp only [ServePhase.pending, Option.toList_some, Option.toList_none, List.count_cons,
      List.count_nil, ResumeHub.buffered]
    omega
  | park => simp [ResumeHub.buffered]
  | @recv chan channel socket _ _ _ hch hb =>
    have hset := total_set (fun channel : Channel => channel.buffered.toList.count x) hch
      { channel with buffered := none }
    simp only [hb, Option.toList_some, Option.toList_none, List.count_nil] at hset
    simp only [ServePhase.pending, Option.toList_some, Option.toList_none, List.count_nil,
      ResumeHub.buffered]
    omega
  | @unpark _ _ _ waited => cases waited <;> rfl
  | @cleaned chan channel _ socket hch =>
    have hset := total_set (fun channel : Channel => channel.buffered.toList.count x) hch
      { channel with buffered := none, receiver := false }
    simp only [Option.toList_none, List.count_nil] at hset
    simp only [ServePhase.pending, ResumeHub.dropReceiver, List.count_append,
      ResumeHub.buffered]
    omega
  | @drop chan channel _ hch =>
    have hset := total_set (fun channel : Channel => channel.buffered.toList.count x) hch
      { channel with buffered := none, receiver := false }
    simp only [Option.toList_none, List.count_nil] at hset
    simp only [ServePhase.pending, ResumeHub.dropReceiver, List.count_append,
      ResumeHub.buffered]
    omega
  | _ => rfl

theorem ServeStep.records (h : ServeStep upgrades token browser hub phase e hub' phase') :
    hub'.first = hub.first ∧ hub'.upgraded = hub.upgraded ∧ hub'.accepted = hub.accepted ∧
      hub'.refused = hub.refused ∧ hub'.closed = hub.closed := by
  cases h <;> exact ⟨rfl, rfl, rfl, rfl, rfl⟩

theorem UpgradeStep.kept (h : UpgradeStep hub u e hub' u') (x : Socket) :
    hub'.buffered x + hub.accepted.count x = hub.buffered x + hub'.accepted.count x := by
  cases h with
  | @sendOk handoff channel _ socket hch hr hb =>
    have hset := total_set (fun channel : Channel => channel.buffered.toList.count x) hch
      { channel with buffered := some socket }
    simp only [hb, Option.toList_some, Option.toList_none, List.count_nil, List.count_cons]
      at hset
    simp only [ResumeHub.buffered, List.count_cons]
    omega
  | _ => rfl

theorem UpgradeStep.sent (h : UpgradeStep hub u e hub' u') (x : Socket) :
    u'.unsent.toList.count x + hub'.accepted.count x + hub'.refused.count x +
        hub.upgraded.count x =
      u.unsent.toList.count x + hub.accepted.count x + hub.refused.count x +
        hub'.upgraded.count x := by
  cases h with
  | abandoned => rfl
  | close => rfl
  | _ =>
    simp only [Upgrade.unsent, Option.toList_some, Option.toList_none, List.count_cons,
      List.count_nil]
    omega

theorem UpgradeStep.records (h : UpgradeStep hub u e hub' u') :
    hub'.first = hub.first ∧ hub'.bridged = hub.bridged ∧ hub'.dropped = hub.dropped := by
  cases h <;> exact ⟨rfl, rfl, rfl⟩

/-- Where every socket is: a resumed one is with its upgrade callback or went through its
channel, and from there on, like a first one, it waits for its bridge, got there, or is
dropped. -/
structure Resume.Accounted (s : Resume) : Prop where
  sent : ∀ x, s.unsent x + s.hub.accepted.count x + s.hub.refused.count x =
    s.hub.upgraded.count x
  kept : ∀ x, s.hub.buffered x + s.pending x + (s.hub.bridged.map Prod.snd).count x +
    s.hub.dropped.count x = s.hub.first.count x + s.hub.accepted.count x
  upgraded : s.hub.upgraded.Nodup
  presented : ∀ x ∈ s.hub.upgraded, x.presented ≠ none
  first : ∀ x ∈ s.hub.first, x.presented = none

theorem Resume.Step.accounted (h : Resume.Step s a t) (ha : s.Accounted) : t.Accounted := by
  cases h with
  | @start token _ browser socket ht hb hp hf =>
    refine ⟨ha.sent, fun x => ?_, ha.upgraded, ha.presented, ?_⟩
    · have := ha.kept x
      simp only [Resume.pending, ResumeHub.buffered, total_append, total_cons, total_nil,
        ServePhase.pending, Option.toList_some, List.count_cons, List.count_nil] at *
      omega
    · intro x hx
      cases List.mem_cons.1 hx with
      | inl heq => exact heq ▸ hp
      | inr hx => exact ha.first x hx
  | @serve i task e hub phase _ ht h =>
    obtain ⟨hfirst, hup, hacc, href, _⟩ := h.records
    refine ⟨fun x => ?_, fun x => ?_, ?_, ?_, ?_⟩
    · have := ha.sent x
      simp only [Resume.unsent, hacc, href, hup] at *
      exact this
    · have := total_set (fun task : ServeTask => task.phase.pending.toList.count x) ht
        { task with phase }
      have := h.kept x
      have := ha.kept x
      simp only [Resume.pending, hfirst, hacc] at *
      omega
    · simpa only [hup] using ha.upgraded
    · simpa only [hup] using ha.presented
    · simpa only [hfirst] using ha.first
  | claim h =>
    refine ⟨fun x => ?_, ha.kept, ha.upgraded, ha.presented, ha.first⟩
    have := ha.sent x
    simpa [Resume.unsent] using this
  | @upgrade j u e hub u' _ hu h =>
    obtain ⟨hfirst, hbridged, hdropped⟩ := h.records
    refine ⟨fun x => ?_, fun x => ?_, ?_, ?_, ?_⟩
    · have := total_set (fun u : Upgrade => u.unsent.toList.count x) hu u'
      have := h.sent x
      have := ha.sent x
      simp only [Resume.unsent] at *
      omega
    · have := h.kept x
      have := ha.kept x
      simp only [Resume.pending, hfirst, hbridged, hdropped] at *
      omega
    · cases h with
      | upgraded hp hf hfresh => exact List.nodup_cons.2 ⟨hfresh, ha.upgraded⟩
      | _ => exact ha.upgraded
    · cases h with
      | upgraded hp hf hfresh =>
        intro x hx
        cases List.mem_cons.1 hx with
        | inl heq =>
          rw [heq, hp]
          exact Option.some_ne_none _
        | inr hx => exact ha.presented x hx
      | _ => exact ha.presented
    · simpa only [hfirst] using ha.first
  | _ => exact ⟨ha.sent, ha.kept, ha.upgraded, ha.presented, ha.first⟩

/-- Every open channel is some session's, and only an open one buffers. -/
structure Resume.Open (s : Resume) : Prop where
  owned : ∀ c channel, s.hub.channels[c]? = some channel → channel.receiver = true →
    ∃ task ∈ s.sessions, task.phase.chan = some c
  buffers : ∀ channel ∈ s.hub.channels, ∀ x, channel.buffered = some x → channel.receiver = true

theorem ServeStep.owned (h : ServeStep upgrades token browser hub phase e hub' phase') {c : Nat}
    (hch : hub'.channels[c]? = some channel) (hr : channel.receiver = true) :
    phase'.chan = some c ∨
      (∃ old, hub.channels[c]? = some old ∧ old.receiver = true) ∧
        (phase.chan = some c → phase'.chan = some c) := by
  cases h with
  | park =>
    rcases getElem?_append_cases hch with ⟨rfl, _⟩ | hold
    · exact .inl rfl
    · exact .inr ⟨⟨_, hold, hr⟩, fun hc => (nomatch hc)⟩
  | recv hc hb =>
    rcases getElem?_set_cases hch with ⟨rfl, rfl⟩ | ⟨_, hold⟩
    · exact .inl rfl
    · exact .inr ⟨⟨_, hold, hr⟩, id⟩
  | cleaned hc =>
    rcases getElem?_set_cases hch with ⟨rfl, rfl⟩ | ⟨hne, hold⟩
    · cases hr
    · exact .inr ⟨⟨_, hold, hr⟩, fun hc => (hne (Option.some.inj hc).symm).elim⟩
  | drop hc =>
    rcases getElem?_set_cases hch with ⟨rfl, rfl⟩ | ⟨hne, hold⟩
    · cases hr
    · exact .inr ⟨⟨_, hold, hr⟩, fun hc => (hne (Option.some.inj hc).symm).elim⟩
  | @unpark _ _ _ waited =>
    cases waited <;> exact .inr ⟨⟨_, hch, hr⟩, id⟩
  | _ => exact .inr ⟨⟨_, hch, hr⟩, fun hc => by simp_all⟩

theorem UpgradeStep.owned (h : UpgradeStep hub u e hub' u') {c : Nat}
    (hch : hub'.channels[c]? = some channel) (hr : channel.receiver = true) :
    ∃ old, hub.channels[c]? = some old ∧ old.receiver = true := by
  cases h with
  | sendOk hc hopen =>
    rcases getElem?_set_cases hch with ⟨rfl, rfl⟩ | ⟨_, hold⟩
    · exact ⟨_, hc, hopen⟩
    · exact ⟨_, hold, hr⟩
  | _ => exact ⟨_, hch, hr⟩

theorem ServeStep.buffers (h : ServeStep upgrades token browser hub phase e hub' phase')
    (hb : ∀ channel ∈ hub.channels, ∀ x, channel.buffered = some x → channel.receiver = true) :
    ∀ channel ∈ hub'.channels, ∀ x, channel.buffered = some x → channel.receiver = true := by
  cases h with
  | park => exact forall_mem_append_single (fun x hx => rfl) hb
  | recv hc => exact forall_mem_set (fun x hx => (nomatch hx)) hb
  | cleaned hc => exact forall_mem_set (fun x hx => (nomatch hx)) hb
  | drop hc => exact forall_mem_set (fun x hx => (nomatch hx)) hb
  | _ => exact hb

theorem UpgradeStep.buffers (h : UpgradeStep hub u e hub' u')
    (hb : ∀ channel ∈ hub.channels, ∀ x, channel.buffered = some x → channel.receiver = true) :
    ∀ channel ∈ hub'.channels, ∀ x, channel.buffered = some x → channel.receiver = true := by
  cases h with
  | sendOk hc hopen => exact forall_mem_set (fun x hx => hopen) hb
  | _ => exact hb

theorem Resume.Step.open (h : Resume.Step s a t) (ho : s.Open) : t.Open := by
  cases h with
  | start =>
    refine ⟨fun c channel hch hr => ?_, ho.buffers⟩
    obtain ⟨task, ht, hc⟩ := ho.owned c channel hch hr
    exact ⟨task, List.mem_append_left _ ht, hc⟩
  | serve ht h =>
    refine ⟨fun c channel hch hr => ?_, h.buffers ho.buffers⟩
    rcases h.owned hch hr with hnew | ⟨⟨old, hold, hopen⟩, hkeep⟩
    · exact ⟨_, List.mem_set (List.getElem?_eq_some_iff.1 ht).1 _, hnew⟩
    · exact exists_mem_set ht hkeep (ho.owned c old hold hopen)
  | upgrade _ h =>
    refine ⟨fun c channel hch hr => ?_, h.buffers ho.buffers⟩
    obtain ⟨old, hold, hopen⟩ := h.owned hch hr
    exact ho.owned c old hold hopen
  | _ => exact ⟨ho.owned, ho.buffers⟩

/-- A socket whose session still has it to bridge, or has its channel to read from. -/
def Resume.OnItsWay (s : Resume) (x : Socket) : Prop :=
  ∃ task ∈ s.sessions, x.presented = some task.token ∧
    (task.phase.pending = some x ∨
      ∃ c channel, task.phase.chan = some c ∧ s.hub.channels[c]? = some channel ∧
        channel.buffered = some x)

/-- A socket that got to the browser of the session whose token it presented. -/
def Resume.Bridged (s : Resume) (x : Socket) : Prop :=
  ∃ task ∈ s.sessions, x.presented = some task.token ∧ (task.browser, x) ∈ s.hub.bridged

/-- A socket that was sent its `1011` close, or whose callback is about to. -/
def Resume.Refused (s : Resume) (x : Socket) : Prop :=
  .refusing x ∈ s.upgrades ∨ (CLOSE_RESUME_EXPIRED, x) ∈ s.hub.closed

/-- No resumed socket is dropped silently: one its channel accepted reaches its browser as
long as its session lasts, and one its channel refused is closed. -/
structure Resume.Delivered (s : Resume) : Prop where
  accepted : ∀ x ∈ s.hub.accepted, s.OnItsWay x ∨ s.Bridged x
  refused : ∀ x ∈ s.hub.refused, s.Refused x

theorem UpgradeStep.refused (h : UpgradeStep hub u e hub' u')
    (hx : x ∈ hub'.refused) : u' = .refusing x ∨ x ∈ hub.refused := by
  cases h with
  | sendErr =>
    cases List.mem_cons.1 hx with
    | inl heq => exact .inl (heq ▸ rfl)
    | inr hx => exact .inr hx
  | _ => exact .inr hx

theorem UpgradeStep.refusing (h : UpgradeStep hub (.refusing x) e hub' u') :
    (CLOSE_RESUME_EXPIRED, x) ∈ hub'.closed := by
  cases h
  exact List.mem_cons_self

theorem UpgradeStep.closed (h : UpgradeStep hub u e hub' u') (hx : x ∈ hub.closed) :
    x ∈ hub'.closed := by
  cases h with
  | close => exact List.mem_cons_of_mem _ hx
  | _ => exact hx

theorem Resume.Step.refused (h : Resume.Step s a t) (hr : ∀ x ∈ s.hub.refused, s.Refused x) :
    ∀ x ∈ t.hub.refused, t.Refused x := by
  intro x hx
  cases h with
  | serve ht h =>
    obtain ⟨_, _, _, href, hclosed⟩ := h.records
    simp only [href] at hx
    simpa only [Refused, hclosed] using hr x hx
  | claim h =>
    cases hr x hx with
    | inl hmem => exact .inl (List.mem_append_left _ hmem)
    | inr hmem => exact .inr hmem
  | @upgrade j u e hub u' _ hu h =>
    rcases h.refused hx with rfl | hx
    · exact .inl (List.mem_set (List.getElem?_eq_some_iff.1 hu).1 _)
    · cases hr x hx with
      | inl hmem =>
        by_cases heq : u = .refusing x
        · subst u
          exact .inr h.refusing
        · exact .inl (mem_set_of_ne hu hmem heq)
      | inr hmem => exact .inr (h.closed hmem)
  | _ => exact hr x hx

structure Resume.Tracked (s : Resume) : Prop extends
    Resume.Sound s, Resume.Accounted s, Resume.Open s where
  closing : ∀ x ∈ s.hub.refused, s.Refused x

theorem Resume.tracked (h : (Resume.system window).Reachable s) : s.Tracked := by
  apply h.invariant ?_ fun _ _ _ _ hi hs =>
    ⟨hs.sound hi.toSound, hs.accounted hi.toAccounted, hs.open hi.toOpen, hs.refused hi.closing⟩
  intro _ hinit
  cases hinit
  refine ⟨Resume.sound (.init rfl), ?_, ?_, fun x hx => (nomatch hx)⟩
  · constructor <;> simp [new, unsent, pending, ResumeHub.buffered]
  · constructor <;> simp [new]

/-- A buffered socket waits for the session whose token it presented. -/
theorem Resume.Tracked.buffered_onItsWay {s : Resume} (hs : s.Tracked) {c : Nat}
    {channel : Channel} (hch : s.hub.channels[c]? = some channel)
    (hb : channel.buffered = some x) : s.OnItsWay x := by
  have hmem := List.mem_of_getElem? hch
  obtain ⟨task, ht, hc⟩ := hs.owned c channel hch (hs.buffers channel hmem x hb)
  have htoken := (hs.task task ht).chan c hc
  simp only [ResumeHub.tokenOf, hch, Option.map_some, Option.some.injEq] at htoken
  exact ⟨task, ht, htoken ▸ hs.channel channel hmem x hb, .inr ⟨c, channel, hc, hch, hb⟩⟩

theorem Resume.Accounted.not_first {s : Resume} (ha : s.Accounted) (hp : x.presented ≠ none) :
    s.hub.first.count x = 0 := by
  apply List.count_eq_zero.2
  intro hf
  exact hp (ha.first x hf)

theorem Resume.Accounted.counts {s : Resume} (ha : s.Accounted) (hx : x ∈ s.hub.accepted) :
    x.presented ≠ none ∧ s.hub.buffered x + s.pending x +
      (s.hub.bridged.map Prod.snd).count x + s.hub.dropped.count x = 1 := by
  have hsent := ha.sent x
  have hkept := ha.kept x
  have honce := List.nodup_iff_count_le_one.1 ha.upgraded x
  have hpos := List.count_pos_iff.2 hx
  have hpresented := ha.presented x (List.count_pos_iff.1 (by omega))
  have hfirst := ha.not_first hpresented
  exact ⟨hpresented, by omega⟩

/-- Sockets are delivered exactly as long as the server dropped none it had accepted. -/
theorem Resume.Tracked.delivered_iff {s : Resume} (hs : s.Tracked) :
    s.Delivered ↔ ∀ x ∈ s.hub.accepted, x ∉ s.hub.dropped := by
  constructor
  · intro hd x hx hdrop
    obtain ⟨_, hone⟩ := hs.counts hx
    have hdropped := List.count_pos_iff.2 hdrop
    rcases hd.accepted x hx with ⟨task, ht, _, hp | ⟨c, channel, hc, hch, hb⟩⟩ | ⟨task, _, _, hb⟩
    · have hpos : 0 < s.pending x := total_count_pos.2 ⟨task, ht, hp⟩
      omega
    · have hpos : 0 < s.hub.buffered x :=
        total_count_pos.2 ⟨channel, List.mem_of_getElem? hch, hb⟩
      omega
    · have hpos : 0 < (s.hub.bridged.map Prod.snd).count x :=
        List.count_pos_iff.2 (List.mem_map_of_mem (f := Prod.snd) hb)
      omega
  · intro hnone
    refine ⟨fun x hx => ?_, hs.closing⟩
    obtain ⟨hpres, hone⟩ := hs.counts hx
    have hdropped := List.count_eq_zero.2 (hnone x hx)
    by_cases hbuf : 0 < s.hub.buffered x
    · obtain ⟨channel, hmem, hb⟩ := total_count_pos.1 hbuf
      obtain ⟨c, hch⟩ := List.getElem?_of_mem hmem
      exact .inl (hs.buffered_onItsWay hch hb)
    · by_cases hpend : 0 < s.pending x
      · obtain ⟨task, ht, hp⟩ := total_count_pos.1 hpend
        cases (hs.task task ht).pending x hp with
        | inl h => exact (hpres h).elim
        | inr h => exact .inl ⟨task, ht, h, .inl hp⟩
      · have hmem : x ∈ s.hub.bridged.map Prod.snd := List.count_pos_iff.1 (by omega)
        obtain ⟨⟨b, y⟩, hb, rfl⟩ := List.mem_map.1 hmem
        obtain ⟨T, hT⟩ := Option.ne_none_iff_exists'.1 hpres
        obtain ⟨task, ht, rfl, rfl⟩ := hs.bridged b y T hb hT
        exact .inr ⟨task, ht, hT, hb⟩

/-- What a step of `serve` lets go of: a socket not polled yet, or what its receiver's
channel still buffers. -/
def ServePhase.drops (hub : ResumeHub) : ServePhase → ServeEvent → List Socket
  | .selecting socket, .cancel => [socket]
  | .cleaning chan _, .cleaned | .returning chan, .drop =>
    (hub.channels[chan]?.bind Channel.buffered).toList
  | _, _ => []

theorem ServeStep.dropped (h : ServeStep upgrades token browser hub phase e hub' phase') :
    hub'.dropped = phase.drops hub e ++ hub.dropped := by
  cases h with
  | cleaned hch => simp [ResumeHub.dropReceiver, ServePhase.drops, hch]
  | drop hch => simp [ResumeHub.dropReceiver, ServePhase.drops, hch]
  | _ => rfl

theorem ServePhase.mem_drops {phase : ServePhase} (h : x ∈ phase.drops hub e) :
    phase.pending = some x ∨ ∃ channel ∈ hub.channels, channel.buffered = some x := by
  unfold drops at h
  split at h
  · exact .inl (List.mem_singleton.1 h ▸ rfl)
  · obtain ⟨channel, hch, hb⟩ := Option.bind_eq_some_iff.1 (Option.mem_toList.1 h)
    exact .inr ⟨channel, List.mem_of_getElem? hch, hb⟩
  · obtain ⟨channel, hch, hb⟩ := Option.bind_eq_some_iff.1 (Option.mem_toList.1 h)
    exact .inr ⟨channel, List.mem_of_getElem? hch, hb⟩
  · cases h

/-- A step that leaves no resumed socket behind: a receiver goes with its channel empty, and
the shutdown does not win over the first poll of a resumed client's bridge. -/
def Resume.HandsOver (s : Resume) : ResumeAction → Prop
  | .serve i .cleaned | .serve i .drop => ∀ task c channel, s.sessions[i]? = some task →
      task.phase.chan = some c → s.hub.channels[c]? = some channel → channel.buffered = none
  | .serve i .cancel => ∀ task x, s.sessions[i]? = some task → task.phase = .selecting x →
      x.presented = none
  | _ => True

theorem Resume.Routed.emptied_iff {s : Resume} (hr : s.Routed) {task : ServeTask} {i c : Nat}
    {channel : Channel} (ht : s.sessions[i]? = some task) (hc : task.phase.chan = some c)
    (hch : s.hub.channels[c]? = some channel) :
    (∀ (task : ServeTask) (c : Nat) (channel : Channel), s.sessions[i]? = some task →
        task.phase.chan = some c → s.hub.channels[c]? = some channel →
        channel.buffered = none) ↔
      ∀ x ∈ (s.hub.channels[c]?.bind Channel.buffered).toList, x.presented = none := by
  rw [hch]
  constructor
  · intro h x hx
    rw [Option.bind_some, h task c channel ht hc hch] at hx
    cases hx
  · intro h task' c' channel' ht' hc' hch'
    rw [ht] at ht'
    cases ht'
    rw [hc] at hc'
    cases hc'
    rw [hch] at hch'
    cases hch'
    cases hb : channel.buffered with
    | none => rfl
    | some x =>
      have hnone := h x (by rw [Option.bind_some, hb]; exact List.mem_singleton.2 rfl)
      have hsome := hr.channel channel (List.mem_of_getElem? hch) x hb
      rw [hnone] at hsome
      cases hsome

theorem Resume.Routed.handsOver_iff {s : Resume} (hr : s.Routed) {task : ServeTask}
    (ht : s.sessions[i]? = some task)
    (h : ServeStep s.upgrades task.token task.browser s.hub task.phase e hub' phase') :
    s.HandsOver (.serve i e) ↔ ∀ x ∈ task.phase.drops s.hub e, x.presented = none := by
  obtain ⟨token, browser, phase⟩ := task
  cases h with
  | cleaned hch => exact hr.emptied_iff ht rfl hch
  | drop hch => exact hr.emptied_iff ht rfl hch
  | cancelSelect =>
    constructor
    · intro h x hx
      exact List.mem_singleton.1 hx ▸ h _ _ ht rfl
    · intro h task x ht' hp
      rw [ht] at ht'
      cases ht'
      cases hp
      exact h _ (List.mem_singleton.2 rfl)
  | cancelBridge =>
    apply iff_of_true (fun task x ht' hp => ?_) (fun x hx => (nomatch hx))
    rw [ht] at ht'
    cases ht'
    cases hp
  | cancelWait =>
    apply iff_of_true (fun task x ht' hp => ?_) (fun x hx => (nomatch hx))
    rw [ht] at ht'
    cases ht'
    cases hp
  | _ => exact iff_of_true trivial fun x hx => (nomatch hx)

/-- A socket that waits for its bridge was accepted if and only if it presented a token. -/
theorem Resume.Accounted.accepted_iff {s : Resume} (ha : s.Accounted)
    (hpos : 0 < s.hub.buffered x + s.pending x) :
    x ∈ s.hub.accepted ↔ x.presented ≠ none := by
  constructor
  · intro hx
    exact (ha.counts hx).1
  · intro hp
    have hkept := ha.kept x
    have hfirst := ha.not_first hp
    exact List.count_pos_iff.1 (by omega)

theorem Resume.pending_of_drops {s : Resume} {task : ServeTask}
    (ht : task ∈ s.sessions) (hx : x ∈ task.phase.drops s.hub e) :
    0 < s.hub.buffered x + s.pending x := by
  rcases ServePhase.mem_drops hx with hp | ⟨channel, hch, hb⟩
  · exact Nat.add_pos_right _ (total_count_pos.2 ⟨task, ht, hp⟩)
  · exact Nat.add_pos_left (total_count_pos.2 ⟨channel, hch, hb⟩) _

theorem UpgradeStep.accepted (h : UpgradeStep hub u e hub' u') :
    hub'.accepted = hub.accepted ∨ ∃ x, u.unsent = some x ∧ hub'.accepted = x :: hub.accepted := by
  cases h with
  | sendOk => exact .inr ⟨_, rfl, rfl⟩
  | _ => exact .inl rfl

/-- A socket still to be sent is nowhere else. -/
theorem Resume.Accounted.unsent_not_dropped {s : Resume} (ha : s.Accounted) (hu : u ∈ s.upgrades)
    (hx : u.unsent = some x) : x ∉ s.hub.dropped := by
  intro hdrop
  have hunsent : 0 < s.unsent x := total_count_pos.2 ⟨u, hu, hx⟩
  have hsent := ha.sent x
  have hkept := ha.kept x
  have honce := List.nodup_iff_count_le_one.1 ha.upgraded x
  have hpos := List.count_pos_iff.2 hdrop
  have hfirst := ha.not_first (ha.presented x (List.count_pos_iff.1 (by omega)))
  omega

/-- A step loses an accepted socket if and only if it does not hand over. -/
theorem Resume.Step.lost_iff (h : Resume.Step s a t) (hs : s.Tracked) :
    (∀ x ∈ t.hub.accepted, x ∉ t.hub.dropped) ↔
      (∀ x ∈ s.hub.accepted, x ∉ s.hub.dropped) ∧ s.HandsOver a := by
  cases h with
  | @serve i task e hub phase _ ht h =>
    obtain ⟨_, _, hacc, _, _⟩ := h.records
    have hmem := List.mem_of_getElem? ht
    rw [hs.handsOver_iff ht h]
    simp only [hacc, h.dropped, List.mem_append, not_or]
    constructor
    · intro hnone
      refine ⟨fun x hx => (hnone x hx).2, fun x hx => ?_⟩
      by_contra hp
      exact (hnone x ((hs.accepted_iff (Resume.pending_of_drops hmem hx)).2 hp)).1 hx
    · rintro ⟨hnone, hover⟩ x hx
      exact ⟨fun hd => (hs.counts hx).1 (hover x hd), hnone x hx⟩
  | @upgrade j u e hub u' _ hu h =>
    obtain ⟨_, _, hdropped⟩ := h.records
    apply Iff.trans ?_ (and_iff_left trivial).symm
    rcases h.accepted with hacc | ⟨x, hx, hacc⟩
    · rw [hacc, hdropped]
    · rw [hacc, hdropped]
      exact List.forall_mem_cons.trans
        (and_iff_right (hs.unsent_not_dropped (List.mem_of_getElem? hu) hx))
  | _ => exact (and_iff_left trivial).symm

/-- Over every run of the server, each resumed socket gets to its browser or its close if and
only if every step of the run hands over: a session's receiver goes only with its channel
empty, and the shutdown never wins over the first poll of a resumed client's bridge. -/
theorem resumed_sockets_delivered_iff (h : (Resume.system window).Run (.new window) as s) :
    s.Delivered ↔
      ((Resume.system window).guarded fun s a _ => s.HandsOver a).Run (.new window) as s := by
  have hr : (Resume.system window).Reachable (.new window) := .init rfl
  rw [(Resume.tracked (h.reachable hr)).delivered_iff]
  exact h.guarded_iff (I := fun s => ∀ x ∈ s.hub.accepted, x ∉ s.hub.dropped) hr
    (fun x hx => (nomatch hx)) fun s a t hr hst => hst.lost_iff (Resume.tracked hr)

/-- A client that resumes in time reaches its browser. -/
theorem resumed_sockets_delivered_iff_resumed :
    ∃ as s, (Resume.system 60).Run (.new 60) as s ∧ ⟨1, some "a"⟩ ∈ s.hub.accepted ∧
      (7, ⟨1, some "a"⟩) ∈ s.hub.bridged ∧ s.Delivered ∧
      ((Resume.system 60).guarded fun s a _ => s.HandsOver a).Run (.new 60) as s := by
  have hrun := (Resume.parks 60 "a" 7 ⟨0, none⟩ rfl).trans
    (Resume.resumes 60 "a" 7 ⟨0, none⟩ ⟨1, some "a"⟩ rfl (by decide))
  have hdelivered : (Resume.resumedOnce 60 "a" 7 ⟨0, none⟩ ⟨1, some "a"⟩).Delivered := by
    refine ⟨?_, fun x hx => (nomatch hx)⟩
    intro x hx
    cases List.mem_singleton.1 hx
    exact .inr ⟨_, List.mem_singleton.2 rfl, rfl, List.mem_cons_self⟩
  exact ⟨_, _, hrun, List.mem_cons_self, List.mem_cons_self, hdelivered,
    (resumed_sockets_delivered_iff hrun).1 hdelivered⟩

/-- The window ends just before a claimed client's socket arrives: its channel accepts the
socket, and `serve` returns with it unread. -/
theorem accepted_socket_dropped :
    ∃ as s, (Resume.system 1).Run (.new 1) as s ∧ s.hub.accepted = [⟨1, some "a"⟩] ∧
      s.sessions.map ServeTask.phase = [.returned] ∧ s.hub.bridged = [(7, ⟨0, none⟩)] ∧
      s.hub.closed = [] ∧ ¬ s.Delivered := by
  have hrun : (Resume.system 1).Run (.parkedOnce 1 "a" 7 ⟨0, none⟩)
      [.claim "a", .upgrade 0 (.upgraded ⟨1, some "a"⟩), .tick, .serve 0 .deadline,
        .upgrade 0 .send, .serve 0 .unpark, .serve 0 .drop] _ :=
    .cons (.claim rfl) <| .cons (.upgrade rfl (.upgraded rfl (by decide) (by decide))) <|
      .cons .tick <| .cons (.serve rfl (.deadline (by decide))) <|
      .cons (.upgrade rfl (.sendOk rfl rfl rfl)) <| .cons (.serve rfl .unpark) <|
      .single (.serve rfl (.drop rfl))
  have hall := (Resume.parks 1 "a" 7 ⟨0, none⟩ rfl).trans hrun
  refine ⟨_, _, hall, rfl, rfl, rfl, rfl, ?_⟩
  rw [(Resume.tracked (hall.reachable (.init rfl))).delivered_iff]
  intro hnone
  exact hnone ⟨1, some "a"⟩ List.mem_cons_self List.mem_cons_self

end BrowserServe
