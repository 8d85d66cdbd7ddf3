import BrowserServe.ResumeDelivery
import BrowserServe.Library.Progress

namespace BrowserServe
open Library
set_option autoImplicit true

/-- What the sessions and the upgrades do when no new one comes, no token is claimed, no time
passes and no parked browser sends anything. -/
def ResumeAction.quiet : ResumeAction → Bool
  | .serve _ (.frame isErr) => isErr
  | .serve _ _ | .upgrade _ _ => true
  | .tick | .shutdown | .start _ _ _ | .claim _ => false

/-- What they do without the client or the browser of a session. -/
def ResumeAction.own : ResumeAction → Bool
  | .serve _ (.frame _) | .serve _ (.bridgeEnd _) => false
  | .serve _ _ | .upgrade _ _ => true
  | .tick | .shutdown | .start _ _ _ | .claim _ => false

theorem ResumeAction.quiet_of_own {a : ResumeAction} (h : a.own = true) : a.quiet = true := by
  cases a with
  | serve i e =>
    cases e with
    | frame isErr => cases h
    | bridgeEnd how => cases h
    | _ => rfl
  | upgrade j e => rfl
  | tick => cases h
  | shutdown => cases h
  | start token browser socket => cases h
  | claim token => cases h

/-- How many sections a session has before it when no client comes back any more. -/
@[simp] def ServePhase.work : ServePhase → Nat
  | .cleaning _ _ => 8
  | .selecting _ => 7
  | .bridging _ => 6
  | .broken => 5
  | .arming _ _ => 4
  | .waiting _ _ _ => 3
  | .unparking _ _ (.resumed _) => 9
  | .unparking _ _ _ => 2
  | .returning _ => 1
  | .returned => 0

@[simp] def Upgrade.work : Upgrade → Nat
  | .upgrading _ _ => 9
  | .sending _ _ => 8
  | .refusing _ => 1
  | .over => 0

/-- A socket in a channel may take its session through one more bridge. -/
def ResumeHub.work (h : ResumeHub) : Nat :=
  total (fun channel => 7 * channel.buffered.toList.length) h.channels

def Resume.work (s : Resume) : Nat :=
  s.hub.work + total (fun task => task.phase.work) s.sessions + total Upgrade.work s.upgrades

/-- Every session has returned, every client that came back was handed over or sent away, and
no socket is left in a channel. -/
structure Resume.AtRest (s : Resume) : Prop where
  sessions : ∀ task ∈ s.sessions, task.phase = .returned
  upgrades : ∀ u ∈ s.upgrades, u = .over
  channels : ∀ channel ∈ s.hub.channels, channel.buffered = none

theorem ResumeHub.work_set {h : ResumeHub} {channel : Channel} {chan : Nat}
    (hch : h.channels[chan]? = some channel) (channel' : Channel) :
    total (fun channel => 7 * channel.buffered.toList.length) (h.channels.set chan channel') +
      7 * channel.buffered.toList.length = h.work + 7 * channel'.buffered.toList.length :=
  total_set (fun channel => 7 * channel.buffered.toList.length) hch channel'

theorem ResumeHub.dropReceiver_work {h : ResumeHub} {channel : Channel} {chan : Nat}
    (hch : h.channels[chan]? = some channel) : (h.dropReceiver chan channel).work ≤ h.work := by
  have hset := work_set hch { channel with buffered := none, receiver := false }
  simp only [Option.toList_none, List.length_nil, Nat.mul_zero, Nat.add_zero] at hset
  simp only [work, dropReceiver] at hset ⊢
  omega

theorem Parked.next_work (chan since : Nat) (waited : Parked) :
    (waited.next chan).work < (ServePhase.unparking chan since waited).work := by
  cases waited with
  | resumed socket => exact Nat.lt_succ_self 8
  | expired => exact Nat.lt_succ_self 1
  | gone => exact Nat.lt_succ_self 1

theorem ServeStep.works (h : ServeStep upgrades token browser hub phase e hub' phase')
    (he : e ≠ .frame false) : hub'.work + phase'.work < hub.work + phase.work := by
  cases h with
  | park =>
    simp only [ResumeHub.work, total_append, total_cons, total_nil, Option.toList_none,
      List.length_nil, ServePhase.work]
    omega
  | @recv chan channel socket _ since deadline hch hb =>
    have hset := ResumeHub.work_set hch { channel with buffered := none }
    simp only [hb, Option.toList_none, Option.toList_some, List.length_nil, List.length_singleton]
      at hset
    simp only [ResumeHub.work, ServePhase.work] at hset ⊢
    omega
  | frame => exact absurd rfl he
  | unpark =>
    exact Nat.add_lt_add_left (Parked.next_work _ _ _) _
  | cleaned hch =>
    have hdrop := ResumeHub.dropReceiver_work hch
    simp only [ServePhase.work]
    omega
  | drop hch =>
    have hdrop := ResumeHub.dropReceiver_work hch
    simp only [ServePhase.work]
    omega
  | _ =>
    simp only [ResumeHub.work, ServePhase.work]
    omega

theorem UpgradeStep.works (h : UpgradeStep hub u e hub' u') :
    hub'.work + u'.work < hub.work + u.work := by
  cases h with
  | @sendOk handoff channel _ socket hch hr hb =>
    have hset := ResumeHub.work_set hch { channel with buffered := some socket }
    simp only [hb, Option.toList_none, Option.toList_some, List.length_nil, List.length_singleton]
      at hset
    simp only [ResumeHub.work, Upgrade.work] at hset ⊢
    omega
  | _ =>
    simp only [ResumeHub.work, Upgrade.work]
    omega

/-- Each section that is left brings the sessions nearer to their rest. -/
theorem Resume.Step.works (h : Resume.Step s a t) (hquiet : a.quiet = true) : t.work < s.work := by
  cases h with
  | tick => cases hquiet
  | shutdown => cases hquiet
  | start => cases hquiet
  | claim => cases hquiet
  | unknown => cases hquiet
  | @serve i task e hub phase _ ht h =>
    have hne : e ≠ .frame false := by
      rintro rfl
      cases hquiet
    have hworks := h.works hne
    have hset := total_set (fun task : ServeTask => task.phase.work) ht { task with phase }
    simp only [Resume.work] at hset ⊢
    omega
  | @upgrade j u e hub u' _ hu h =>
    have hworks := h.works
    have hset := total_set Upgrade.work hu u'
    simp only [Resume.work] at hset ⊢
    omega

theorem ServeStep.cancelled (h : ServeStep upgrades token browser hub phase e hub' phase') :
    hub'.cancelled = hub.cancelled := by
  cases h <;> rfl

theorem UpgradeStep.cancelled (h : UpgradeStep hub u e hub' u') :
    hub'.cancelled = hub.cancelled := by
  cases h <;> rfl

theorem Resume.Step.cancelled (h : Resume.Step s a t) (hc : s.hub.cancelled = true) :
    t.hub.cancelled = true := by
  cases h with
  | shutdown => rfl
  | serve _ h => exact h.cancelled.trans hc
  | upgrade _ h => exact h.cancelled.trans hc
  | _ => exact hc

/-- A session that was cancelled and has not returned goes on by itself. -/
theorem ServeStep.goes_on (upgrades : List Upgrade) (token : String) (browser i : Nat)
    {hub : ResumeHub} (hcancelled : hub.cancelled = true)
    (hchan : ∀ c, phase.chan = some c → ∃ channel, hub.channels[c]? = some channel)
    (hphase : phase ≠ .returned) :
    ∃ e hub' phase', (ResumeAction.serve i e).own = true ∧
      ServeStep upgrades token browser hub phase e hub' phase' := by
  cases phase with
  | selecting socket => exact ⟨_, _, _, rfl, .cancelSelect hcancelled⟩
  | bridging socket => exact ⟨_, _, _, rfl, .cancelBridge hcancelled⟩
  | broken => exact ⟨_, _, _, rfl, .park⟩
  | arming chan since => exact ⟨_, _, _, rfl, .arm⟩
  | waiting chan since deadline => exact ⟨_, _, _, rfl, .cancelWait hcancelled⟩
  | unparking chan since waited => exact ⟨_, _, _, rfl, .unpark⟩
  | cleaning chan socket =>
    obtain ⟨channel, hch⟩ := hchan chan rfl
    exact ⟨_, _, _, rfl, .cleaned hch⟩
  | returning chan =>
    obtain ⟨channel, hch⟩ := hchan chan rfl
    exact ⟨_, _, _, rfl, .drop hch⟩
  | returned => exact absurd rfl hphase

theorem UpgradeStep.goes_on {hub : ResumeHub}
    (hsend : ∀ c, u.handoff = some c → ∃ channel, hub.channels[c]? = some channel ∧
      channel.receiver = false) (hu : u ≠ .over) : ∃ e hub' u', UpgradeStep hub u e hub' u' := by
  cases u with
  | upgrading token handoff => exact ⟨_, _, _, .abandoned⟩
  | sending handoff socket =>
    obtain ⟨channel, hch, hr⟩ := hsend handoff rfl
    exact ⟨_, _, _, .sendErr hch hr⟩
  | refusing socket => exact ⟨_, _, _, .close⟩
  | «over» => exact absurd rfl hu

theorem ResumeHub.tokenOf_some {h : ResumeHub} (ht : h.tokenOf chan = some token) :
    ∃ channel, h.channels[chan]? = some channel := by
  obtain ⟨channel, hch, _⟩ := Option.map_eq_some_iff.1 ht
  exact ⟨channel, hch⟩

theorem Upgrade.Routed.channel {u : Upgrade} (h : u.Routed hub) (hu : u.handoff = some c) :
    ∃ channel, hub.channels[c]? = some channel := by
  cases u with
  | upgrading token handoff =>
    cases hu
    exact ResumeHub.tokenOf_some h
  | sending handoff socket =>
    cases hu
    obtain ⟨token, ht, _⟩ := h
    exact ResumeHub.tokenOf_some ht
  | refusing socket => cases hu
  | «over» => cases hu

/-- Where none of the cancelled sessions can go on by itself, all are at rest. -/
theorem Resume.Tracked.rest {s : Resume} (hs : s.Tracked) (hcancelled : s.hub.cancelled = true)
    (hstuck : ∀ a t, a.own = true → ¬ Resume.Step s a t) : s.AtRest := by
  have hsessions : ∀ task ∈ s.sessions, task.phase = .returned := by
    intro task hmem
    by_contra hphase
    obtain ⟨i, ht⟩ := List.getElem?_of_mem hmem
    have hchan : ∀ c, task.phase.chan = some c → ∃ channel, s.hub.channels[c]? = some channel :=
      fun c hc => ResumeHub.tokenOf_some ((hs.task task hmem).chan c hc)
    obtain ⟨e, hub, phase, hown, h⟩ :=
      ServeStep.goes_on s.upgrades task.token task.browser i hcancelled hchan hphase
    exact hstuck _ _ hown (.serve ht h)
  have hclosed : ∀ (c : Nat) (channel : Channel), s.hub.channels[c]? = some channel →
      channel.receiver = false := by
    intro c channel hch
    by_contra hopen
    obtain ⟨task, hmem, hchan⟩ := hs.owned c channel hch (Bool.of_not_eq_false hopen)
    rw [hsessions task hmem] at hchan
    cases hchan
  refine ⟨hsessions, ?_, ?_⟩
  · intro u hmem
    by_contra hu
    obtain ⟨j, hj⟩ := List.getElem?_of_mem hmem
    have hsend : ∀ c, u.handoff = some c → ∃ channel, s.hub.channels[c]? = some channel ∧
        channel.receiver = false := by
      intro c hc
      obtain ⟨channel, hch⟩ := (hs.upgrade u hmem).channel hc
      exact ⟨channel, hch, hclosed c channel hch⟩
    obtain ⟨e, hub, u', h⟩ := UpgradeStep.goes_on hsend hu
    exact hstuck _ _ rfl (.upgrade hj h)
  · intro channel hmem
    obtain ⟨c, hch⟩ := List.getElem?_of_mem hmem
    cases hb : channel.buffered with
    | none => rfl
    | some socket =>
      have hopen := hs.buffers channel hmem socket hb
      rw [hclosed c channel hch] at hopen
      cases hopen

end BrowserServe
