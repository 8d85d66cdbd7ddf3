import BrowserServe.ProfileSession
import BrowserServe.Library.Tasks
import BrowserServe.Library.Transition

namespace BrowserServe
open Library
set_option autoImplicit true

/-- Where a request for a profile session stands: before `claim`, in `create_seeded`, with its
upgrade not complete, in `profile_session`, refused by `claim` (or dropped before it), or over. -/
inductive RequestPhase where
  | arriving
  | launching
  | upgrading
  | running
  | refused
  | over
  deriving DecidableEq

/-- The request claimed its token. -/
def RequestPhase.Claimed : RequestPhase → Prop
  | .arriving | .refused => False
  | _ => True

structure ProfileRequest where
  token : String
  phase : RequestPhase
  deriving DecidableEq

inductive RequestEvent where
  | claim
  | cancelled
  | launched
  | launchFailed
  | upgraded
  | upgradeFailed
  | ended (run : SessionRun)

/-- One section of `serve_profile_session`, of its upgrade or of its `profile_session`. -/
inductive RequestStep (now : Nat) (token : String) :
    ProfileStore → RequestPhase → RequestEvent → ProfileStore → RequestPhase → Prop
  | claimed (h : store.claim now token = (some payload, store')) :
      RequestStep now token store .arriving .claim store' .launching
  | refused (h : store.claim now token = (none, store')) :
      RequestStep now token store .arriving .claim store' .refused
  | dropped : RequestStep now token store .arriving .cancelled store .refused
  | launched : RequestStep now token store .launching .launched store .upgrading
  | launchFailed : RequestStep now token store .launching .launchFailed store .over
  | cancelled : RequestStep now token store .launching .cancelled store .over
  | upgraded : RequestStep now token store .upgrading .upgraded store .running
  | upgradeFailed : RequestStep now token store .upgrading .upgradeFailed store .over
  | ended : RequestStep now token store .running (.ended run)
      ((profileSession run).foldl (StoreCall.perform now token) store) .over

/-- The store and the requests for profile sessions, with the tokens minted so far. -/
structure ProfileServer where
  store : ProfileStore
  now : Nat
  minted : List String
  requests : List ProfileRequest

def ProfileServer.new (ttl maxPending : Nat) : ProfileServer := ⟨.new ttl maxPending, 0, [], []⟩

inductive ProfileAction where
  | tick
  | dropOff (payload : ProfilePayload) (minted : Option String)
  | pickUp (token : String)
  | arrive (token : String)
  | request (i : Nat) (event : RequestEvent)

/-- One step of the server. A minted token is a new one. -/
inductive ProfileServer.Step : ProfileServer → ProfileAction → ProfileServer → Prop
  | tick : ProfileServer.Step s .tick { s with now := s.now + 1 }
  | dropOff (hfresh : ∀ token, fresh = some token → token ∉ s.minted) :
      ProfileServer.Step s (.dropOff payload fresh)
        { s with
          store := (s.store.dropOff s.now payload fresh).2
          minted := (s.store.dropOff s.now payload fresh).1.toList ++ s.minted }
  | pickUp :
      ProfileServer.Step s (.pickUp token) { s with store := (s.store.pickUp s.now token).2 }
  | arrive :
      ProfileServer.Step s (.arrive token)
        { s with requests := s.requests ++ [⟨token, .arriving⟩] }
  | request {i : Nat} {token : String} {phase phase' : RequestPhase} {event : RequestEvent}
      {store' : ProfileStore} (hi : s.requests[i]? = some ⟨token, phase⟩)
      (h : RequestStep s.now token s.store phase event store' phase') :
      ProfileServer.Step s (.request i event)
        { s with store := store', requests := s.requests.set i ⟨token, phase'⟩ }

def ProfileServer.system (ttl maxPending : Nat) : System ProfileServer ProfileAction where
  init s := s = .new ttl maxPending
  step := ProfileServer.Step

/-- No request that is over left its token in flight. -/
def ProfileServer.Settled (s : ProfileServer) : Prop :=
  ∀ token, ⟨token, .over⟩ ∈ s.requests → s.store.slot token ≠ some .inFlight

/-- A step that does not end a request without a word to the store while its token is in
flight. -/
def ProfileServer.Reports (s : ProfileServer) (a : ProfileAction) (_ : ProfileServer) : Prop :=
  match a with
  | .request i .launchFailed | .request i .cancelled | .request i .upgradeFailed =>
    ∀ request, s.requests[i]? = some request → request.phase.Claimed →
      s.store.slot request.token ≠ some .inFlight
  | _ => True

/-- What the store and the requests keep of the tokens: a token is claimed once, and while it
is in flight a request has claimed it. -/
structure ProfileServer.Owned (s : ProfileServer) : Prop where
  stored : ∀ token slot, s.store.slot token = some slot → token ∈ s.minted
  claimed : ∀ request ∈ s.requests, request.phase.Claimed → request.token ∈ s.minted
  pending : ∀ token payload, s.store.slot token = some (.pending payload) →
    ∀ request ∈ s.requests, request.phase.Claimed → request.token ≠ token
  inFlight : ∀ token, s.store.slot token = some .inFlight →
    ∃ request ∈ s.requests, request.token = token ∧ request.phase.Claimed

theorem RequestStep.keeps (h : RequestStep now token store phase event store' phase')
    (hc : phase.Claimed) : phase'.Claimed := by
  cases h with
  | claimed => cases hc
  | refused => cases hc
  | dropped => cases hc
  | _ => trivial

/-- A request that claims its token finds it pending and leaves it in flight. -/
theorem RequestStep.claims (h : RequestStep now token store phase event store' phase')
    (hnot : ¬ phase.Claimed) (hc : phase'.Claimed) :
    (∃ payload, store.slot token = some (.pending payload)) ∧
      store'.slot token = some .inFlight := by
  cases h with
  | claimed h =>
    obtain ⟨hpending, hflight, _⟩ := ProfileStore.claim_some h
    exact ⟨⟨_, hpending⟩, hflight⟩
  | refused => cases hc
  | dropped => cases hc
  | _ => exact absurd trivial hnot

/-- What a request does to the slots: it may put its own token in flight, or make it ready. -/
theorem RequestStep.slot (h : RequestStep now token store phase event store' phase')
    (hslot : store'.slot other = some held) :
    store.slot other = some held ∨
      other = token ∧ (∃ payload, store.slot token = some (.pending payload)) ∧
        held = .inFlight ∧ phase'.Claimed ∨
      other = token ∧ store.slot token = some .inFlight ∧ ∃ payload, held = .ready payload := by
  cases h with
  | claimed h =>
    obtain ⟨hpending, hflight, hothers⟩ := ProfileStore.claim_some h
    by_cases hother : other = token
    · subst hother
      rw [hflight] at hslot
      exact .inr (.inl ⟨rfl, ⟨_, hpending⟩, (Option.some.inj hslot).symm, trivial⟩)
    · exact .inl (hothers other held hother hslot)
  | refused h =>
    rw [ProfileStore.claim_none h] at hslot
    exact .inl (ProfileStore.slot_sweep hslot)
  | @ended _ run =>
    obtain ⟨call, hcall⟩ := profileSession_single run
    rw [hcall] at hslot
    cases StoreCall.slot_perform hslot with
    | inl hsame => exact .inl hsame.1
    | inr hready => exact .inr (.inr hready)
  | _ => exact .inl hslot

theorem ProfileServer.Owned.request {s : ProfileServer} {i : Nat} {store' : ProfileStore}
    (ho : s.Owned) (hi : s.requests[i]? = some ⟨token, phase⟩)
    (h : RequestStep s.now token s.store phase event store' phase') :
    Owned { s with store := store', requests := s.requests.set i ⟨token, phase'⟩ } := by
  have hmem := List.mem_of_getElem? hi
  refine ⟨?_, ?_, ?_, ?_⟩
  · intro other held hslot
    rcases h.slot hslot with hsame | ⟨rfl, ⟨payload, hpending⟩, _⟩ | ⟨rfl, hflight, _⟩
    · exact ho.stored _ _ hsame
    · exact ho.stored _ _ hpending
    · exact ho.stored _ _ hflight
  · apply forall_mem_set
    · intro hc
      by_cases hold : phase.Claimed
      · exact ho.claimed ⟨token, phase⟩ hmem hold
      · obtain ⟨⟨payload, hpending⟩, _⟩ := h.claims hold hc
        exact ho.stored _ _ hpending
    · exact ho.claimed
  · intro other payload hslot
    have hsame : s.store.slot other = some (.pending payload) := by
      rcases h.slot hslot with hsame | ⟨_, _, hheld, _⟩ | ⟨_, _, _, hheld⟩
      · exact hsame
      · cases hheld
      · cases hheld
    apply forall_mem_set
    · intro hc
      by_cases hold : phase.Claimed
      · exact ho.pending _ _ hsame ⟨token, phase⟩ hmem hold
      · rintro rfl
        rw [(h.claims hold hc).2] at hslot
        cases hslot
    · exact ho.pending _ _ hsame
  · intro other hslot
    rcases h.slot hslot with hsame | ⟨rfl, _, _, hc⟩ | ⟨_, _, _, hheld⟩
    · exact exists_mem_set hi (fun hold => ⟨hold.1, h.keeps hold.2⟩) (ho.inFlight _ hsame)
    · exact ⟨_, List.mem_set (List.getElem?_eq_some_iff.1 hi).1 _, rfl, hc⟩
    · cases hheld

theorem ProfileServer.Step.owned (h : ProfileServer.Step s a t) (ho : s.Owned) : t.Owned := by
  cases h with
  | tick => exact ⟨ho.stored, ho.claimed, ho.pending, ho.inFlight⟩
  | @dropOff fresh _ payload hfresh =>
    have hnew (token : String) (h : (s.store.dropOff s.now payload fresh).1 = some token) :
        fresh = some token := ProfileStore.dropOff_minted h
    refine ⟨?_, ?_, ?_, ?_⟩
    · intro token held hslot
      cases ProfileStore.slot_dropOff hslot with
      | inl hsame => exact List.mem_append_right _ (ho.stored _ _ hsame)
      | inr hmint => exact List.mem_append_left _ (Option.mem_toList.2 hmint.1)
    · intro request hmem hc
      exact List.mem_append_right _ (ho.claimed _ hmem hc)
    · intro token held hslot request hmem hc
      cases ProfileStore.slot_dropOff hslot with
      | inl hsame => exact ho.pending _ _ hsame _ hmem hc
      | inr hmint =>
        rintro rfl
        exact hfresh _ (hnew _ hmint.1) (ho.claimed _ hmem hc)
    · intro token hslot
      cases ProfileStore.slot_dropOff hslot with
      | inl hsame => exact ho.inFlight _ hsame
      | inr hmint => cases hmint.2
  | pickUp =>
    refine ⟨?_, ho.claimed, ?_, ?_⟩
    · intro token held hslot
      exact ho.stored _ _ (ProfileStore.slot_pickUp hslot)
    · intro token payload hslot
      exact ho.pending _ _ (ProfileStore.slot_pickUp hslot)
    · intro token hslot
      exact ho.inFlight _ (ProfileStore.slot_pickUp hslot)
  | arrive =>
    refine ⟨ho.stored, forall_mem_append_single (fun hc => nomatch hc) ho.claimed, ?_, ?_⟩
    · intro token payload hslot
      exact forall_mem_append_single (fun hc => nomatch hc) (ho.pending _ _ hslot)
    · intro token hslot
      obtain ⟨request, hmem, hrequest⟩ := ho.inFlight _ hslot
      exact ⟨request, List.mem_append_left _ hmem, hrequest⟩
  | request hi h => exact ho.request hi h

theorem ProfileServer.owned (h : (ProfileServer.system life cap).Reachable s) : s.Owned := by
  apply h.invariant ?_ fun _ _ _ _ ho hs => hs.owned ho
  intro _ hinit
  cases hinit
  exact ⟨fun token slot hslot => (nomatch hslot), fun request hmem => (nomatch hmem),
    fun token payload hslot => (nomatch hslot), fun token hslot => (nomatch hslot)⟩

/-- A request's step keeps the other requests settled. -/
theorem RequestStep.settled_iff {s : ProfileServer} {i : Nat} {store' : ProfileStore}
    (ho : s.Owned) (hs : s.Settled) (hi : s.requests[i]? = some ⟨token, phase⟩)
    (h : RequestStep s.now token s.store phase event store' phase') :
    ProfileServer.Settled { s with store := store', requests := s.requests.set i ⟨token, phase'⟩ } ↔
      (phase' = .over → store'.slot token ≠ some .inFlight) := by
  constructor
  · rintro hsettled rfl
    exact hsettled token (List.mem_set (List.getElem?_eq_some_iff.1 hi).1 _)
  · intro hover other hmem hslot
    cases List.mem_or_eq_of_mem_set hmem with
    | inr hnew =>
      cases hnew
      exact hover rfl hslot
    | inl hold =>
      rcases h.slot hslot with hsame | ⟨rfl, ⟨payload, hpending⟩, _⟩ | ⟨_, _, _, hheld⟩
      · exact hs other hold hsame
      · exact ho.pending _ _ hpending _ hold trivial rfl
      · cases hheld

/-- The steps that end a request without a word to the store are the ones to look at. -/
theorem RequestStep.reports_iff {s : ProfileServer} {i : Nat} {store' : ProfileStore}
    (hi : s.requests[i]? = some ⟨token, phase⟩)
    (h : RequestStep s.now token s.store phase event store' phase') :
    (phase' = .over → store'.slot token ≠ some .inFlight) ↔ s.Reports (.request i event) t := by
  have hsilent (hc : phase.Claimed) : (∀ request, s.requests[i]? = some request →
      request.phase.Claimed → s.store.slot request.token ≠ some .inFlight) ↔
        s.store.slot token ≠ some .inFlight := by
    constructor
    · intro hall
      exact hall _ hi hc
    · intro hnot request hrequest _
      rw [hi] at hrequest
      cases hrequest
      exact hnot
  cases h with
  | claimed => exact iff_of_true (fun hover => nomatch hover) trivial
  | refused => exact iff_of_true (fun hover => nomatch hover) trivial
  | dropped =>
    apply iff_of_true (fun hover => nomatch hover)
    intro request hrequest hc
    rw [hi] at hrequest
    cases hrequest
    cases hc
  | launched => exact iff_of_true (fun hover => nomatch hover) trivial
  | upgraded => exact iff_of_true (fun hover => nomatch hover) trivial
  | launchFailed => exact (imp_iff_right rfl).trans (hsilent trivial).symm
  | cancelled => exact (imp_iff_right rfl).trans (hsilent trivial).symm
  | upgradeFailed => exact (imp_iff_right rfl).trans (hsilent trivial).symm
  | @ended _ run =>
    apply iff_of_true ?_ trivial
    intro _ hslot
    obtain ⟨call, hcall⟩ := profileSession_single run
    rw [hcall] at hslot
    rcases StoreCall.slot_perform hslot with ⟨_, hnot⟩ | ⟨_, _, _, hheld⟩
    · exact hnot rfl rfl
    · cases hheld

/-- From a settled state exactly the steps that report lead to a settled one. -/
theorem ProfileServer.Step.settled_iff (h : ProfileServer.Step s a t) (ho : s.Owned)
    (hs : s.Settled) : t.Settled ↔ s.Reports a t := by
  cases h with
  | tick => exact iff_of_true hs trivial
  | dropOff =>
    apply iff_of_true ?_ trivial
    intro token hmem hslot
    cases ProfileStore.slot_dropOff hslot with
    | inl hsame => exact hs token hmem hsame
    | inr hmint => cases hmint.2
  | pickUp =>
    apply iff_of_true ?_ trivial
    intro token hmem hslot
    exact hs token hmem (ProfileStore.slot_pickUp hslot)
  | arrive =>
    apply iff_of_true ?_ trivial
    intro token hmem
    rcases List.mem_append.1 hmem with hmem | hmem
    · exact hs token hmem
    · cases List.mem_singleton.1 hmem
  | request hi h => exact (h.settled_iff ho hs hi).trans (h.reports_iff hi)

/-- The request is launching its browser, waiting for its upgrade or serving its session. -/
def RequestPhase.Live : RequestPhase → Prop
  | .launching | .upgrading | .running => True
  | _ => False

theorem ProfileServer.Settled.live {s : ProfileServer} (hs : s.Settled) (ho : s.Owned)
    (h : s.store.slot token = some .inFlight) :
    ∃ request ∈ s.requests, request.token = token ∧ request.phase.Live := by
  obtain ⟨⟨_, phase⟩, hmem, rfl, hc⟩ := ho.inFlight _ h
  refine ⟨_, hmem, rfl, ?_⟩
  cases phase with
  | arriving => cases hc
  | refused => cases hc
  | launching => trivial
  | upgrading => trivial
  | running => trivial
  | _ => exact (hs _ hmem h).elim

/-- The runs all of whose states leave no token of a request that is over in flight are the
runs all of whose steps report to the store; at their ends every token in flight is held by a
request that still lives. -/
theorem claimed_tokens_settled_iff (ttl maxPending : Nat) (as : List ProfileAction)
    (s : ProfileServer) :
    (((ProfileServer.system ttl maxPending).guarded fun _ _ t => t.Settled).Run
        (.new ttl maxPending) as s ↔
      ((ProfileServer.system ttl maxPending).guarded ProfileServer.Reports).Run
        (.new ttl maxPending) as s) ∧
    (((ProfileServer.system ttl maxPending).guarded ProfileServer.Reports).Run
        (.new ttl maxPending) as s →
      ∀ token, s.store.slot token = some .inFlight →
        ∃ request ∈ s.requests, request.token = token ∧ request.phase.Live) := by
  have hstart : (ProfileServer.new ttl maxPending).Settled := fun token hmem => nomatch hmem
  have hiff : ((ProfileServer.system ttl maxPending).guarded fun _ _ t => t.Settled).Run
        (.new ttl maxPending) as s ↔
      ((ProfileServer.system ttl maxPending).guarded ProfileServer.Reports).Run
        (.new ttl maxPending) as s :=
    System.guarded_run_iff (.init rfl) hstart fun _ _ _ hr hs hst =>
      hst.settled_iff (ProfileServer.owned hr) hs
  refine ⟨hiff, ?_⟩
  intro hrun token hflight
  have hreach := System.guarded_reachable (hrun.reachable (.init rfl))
  have hsettled := (hiff.2 hrun).preserves (I := ProfileServer.Settled) hstart
    fun _ _ _ _ hst => hst.2
  exact hsettled.live (ProfileServer.owned hreach) hflight

/-- A launch that fails: the request is over, and its token stays in flight. -/
theorem failed_launch_leaves_token :
    ∃ as s, (ProfileServer.system PROFILE_TTL MAX_PENDING).Run (.new PROFILE_TTL MAX_PENDING) as s ∧
      ⟨"t", .over⟩ ∈ s.requests ∧ s.store.slot "t" = some .inFlight ∧ ¬ s.Settled := by
  have hclaim : (((ProfileServer.new PROFILE_TTL MAX_PENDING).store.dropOff 0 ⟨[], [], []⟩
      (some "t")).2).claim 0 "t" = (some ⟨[], [], []⟩, _) := rfl
  have hrun : (ProfileServer.system PROFILE_TTL MAX_PENDING).Run (.new PROFILE_TTL MAX_PENDING)
      [.dropOff ⟨[], [], []⟩ (some "t"), .arrive "t", .request 0 .claim,
        .request 0 .launchFailed] _ :=
    .cons (.dropOff fun _ _ => List.not_mem_nil) <|
      .cons .arrive <|
      .cons (.request (i := 0) rfl (.claimed hclaim)) <|
      .single (.request (i := 0) rfl .launchFailed)
  have hflight := (ProfileStore.claim_some hclaim).2.1
  refine ⟨_, _, hrun, List.mem_singleton_self _, hflight, ?_⟩
  intro hsettled
  exact hsettled "t" (List.mem_singleton_self _) hflight

end BrowserServe
