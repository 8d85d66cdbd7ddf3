import BrowserServe.ProfileStore
import BrowserServe.Library.Transition

namespace BrowserServe
open Library
set_option autoImplicit true

inductive StoreOp where
  | dropOff (payload : ProfilePayload) (minted : Option String)
  | claim (token : String)
  | depositResult (token : String) (payload : ProfilePayload)
  | finishWithoutResult (token : String)
  | pickUp (token : String)

/-- What became of a profile: a drop-off that returned a token, a claim or a pick-up that
returned a payload, or a deposit, whether or not the store took it. -/
inductive HandOff where
  | droppedOff (payload : ProfilePayload)
  | claimed (payload : ProfilePayload)
  | deposited (payload : ProfilePayload)
  | pickedUp (payload : ProfilePayload)
  deriving DecidableEq

structure StoreEvent where
  now : Nat
  token : String
  what : HandOff
  deriving DecidableEq

def StoreOp.perform (store : ProfileStore) (now : Nat) :
    StoreOp → List StoreEvent × ProfileStore
  | .dropOff payload minted =>
    let result := store.dropOff now payload minted
    (result.1.toList.map fun token => ⟨now, token, .droppedOff payload⟩, result.2)
  | .claim token =>
    let result := store.claim now token
    (result.1.toList.map fun payload => ⟨now, token, .claimed payload⟩, result.2)
  | .depositResult token payload =>
    ([⟨now, token, .deposited payload⟩], store.depositResult now token payload)
  | .finishWithoutResult token => ([], store.finishWithoutResult token)
  | .pickUp token =>
    let result := store.pickUp now token
    (result.1.toList.map fun payload => ⟨now, token, .pickedUp payload⟩, result.2)

/-- The token an operation is about; a drop-off is about the one it mints. -/
def StoreOp.token : StoreOp → Option String
  | .dropOff _ minted => minted
  | .claim token | .depositResult token _ | .finishWithoutResult token | .pickUp token =>
    some token

/-- The store after a sequence of operations, with what happened, newest first. -/
structure ProfileLog where
  store : ProfileStore
  now : Nat
  events : List StoreEvent

def ProfileLog.new (ttl maxPending : Nat) : ProfileLog := ⟨.new ttl maxPending, 0, []⟩

/-- The tokens that drop-offs returned. -/
def mintedTokens (events : List StoreEvent) : List String :=
  events.filterMap fun e =>
    match e.what with
    | .droppedOff _ => some e.token
    | _ => none

/-- One operation at a later reading of the clock; a minted token is a new one. -/
inductive ProfileLog.Step : ProfileLog → Nat × StoreOp → ProfileLog → Prop
  | perform {s : ProfileLog} {now : Nat} {op : StoreOp} (ht : s.now ≤ now)
      (hfresh : ∀ payload token, op = .dropOff payload (some token) →
        token ∉ mintedTokens s.events) :
      ProfileLog.Step s (now, op)
        ⟨(op.perform s.store now).2, now, (op.perform s.store now).1 ++ s.events⟩

def ProfileLog.system (ttl maxPending : Nat) : System ProfileLog (Nat × StoreOp) where
  init s := s = .new ttl maxPending
  step := ProfileLog.Step

/-- No payload was claimed under the token. -/
def Unclaimed (events : List StoreEvent) (token : String) : Prop :=
  ∀ now payload, ⟨now, token, .claimed payload⟩ ∉ events

def NotPickedUp (events : List StoreEvent) (token : String) : Prop :=
  ∀ now payload, ⟨now, token, .pickedUp payload⟩ ∉ events

def Undeposited (events : List StoreEvent) (token : String) : Prop :=
  ∀ now payload, ⟨now, token, .deposited payload⟩ ∉ events

/-- A claim of the token, and no deposit under it since. -/
def ClaimedAt (events : List StoreEvent) (token : String) (since : Nat) : Prop :=
  ∃ later earlier payload, events = later ++ ⟨since, token, .claimed payload⟩ :: earlier ∧
    Undeposited later token

/-- The first deposit after a claim of the token. -/
def FirstDeposit (events : List StoreEvent) (token : String) (payload : ProfilePayload)
    (since : Nat) : Prop :=
  ∃ later earlier claimedAt, events = later ++ ⟨since, token, .deposited payload⟩ :: earlier ∧
    ClaimedAt earlier token claimedAt

/-- What must have happened before an event: a payload is claimed once and within the TTL of
its drop-off, and picked up once and within the TTL of the first deposit after its claim. -/
def StoreEvent.Follows (ttl : Nat) (earlier : List StoreEvent) (e : StoreEvent) : Prop :=
  match e.what with
  | .claimed payload => Unclaimed earlier e.token ∧
      ∃ since, ⟨since, e.token, .droppedOff payload⟩ ∈ earlier ∧ since ≤ e.now ∧
        e.now < since + ttl
  | .pickedUp payload => NotPickedUp earlier e.token ∧
      ∃ since, FirstDeposit earlier e.token payload since ∧ since ≤ e.now ∧ e.now < since + ttl
  | _ => True

/-- Every event follows from those before it. -/
def ExactlyOnce (ttl : Nat) (events : List StoreEvent) : Prop :=
  ∀ later e earlier, events = later ++ e :: earlier → e.Follows ttl earlier

/-- An entry is younger than the age it is swept at. -/
def Entry.Unexpired (ttl now : Nat) (entry : Entry) : Prop := now - entry.since < entry.limit ttl

theorem ProfileStore.lookup_sweep {store : ProfileStore} {entry : Entry} :
    (store.sweep now).entries.lookup token = some entry ↔
      store.entries.lookup token = some entry ∧ entry.Unexpired store.ttl now := by
  have hkeep : entry ∈ (retain store.entries fun _ entry =>
      decide (now - entry.since < entry.limit store.ttl)).lookup token ↔
        entry ∈ store.entries.lookup token ∧ decide (now - entry.since < entry.limit store.ttl) :=
    mem_lookup_retain
  simpa [ProfileStore.sweep, Option.mem_def, Entry.Unexpired] using hkeep

/-- What an operation finds: the swept store, except that a deposit and an end without a
result sweep nothing. -/
def StoreOp.found (store : ProfileStore) (now : Nat) : StoreOp → ProfileStore
  | .depositResult _ _ | .finishWithoutResult _ => store
  | _ => store.sweep now

/-- What an operation does to the store it finds. -/
inductive StoreStep (now : Nat) (store : ProfileStore) :
    StoreOp → List StoreEvent → ProfileStore → Prop
  | droppedOff (hroom : store.entries.entries.length < store.maxPending) :
      StoreStep now store (.dropOff payload (some token)) [⟨now, token, .droppedOff payload⟩]
        { store with entries := store.entries.insert token ⟨.pending payload, now⟩ }
  | claimed (hl : store.entries.lookup token = some ⟨.pending payload, since⟩) :
      StoreStep now store (.claim token) [⟨now, token, .claimed payload⟩]
        { store with entries := store.entries.insert token ⟨.inFlight, now⟩ }
  | deposited (hl : store.entries.lookup token = some ⟨.inFlight, since⟩) :
      StoreStep now store (.depositResult token payload) [⟨now, token, .deposited payload⟩]
        { store with entries := store.entries.insert token ⟨.ready payload, now⟩ }
  | ignored (hl : ∀ since, store.entries.lookup token ≠ some ⟨.inFlight, since⟩) :
      StoreStep now store (.depositResult token payload) [⟨now, token, .deposited payload⟩] store
  | finished (hl : store.entries.lookup token = some ⟨.inFlight, since⟩) :
      StoreStep now store (.finishWithoutResult token) []
        { store with entries := store.entries.erase token }
  | pickedUp (hl : store.entries.lookup token = some ⟨.ready payload, since⟩) :
      StoreStep now store (.pickUp token) [⟨now, token, .pickedUp payload⟩]
        { store with entries := store.entries.erase token }
  | nothing : StoreStep now store op [] store

theorem StoreOp.perform_step (op : StoreOp) (store : ProfileStore) (now : Nat) :
    StoreStep now (op.found store now) op (op.perform store now).1 (op.perform store now).2 := by
  cases op with
  | dropOff payload minted =>
    simp only [found, perform, ProfileStore.dropOff]
    by_cases hfull : (store.sweep now).maxPending ≤ (store.sweep now).entries.entries.length
    · simp only [if_pos hfull]
      exact .nothing
    · simp only [if_neg hfull]
      cases minted with
      | none => exact .nothing
      | some token => exact .droppedOff (Nat.lt_of_not_le hfull)
  | claim token =>
    simp only [found, perform, ProfileStore.claim]
    split
    · exact .claimed (by assumption)
    · exact .nothing
  | depositResult token payload =>
    simp only [found, perform, ProfileStore.depositResult]
    split
    · exact .deposited (by assumption)
    · exact .ignored (by assumption)
  | finishWithoutResult token =>
    simp only [found, perform, ProfileStore.finishWithoutResult]
    split
    · exact .finished (by assumption)
    · exact .nothing
  | pickUp token =>
    simp only [found, perform, ProfileStore.pickUp]
    split
    · exact .pickedUp (by assumption)
    · exact .nothing

/-- What the events say about an entry of the store. -/
def Backed (events : List StoreEvent) (token : String) (entry : Entry) : Prop :=
  NotPickedUp events token ∧
    match entry.slot with
    | .pending payload =>
      ⟨entry.since, token, .droppedOff payload⟩ ∈ events ∧ Unclaimed events token
    | .inFlight => ClaimedAt events token entry.since
    | .ready payload => FirstDeposit events token payload entry.since

/-- The events account for the store: only minted tokens were claimed or picked up, and every
entry is backed by what happened under its token. -/
structure Accounted (events : List StoreEvent) (now : Nat) (store : ProfileStore) : Prop where
  claimed : ∀ token, token ∉ mintedTokens events → Unclaimed events token
  pickedUp : ∀ token, token ∉ mintedTokens events → NotPickedUp events token
  minted : ∀ token entry, store.entries.lookup token = some entry → token ∈ mintedTokens events
  entry : ∀ token entry, store.entries.lookup token = some entry →
    entry.since ≤ now ∧ Backed events token entry

theorem ClaimedAt.cons (h : ClaimedAt events token since)
    (he : e.token ≠ token ∨ ∀ payload, e.what ≠ .deposited payload) :
    ClaimedAt (e :: events) token since := by
  obtain ⟨later, earlier, payload, heq, hnone⟩ := h
  refine ⟨e :: later, earlier, payload, by rw [heq, List.cons_append], ?_⟩
  intro now deposit hmem
  cases List.mem_cons.1 hmem with
  | inl hhead =>
    cases hhead
    cases he with
    | inl hne => exact hne rfl
    | inr hnot => exact hnot deposit rfl
  | inr htail => exact hnone now deposit htail

theorem FirstDeposit.cons (h : FirstDeposit events token payload since) :
    FirstDeposit (e :: events) token payload since := by
  obtain ⟨later, earlier, claimedAt, heq, hclaimed⟩ := h
  exact ⟨e :: later, earlier, claimedAt, by rw [heq, List.cons_append], hclaimed⟩

/-- An event under another token, or a deposit the store did not take, changes nothing about
an entry. -/
theorem Backed.cons (h : Backed events token entry)
    (he : e.token ≠ token ∨ (∃ payload, e.what = .deposited payload) ∧ entry.slot ≠ .inFlight) :
    Backed (e :: events) token entry := by
  obtain ⟨hpicked, hslot⟩ := h
  have hother {now : Nat} {what : HandOff} (hnot : ∀ payload, what ≠ .deposited payload)
      (hmem : ⟨now, token, what⟩ ∈ e :: events) : ⟨now, token, what⟩ ∈ events := by
    cases List.mem_cons.1 hmem with
    | inl hhead =>
      cases hhead
      rcases he with hne | ⟨⟨payload, hdeposit⟩, _⟩
      · exact (hne rfl).elim
      · exact (hnot payload hdeposit).elim
    | inr htail => exact htail
  refine ⟨fun now payload hmem => hpicked now payload (hother (by simp) hmem), ?_⟩
  cases hheld : entry.slot with
  | pending payload =>
    rw [hheld] at hslot
    exact ⟨List.mem_cons_of_mem _ hslot.1,
      fun now payload hmem => hslot.2 now payload (hother (by simp) hmem)⟩
  | inFlight =>
    rw [hheld] at hslot
    rcases he with hne | ⟨_, hnot⟩
    · exact hslot.cons (.inl hne)
    · exact (hnot hheld).elim
  | ready payload =>
    rw [hheld] at hslot
    exact hslot.cons

theorem mintedTokens_cons_mono (h : token ∈ mintedTokens events) :
    token ∈ mintedTokens (e :: events) := by
  unfold mintedTokens at h ⊢
  rw [List.filterMap_cons]
  split
  · exact h
  · exact List.mem_cons_of_mem _ h

theorem Accounted.found (h : Accounted events now store) (op : StoreOp) (hlater : now ≤ later) :
    Accounted events later (op.found store later) := by
  have hold {token : String} {entry : Entry}
      (hl : (op.found store later).entries.lookup token = some entry) :
      store.entries.lookup token = some entry := by
    cases op with
    | depositResult => exact hl
    | finishWithoutResult => exact hl
    | dropOff => exact (ProfileStore.lookup_sweep.1 hl).1
    | claim => exact (ProfileStore.lookup_sweep.1 hl).1
    | pickUp => exact (ProfileStore.lookup_sweep.1 hl).1
  refine ⟨h.claimed, h.pickedUp, fun token entry hl => h.minted token entry (hold hl), ?_⟩
  intro token entry hl
  obtain ⟨hsince, hbacked⟩ := h.entry token entry (hold hl)
  exact ⟨Nat.le_trans hsince hlater, hbacked⟩

/-- An operation that touches the entry of one token only, and backs what it leaves there. -/
theorem Accounted.cons (h : Accounted events now store)
    (hknown : e.token ∈ mintedTokens (e :: events) ∨ ∃ payload, e.what = .deposited payload)
    (hothers : ∀ token entry, token ≠ e.token → store'.entries.lookup token = some entry →
      store.entries.lookup token = some entry)
    (hself : ∀ entry, store'.entries.lookup e.token = some entry → entry.since ≤ now ∧
      e.token ∈ mintedTokens (e :: events) ∧ Backed (e :: events) e.token entry) :
    Accounted (e :: events) now store' := by
  have hmono {token : String} (hnot : token ∉ mintedTokens (e :: events)) :
      token ∉ mintedTokens events := fun hmem => hnot (mintedTokens_cons_mono hmem)
  refine ⟨?_, ?_, ?_, ?_⟩
  · intro token hnot now payload hmem
    cases List.mem_cons.1 hmem with
    | inl hhead =>
      cases hhead
      rcases hknown with hminted | ⟨deposit, hwhat⟩
      · exact hnot hminted
      · cases hwhat
    | inr htail => exact h.claimed token (hmono hnot) now payload htail
  · intro token hnot now payload hmem
    cases List.mem_cons.1 hmem with
    | inl hhead =>
      cases hhead
      rcases hknown with hminted | ⟨deposit, hwhat⟩
      · exact hnot hminted
      · cases hwhat
    | inr htail => exact h.pickedUp token (hmono hnot) now payload htail
  · intro token entry hl
    by_cases htoken : token = e.token
    · subst htoken
      exact (hself entry hl).2.1
    · exact mintedTokens_cons_mono (h.minted token entry (hothers token entry htoken hl))
  · intro token entry hl
    by_cases htoken : token = e.token
    · subst htoken
      exact ⟨(hself entry hl).1, (hself entry hl).2.2⟩
    · obtain ⟨hsince, hbacked⟩ := h.entry token entry (hothers token entry htoken hl)
      exact ⟨hsince, hbacked.cons (.inl (Ne.symm htoken))⟩

theorem lookup_of_insert_ne {store : ProfileStore} {written entry : Entry}
    (hne : other ≠ token) (h : (store.entries.insert token written).lookup other = some entry) :
    store.entries.lookup other = some entry := by
  rw [AList.lookup_insert_ne hne] at h
  exact h

theorem lookup_of_erase_ne {store : ProfileStore} {entry : Entry} (hne : other ≠ token)
    (h : (store.entries.erase token).lookup other = some entry) :
    store.entries.lookup other = some entry := by
  rw [AList.lookup_erase_ne hne] at h
  exact h

/-- An operation keeps the events in account with the store. -/
theorem StoreStep.accounted (h : StoreStep now store op events' store')
    (ha : Accounted events now store)
    (hfresh : ∀ payload token, op = .dropOff payload (some token) →
      token ∉ mintedTokens events) :
    Accounted (events' ++ events) now store' := by
  cases h with
  | @droppedOff payload token hroom =>
    have hnew := hfresh payload token rfl
    have hminted : token ∈ mintedTokens (⟨now, token, .droppedOff payload⟩ :: events) :=
      List.mem_cons_self
    apply ha.cons (.inl hminted) fun _ _ hne hl => lookup_of_insert_ne hne hl
    intro entry hl
    rw [AList.lookup_insert] at hl
    cases hl
    refine ⟨Nat.le_refl _, hminted, ?_, List.mem_cons_self, ?_⟩
    · intro at' payload' hmem
      simp only [List.mem_cons, StoreEvent.mk.injEq, reduceCtorEq, and_false, false_or] at hmem
      exact ha.pickedUp token hnew at' payload' hmem
    · intro at' payload' hmem
      simp only [List.mem_cons, StoreEvent.mk.injEq, reduceCtorEq, and_false, false_or] at hmem
      exact ha.claimed token hnew at' payload' hmem
  | @claimed token payload since hl =>
    obtain ⟨_, hpicked, _⟩ := ha.entry _ _ hl
    have hminted : token ∈ mintedTokens (⟨now, token, .claimed payload⟩ :: events) :=
      mintedTokens_cons_mono (ha.minted _ _ hl)
    apply ha.cons (.inl hminted) fun _ _ hne hl => lookup_of_insert_ne hne hl
    intro entry hself
    rw [AList.lookup_insert] at hself
    cases hself
    refine ⟨Nat.le_refl _, hminted, ?_, [], events, payload, rfl, fun _ _ => List.not_mem_nil⟩
    intro at' payload' hmem
    simp only [List.mem_cons, StoreEvent.mk.injEq, reduceCtorEq, and_false, false_or] at hmem
    exact hpicked at' payload' hmem
  | @deposited token since payload hl =>
    obtain ⟨_, hpicked, hclaimed⟩ := ha.entry _ _ hl
    have hminted : token ∈ mintedTokens (⟨now, token, .deposited payload⟩ :: events) :=
      mintedTokens_cons_mono (ha.minted _ _ hl)
    apply ha.cons (.inl hminted) fun _ _ hne hl => lookup_of_insert_ne hne hl
    intro entry hself
    rw [AList.lookup_insert] at hself
    cases hself
    refine ⟨Nat.le_refl _, hminted, ?_, [], events, since, rfl, hclaimed⟩
    intro at' payload' hmem
    simp only [List.mem_cons, StoreEvent.mk.injEq, reduceCtorEq, and_false, false_or] at hmem
    exact hpicked at' payload' hmem
  | @ignored token payload hnot =>
    apply ha.cons (.inr ⟨payload, rfl⟩) fun _ _ _ hl => hl
    intro entry hl
    obtain ⟨hsince, hbacked⟩ := ha.entry token entry hl
    refine ⟨hsince, mintedTokens_cons_mono (ha.minted token entry hl), hbacked.cons (.inr ?_)⟩
    refine ⟨⟨payload, rfl⟩, ?_⟩
    intro hslot
    apply hnot entry.since
    rw [hl, ← hslot]
  | @finished token since hl =>
    refine ⟨ha.claimed, ha.pickedUp, ?_, ?_⟩
    · intro other entry hother
      by_cases hne : other = token
      · subst hne
        simp at hother
      · exact ha.minted other entry (lookup_of_erase_ne hne hother)
    · intro other entry hother
      by_cases hne : other = token
      · subst hne
        simp at hother
      · exact ha.entry other entry (lookup_of_erase_ne hne hother)
  | @pickedUp token payload since hl =>
    have hminted : token ∈ mintedTokens (⟨now, token, .pickedUp payload⟩ :: events) :=
      mintedTokens_cons_mono (ha.minted _ _ hl)
    apply ha.cons (.inl hminted) fun _ _ hne hl => lookup_of_erase_ne hne hl
    intro entry hself
    rw [AList.lookup_erase] at hself
    cases hself
  | nothing => exact ha

theorem StoreOp.found_ttl (op : StoreOp) (store : ProfileStore) (now : Nat) :
    (op.found store now).ttl = store.ttl ∧ (op.found store now).maxPending = store.maxPending := by
  cases op <;> exact ⟨rfl, rfl⟩

theorem StoreStep.ttl (h : StoreStep now store op events store') :
    store'.ttl = store.ttl ∧ store'.maxPending = store.maxPending := by
  cases h <;> exact ⟨rfl, rfl⟩

/-- What an operation shows follows from what happened before. -/
theorem StoreOp.perform_follows {op : StoreOp} (ha : Accounted events now store)
    (he : e ∈ (op.perform store now).1) : e.Follows store.ttl events := by
  have hstep := op.perform_step store now
  generalize (op.perform store now).1 = shown, (op.perform store now).2 = store' at hstep he
  cases hstep with
  | droppedOff => exact List.mem_singleton.1 he ▸ trivial
  | @claimed token payload since hl =>
    cases List.mem_singleton.1 he
    obtain ⟨hentry, hyoung⟩ := ProfileStore.lookup_sweep.1 hl
    obtain ⟨hsince, _, hdropped, hunclaimed⟩ := ha.entry _ _ hentry
    simp only [Entry.Unexpired, Entry.limit] at hyoung
    refine ⟨hunclaimed, since, hdropped, hsince, ?_⟩
    show now < since + store.ttl
    omega
  | deposited => exact List.mem_singleton.1 he ▸ trivial
  | ignored => exact List.mem_singleton.1 he ▸ trivial
  | finished => cases he
  | @pickedUp token payload since hl =>
    cases List.mem_singleton.1 he
    obtain ⟨hentry, hyoung⟩ := ProfileStore.lookup_sweep.1 hl
    obtain ⟨hsince, hpicked, hdeposit⟩ := ha.entry _ _ hentry
    simp only [Entry.Unexpired, Entry.limit] at hyoung
    refine ⟨hpicked, since, hdeposit, hsince, ?_⟩
    show now < since + store.ttl
    omega
  | nothing => cases he

theorem StoreOp.found_length (op : StoreOp) (store : ProfileStore) (now : Nat) :
    (op.found store now).entries.entries.length ≤ store.entries.entries.length := by
  have hsweep : (store.sweep now).entries.entries.length ≤ store.entries.entries.length :=
    List.length_filter_le _ _
  cases op with
  | depositResult => exact Nat.le_refl _
  | finishWithoutResult => exact Nat.le_refl _
  | dropOff => exact hsweep
  | claim => exact hsweep
  | pickUp => exact hsweep

theorem StoreStep.length (h : StoreStep now store op events store')
    (hle : store.entries.entries.length ≤ store.maxPending) :
    store'.entries.entries.length ≤ store'.maxPending := by
  cases h with
  | @droppedOff payload token hroom =>
    exact Nat.le_trans (length_insert_le _) hroom
  | claimed hl => exact Nat.le_trans (Nat.le_of_eq (length_insert_of_lookup hl)) hle
  | deposited hl => exact Nat.le_trans (Nat.le_of_eq (length_insert_of_lookup hl)) hle
  | finished hl => exact Nat.le_trans (length_erase_le _) hle
  | pickedUp hl => exact Nat.le_trans (length_erase_le _) hle
  | ignored => exact hle
  | nothing => exact hle

/-- An operation leaves alone an entry in flight that it does not end, and the entries of
other tokens. -/
theorem StoreStep.keeps {entry : Entry} (h : StoreStep now store op events store')
    (hl : store.entries.lookup token = some entry)
    (hop : op.token ≠ some token ∨ entry.slot = .inFlight ∧
      (∀ payload, op ≠ .dropOff payload (some token)) ∧
      (∀ payload, op ≠ .depositResult token payload) ∧ op ≠ .finishWithoutResult token) :
    store'.entries.lookup token = some entry := by
  cases h with
  | @droppedOff payload other hroom =>
    have hne : token ≠ other := by
      rintro rfl
      rcases hop with hop | ⟨_, hop, _⟩
      · exact hop rfl
      · exact hop payload rfl
    exact (AList.lookup_insert_ne hne).trans hl
  | @claimed other payload since hpending =>
    have hne : token ≠ other := by
      rintro rfl
      rcases hop with hop | ⟨hslot, _⟩
      · exact hop rfl
      · cases hl.symm.trans hpending
        cases hslot
    exact (AList.lookup_insert_ne hne).trans hl
  | @deposited other since payload hflight =>
    have hne : token ≠ other := by
      rintro rfl
      rcases hop with hop | ⟨_, _, hop, _⟩
      · exact hop rfl
      · exact hop payload rfl
    exact (AList.lookup_insert_ne hne).trans hl
  | @finished other since hflight =>
    have hne : token ≠ other := by
      rintro rfl
      rcases hop with hop | ⟨_, _, _, hop⟩
      · exact hop rfl
      · exact hop rfl
    exact (AList.lookup_erase_ne hne).trans hl
  | @pickedUp other payload since hready =>
    have hne : token ≠ other := by
      rintro rfl
      rcases hop with hop | ⟨hslot, _⟩
      · exact hop rfl
      · cases hl.symm.trans hready
        cases hslot
    exact (AList.lookup_erase_ne hne).trans hl
  | ignored => exact hl
  | nothing => exact hl

theorem StoreOp.found_lookup {store : ProfileStore} {entry : Entry} {token : String} (op : StoreOp)
    (hl : store.entries.lookup token = some entry) (hyoung : entry.Unexpired store.ttl now) :
    (op.found store now).entries.lookup token = some entry := by
  cases op with
  | depositResult => exact hl
  | finishWithoutResult => exact hl
  | dropOff => exact ProfileStore.lookup_sweep.2 ⟨hl, hyoung⟩
  | claim => exact ProfileStore.lookup_sweep.2 ⟨hl, hyoung⟩
  | pickUp => exact ProfileStore.lookup_sweep.2 ⟨hl, hyoung⟩

/-- The invariant of a run: the events follow from each other and account for the store. -/
structure ProfileLog.Sound (ttl maxPending : Nat) (s : ProfileLog) : Prop where
  life : s.store.ttl = ttl
  cap : s.store.maxPending = maxPending
  bounded : s.store.entries.entries.length ≤ maxPending
  accounted : Accounted s.events s.now s.store
  exactlyOnce : ExactlyOnce ttl s.events

theorem ExactlyOnce.append (h : ExactlyOnce ttl events)
    (hnew : shown = [] ∨ ∃ e, shown = [e] ∧ e.Follows ttl events) :
    ExactlyOnce ttl (shown ++ events) := by
  rcases hnew with rfl | ⟨e, rfl, hfollows⟩
  · exact h
  · intro later e' earlier heq
    cases later with
    | nil =>
      obtain ⟨rfl, rfl⟩ := List.cons.inj heq
      exact hfollows
    | cons first later => exact h later e' earlier (List.cons.inj heq).2

theorem StoreOp.perform_shown (op : StoreOp) (store : ProfileStore) (now : Nat) :
    (op.perform store now).1 = [] ∨ ∃ e, (op.perform store now).1 = [e] := by
  have hstep := op.perform_step store now
  generalize (op.perform store now).1 = shown, (op.perform store now).2 = store' at hstep ⊢
  cases hstep with
  | finished => exact .inl rfl
  | nothing => exact .inl rfl
  | _ => exact .inr ⟨_, rfl⟩

theorem ProfileLog.Step.sound (h : ProfileLog.Step s a t) (hs : s.Sound ttl maxPending) :
    t.Sound ttl maxPending := by
  cases h with
  | @perform now op ht hfresh =>
    have hstep := op.perform_step s.store now
    obtain ⟨hfttl, hfmax⟩ := op.found_ttl s.store now
    obtain ⟨hsttl, hsmax⟩ := hstep.ttl
    have hfound := hs.accounted.found op ht
    have hmax := (hsmax.trans hfmax).trans hs.cap
    refine ⟨(hsttl.trans hfttl).trans hs.life, hmax, ?_, hstep.accounted hfound hfresh, ?_⟩
    · have hle := hstep.length (by
        rw [hfmax, hs.cap]
        exact Nat.le_trans (op.found_length s.store now) hs.bounded)
      exact hmax ▸ hle
    · apply hs.exactlyOnce.append
      rcases op.perform_shown s.store now with hnone | ⟨e, hone⟩
      · exact .inl hnone
      · right
        refine ⟨e, hone, ?_⟩
        have hlater : Accounted s.events now s.store := by
          refine ⟨hs.accounted.claimed, hs.accounted.pickedUp, hs.accounted.minted, ?_⟩
          intro token entry hl
          obtain ⟨hsince, hbacked⟩ := hs.accounted.entry token entry hl
          exact ⟨Nat.le_trans hsince ht, hbacked⟩
        rw [← hs.life]
        exact StoreOp.perform_follows hlater (by rw [hone]; exact List.mem_singleton_self e)

theorem ProfileLog.sound (h : (ProfileLog.system ttl maxPending).Reachable s) :
    s.Sound ttl maxPending := by
  apply h.invariant ?_ fun _ _ _ _ hi hs => hs.sound hi
  intro _ hinit
  cases hinit
  refine ⟨rfl, rfl, Nat.zero_le _, ⟨?_, ?_, ?_, ?_⟩, ?_⟩
  · exact fun token _ at' payload => List.not_mem_nil
  · exact fun token _ at' payload => List.not_mem_nil
  · intro token entry hl
    cases hl
  · intro token entry hl
    cases hl
  · intro later e earlier heq
    cases later <;> cases heq

/-- Over every sequence of operations at non-decreasing times: a dropped-off payload is
claimed once and within its TTL, and what is picked up is, once and within its TTL, the first
deposit after the claim; the store never holds more than its limit; no operation sweeps an
entry in flight before its maximal age, and none changes an unexpired entry of another token. -/
theorem hand_off_exactly_once (h : (ProfileLog.system ttl maxPending).Reachable s) :
    ExactlyOnce ttl s.events ∧ s.store.entries.entries.length ≤ maxPending ∧
      ∀ now op t, ProfileLog.Step s (now, op) t →
        (∀ token since, s.store.entries.lookup token = some ⟨.inFlight, since⟩ →
          now - since < IN_FLIGHT_MAX_AGE → (∀ payload, op ≠ .depositResult token payload) →
          op ≠ .finishWithoutResult token →
          t.store.entries.lookup token = some ⟨.inFlight, since⟩) ∧
        ∀ token entry, s.store.entries.lookup token = some entry → entry.Unexpired ttl now →
          op.token ≠ some token → t.store.entries.lookup token = some entry := by
  have hs := ProfileLog.sound h
  refine ⟨hs.exactlyOnce, hs.bounded, ?_⟩
  intro now op t hstep
  cases hstep with
  | perform ht hfresh =>
    constructor
    · intro token since hl hyoung hdeposit hfinish
      apply (op.perform_step s.store now).keeps (op.found_lookup hl hyoung)
      refine .inr ⟨rfl, ?_, hdeposit, hfinish⟩
      rintro payload rfl
      exact hfresh payload token rfl (hs.accounted.minted token _ hl)
    · intro token entry hl hyoung hother
      rw [← hs.life] at hyoung
      exact (op.perform_step s.store now).keeps (op.found_lookup hl hyoung) (.inl hother)

/-- A profile that is dropped off, claimed, deposited twice and picked up after the drop-off's
TTL has passed: the first deposit comes back. -/
theorem hand_off_exactly_once_picked_up :
    ∃ s, (ProfileLog.system 10 1).Reachable s ∧
      s.events = [⟨20, "t", .pickedUp ⟨[], [⟨"o", []⟩], []⟩⟩,
        ⟨16, "t", .deposited ⟨[], [], []⟩⟩, ⟨15, "t", .deposited ⟨[], [⟨"o", []⟩], []⟩⟩,
        ⟨1, "t", .claimed ⟨[], [], []⟩⟩, ⟨0, "t", .droppedOff ⟨[], [], []⟩⟩] ∧
      ExactlyOnce 10 s.events ∧ s.store.entries.entries.length ≤ 1 := by
  have hrun : (ProfileLog.system 10 1).Run (.new 10 1)
      [(0, .dropOff ⟨[], [], []⟩ (some "t")), (1, .claim "t"),
        (15, .depositResult "t" ⟨[], [⟨"o", []⟩], []⟩), (16, .depositResult "t" ⟨[], [], []⟩),
        (20, .pickUp "t")] _ :=
    .cons (.perform (Nat.zero_le _) fun _ _ _ => List.not_mem_nil) <|
      .cons (.perform (Nat.zero_le _) fun _ _ heq => (by cases heq)) <|
      .cons (.perform (by decide) fun _ _ heq => (by cases heq)) <|
      .cons (.perform (by decide) fun _ _ heq => (by cases heq)) <|
      .single (.perform (by decide) fun _ _ heq => (by cases heq))
  have hreach := hrun.reachable (.init rfl)
  have hsafe := hand_off_exactly_once hreach
  exact ⟨_, hreach, rfl, hsafe.1, hsafe.2.1⟩

end BrowserServe
