import BrowserServe.Cookie
import BrowserServe.LocalStorage
import BrowserServe.Manifest
import BrowserServe.Library.Keyed

namespace BrowserServe
open Library
set_option autoImplicit true

structure ProfilePayload where
  cookies : List Cookie
  localStorage : List OriginState
  indexeddb : List ManifestEntry
  deriving DecidableEq

/-- Times are in milliseconds. -/
def PROFILE_TTL : Nat := 2 * 60 * 1000

def IN_FLIGHT_MAX_AGE : Nat := 24 * 60 * 60 * 1000

def MAX_PENDING : Nat := 256

inductive Slot where
  | pending (payload : ProfilePayload)
  | inFlight
  | ready (payload : ProfilePayload)
  deriving DecidableEq

/-- A slot and the time it was last written at. -/
structure Entry where
  slot : Slot
  since : Nat
  deriving DecidableEq

structure ProfileStore where
  entries : AList fun _ : String => Entry
  ttl : Nat
  maxPending : Nat

def ProfileStore.new (ttl maxPending : Nat) : ProfileStore := ⟨∅, ttl, maxPending⟩

def Entry.limit (ttl : Nat) (entry : Entry) : Nat :=
  match entry.slot with
  | .inFlight => IN_FLIGHT_MAX_AGE
  | _ => ttl

def ProfileStore.sweep (store : ProfileStore) (now : Nat) : ProfileStore :=
  { store with
    entries := retain store.entries fun _ entry => now - entry.since < entry.limit store.ttl }

/-- What `drop_off` returns, given what `mint_token` would. -/
def ProfileStore.dropOff (store : ProfileStore) (now : Nat) (payload : ProfilePayload)
    (minted : Option String) : Option String × ProfileStore :=
  let swept := store.sweep now
  if swept.maxPending ≤ swept.entries.entries.length then (none, swept)
  else
    match minted with
    | none => (none, swept)
    | some token =>
      (some token, { swept with entries := swept.entries.insert token ⟨.pending payload, now⟩ })

def ProfileStore.claim (store : ProfileStore) (now : Nat) (token : String) :
    Option ProfilePayload × ProfileStore :=
  let swept := store.sweep now
  match swept.entries.lookup token with
  | some ⟨.pending payload, _⟩ =>
    (some payload, { swept with entries := swept.entries.insert token ⟨.inFlight, now⟩ })
  | _ => (none, swept)

def ProfileStore.depositResult (store : ProfileStore) (now : Nat) (token : String)
    (payload : ProfilePayload) : ProfileStore :=
  match store.entries.lookup token with
  | some ⟨.inFlight, _⟩ =>
    { store with entries := store.entries.insert token ⟨.ready payload, now⟩ }
  | _ => store

def ProfileStore.pickUp (store : ProfileStore) (now : Nat) (token : String) :
    Option ProfilePayload × ProfileStore :=
  let swept := store.sweep now
  match swept.entries.lookup token with
  | some ⟨.ready payload, _⟩ =>
    (some payload, { swept with entries := swept.entries.erase token })
  | _ => (none, swept)

def ProfileStore.finishWithoutResult (store : ProfileStore) (token : String) : ProfileStore :=
  match store.entries.lookup token with
  | some ⟨.inFlight, _⟩ => { store with entries := store.entries.erase token }
  | _ => store

def ProfileStore.slot (store : ProfileStore) (token : String) : Option Slot :=
  (store.entries.lookup token).map Entry.slot

theorem ProfileStore.slot_eq_some {store : ProfileStore} :
    store.slot token = some held ↔ ∃ since, store.entries.lookup token = some ⟨held, since⟩ := by
  unfold slot
  constructor
  · intro h
    obtain ⟨⟨_, since⟩, hl, rfl⟩ := Option.map_eq_some_iff.1 h
    exact ⟨since, hl⟩
  · intro h
    obtain ⟨since, hl⟩ := h
    rw [hl]
    rfl

@[simp] theorem ProfileStore.slot_insert {entries : AList fun _ : String => Entry} :
    (ProfileStore.mk (entries.insert token entry) life cap).slot token = some entry.slot := by
  simp [slot]

theorem ProfileStore.slot_insert_ne {entries : AList fun _ : String => Entry}
    (h : other ≠ token) : (ProfileStore.mk (entries.insert token entry) life cap).slot other =
      (ProfileStore.mk entries life cap).slot other := by
  simp only [slot, AList.lookup_insert_ne h]

@[simp] theorem ProfileStore.slot_erase {entries : AList fun _ : String => Entry} :
    (ProfileStore.mk (entries.erase token) life cap).slot token = none := by
  simp [slot]

theorem ProfileStore.slot_erase_ne {entries : AList fun _ : String => Entry}
    (h : other ≠ token) : (ProfileStore.mk (entries.erase token) life cap).slot other =
      (ProfileStore.mk entries life cap).slot other := by
  simp only [slot, AList.lookup_erase_ne h]

/-- Sweeping only takes entries away. -/
theorem ProfileStore.slot_sweep {store : ProfileStore}
    (h : (store.sweep now).slot token = some held) : store.slot token = some held := by
  obtain ⟨since, hl⟩ := slot_eq_some.1 h
  exact slot_eq_some.2 ⟨since, (mem_lookup_retain.1 hl).1⟩

theorem ProfileStore.slot_dropOff {store : ProfileStore}
    (h : (store.dropOff now payload minted).2.slot token = some held) :
    store.slot token = some held ∨
      (store.dropOff now payload minted).1 = some token ∧ held = .pending payload := by
  unfold dropOff at h ⊢
  by_cases hfull : (store.sweep now).maxPending ≤ (store.sweep now).entries.entries.length
  · simp only [if_pos hfull] at h ⊢
    exact .inl (slot_sweep h)
  · simp only [if_neg hfull] at h ⊢
    cases minted with
    | none => exact .inl (slot_sweep h)
    | some fresh =>
      by_cases htoken : token = fresh
      · subst htoken
        rw [slot_insert] at h
        exact .inr ⟨rfl, (Option.some.inj h).symm⟩
      · rw [slot_insert_ne htoken] at h
        exact .inl (slot_sweep h)

theorem ProfileStore.dropOff_minted {store : ProfileStore}
    (h : (store.dropOff now payload minted).1 = some token) : minted = some token := by
  unfold dropOff at h
  by_cases hfull : (store.sweep now).maxPending ≤ (store.sweep now).entries.entries.length
  · simp only [if_pos hfull] at h
    cases h
  · simp only [if_neg hfull] at h
    cases minted with
    | none => cases h
    | some fresh => exact h

/-- A claim that succeeds turns the pending entry of its token into one in flight. -/
theorem ProfileStore.claim_some {store : ProfileStore}
    (h : store.claim now token = (some payload, store')) :
    store.slot token = some (.pending payload) ∧ store'.slot token = some .inFlight ∧
      ∀ other held, other ≠ token → store'.slot other = some held →
        store.slot other = some held := by
  unfold claim at h
  cases hl : (store.sweep now).entries.lookup token with
  | none => simp [hl] at h
  | some entry =>
    obtain ⟨held, since⟩ := entry
    cases held with
    | pending found =>
      simp only [hl, Prod.mk.injEq, Option.some.injEq] at h
      obtain ⟨rfl, rfl⟩ := h
      refine ⟨slot_sweep (slot_eq_some.2 ⟨since, hl⟩), slot_insert, ?_⟩
      intro other held hne hslot
      rw [slot_insert_ne hne] at hslot
      exact slot_sweep hslot
    | inFlight => simp [hl] at h
    | ready found => simp [hl] at h

theorem ProfileStore.claim_none {store : ProfileStore}
    (h : store.claim now token = (none, store')) : store' = store.sweep now := by
  unfold claim at h
  cases hl : (store.sweep now).entries.lookup token with
  | none =>
    simp only [hl, Prod.mk.injEq, true_and] at h
    exact h.symm
  | some entry =>
    obtain ⟨held, since⟩ := entry
    cases held with
    | pending found => simp [hl] at h
    | inFlight =>
      simp only [hl, Prod.mk.injEq, true_and] at h
      exact h.symm
    | ready found =>
      simp only [hl, Prod.mk.injEq, true_and] at h
      exact h.symm

theorem ProfileStore.slot_pickUp {store : ProfileStore}
    (h : (store.pickUp now token).2.slot other = some held) : store.slot other = some held := by
  unfold pickUp at h
  cases hl : (store.sweep now).entries.lookup token with
  | none =>
    simp only [hl] at h
    exact slot_sweep h
  | some entry =>
    obtain ⟨held, since⟩ := entry
    cases held with
    | pending payload =>
      simp only [hl] at h
      exact slot_sweep h
    | inFlight =>
      simp only [hl] at h
      exact slot_sweep h
    | ready payload =>
      simp only [hl] at h
      by_cases hother : other = token
      · subst hother
        rw [slot_erase] at h
        cases h
      · rw [slot_erase_ne hother] at h
        exact slot_sweep h

theorem ProfileStore.lookup_ne_inFlight {store : ProfileStore}
    (h : store.slot token ≠ some .inFlight) (since : Nat) :
    store.entries.lookup token ≠ some ⟨.inFlight, since⟩ := by
  intro hl
  exact h (slot_eq_some.2 ⟨since, hl⟩)

theorem ProfileStore.depositResult_inFlight {store : ProfileStore}
    (h : store.slot token = some .inFlight) : store.depositResult now token payload =
      { store with entries := store.entries.insert token ⟨.ready payload, now⟩ } := by
  obtain ⟨since, hl⟩ := slot_eq_some.1 h
  simp only [depositResult, hl]

theorem ProfileStore.depositResult_of_ne {store : ProfileStore}
    (h : store.slot token ≠ some .inFlight) : store.depositResult now token payload = store := by
  unfold depositResult
  split
  · exact absurd (by assumption) (lookup_ne_inFlight h _)
  · rfl

theorem ProfileStore.finishWithoutResult_inFlight {store : ProfileStore}
    (h : store.slot token = some .inFlight) : store.finishWithoutResult token =
      { store with entries := store.entries.erase token } := by
  obtain ⟨since, hl⟩ := slot_eq_some.1 h
  simp only [finishWithoutResult, hl]

theorem ProfileStore.finishWithoutResult_of_ne {store : ProfileStore}
    (h : store.slot token ≠ some .inFlight) : store.finishWithoutResult token = store := by
  unfold finishWithoutResult
  split
  · exact absurd (by assumption) (lookup_ne_inFlight h _)
  · rfl

/-- What a session tells the store at its end. -/
inductive StoreCall where
  | depositResult (payload : ProfilePayload)
  | finishWithoutResult
  deriving DecidableEq

def StoreCall.perform (now : Nat) (token : String) (store : ProfileStore) :
    StoreCall → ProfileStore
  | .depositResult payload => store.depositResult now token payload
  | .finishWithoutResult => store.finishWithoutResult token

/-- Either call takes the token out of flight: it is gone or ready. -/
theorem StoreCall.slot_perform {store : ProfileStore} {call : StoreCall}
    (h : (call.perform now token store).slot other = some held) :
    store.slot other = some held ∧ (other = token → held ≠ .inFlight) ∨
      other = token ∧ store.slot token = some .inFlight ∧ ∃ payload, held = .ready payload := by
  by_cases hin : store.slot token = some .inFlight
  · cases call with
    | depositResult payload =>
      rw [perform, ProfileStore.depositResult_inFlight hin] at h
      by_cases hother : other = token
      · subst hother
        rw [ProfileStore.slot_insert] at h
        exact .inr ⟨rfl, hin, payload, (Option.some.inj h).symm⟩
      · rw [ProfileStore.slot_insert_ne hother] at h
        exact .inl ⟨h, fun heq => (hother heq).elim⟩
    | finishWithoutResult =>
      rw [perform, ProfileStore.finishWithoutResult_inFlight hin] at h
      by_cases hother : other = token
      · subst hother
        rw [ProfileStore.slot_erase] at h
        cases h
      · rw [ProfileStore.slot_erase_ne hother] at h
        exact .inl ⟨h, fun heq => (hother heq).elim⟩
  · have hsame : call.perform now token store = store := by
      cases call with
      | depositResult payload => exact ProfileStore.depositResult_of_ne hin
      | finishWithoutResult => exact ProfileStore.finishWithoutResult_of_ne hin
    rw [hsame] at h
    refine .inl ⟨h, ?_⟩
    rintro rfl rfl
    exact hin h

end BrowserServe
