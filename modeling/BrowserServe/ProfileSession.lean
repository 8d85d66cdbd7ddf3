import BrowserServe.BridgeState
import BrowserServe.ProfileStore

namespace BrowserServe
set_option autoImplicit true

/-- How `resume::serve` returned. -/
inductive ServeEnd where
  | clientFinished
  | idleTimeout
  | browserGone
  | expired
  | gone
  | cancelled
  deriving DecidableEq

def ServeEnd.reclaims : ServeEnd → Bool
  | .clientFinished | .idleTimeout | .expired => true
  | .browserGone | .gone | .cancelled => false

/-- How `serve_profile` returned: through the resume window, or without one from the bridge or
at the shutdown. -/
inductive Served where
  | resumable (how : ServeEnd)
  | bridged (how : BridgeEnd)
  | cancelled
  deriving DecidableEq

def Served.reclaims : Served → Bool
  | .resumable how => how.reclaims
  | .bridged how => how.reclaims
  | .cancelled => false

structure CapturedNative where
  indexeddb : List ManifestEntry
  localStorage : List OriginState
  deriving DecidableEq

/-- A session's user-data-dir after its browser was killed. -/
structure UserDataDir where
  store : String → Option Dir
  defaultDir : DefaultDir

/-- What one run of `profile_session` meets: whether the browser has its pipe, what seeding
came to, how serving ended, what writing `Storage.getCookies` came to and what the pipe gave
after it, what is on disk, and whether the blocking task that reads it was joined. -/
structure SessionRun where
  readOnly : Bool
  hasPipe : Bool
  seeded : Except ProfileCdpError Unit
  served : Served
  sent : Except PipeError Unit
  inbound : List (Except PipeError Value)
  udd : UserDataDir
  codecs : Codecs
  joined : Bool

/-- `capture_cookies` with the client of the capture. -/
def SessionRun.captureCookies (run : SessionRun) : Except ProfileCdpError (List Cookie) :=
  BrowserServe.captureCookies .new run.sent run.inbound

def SessionRun.destroyCapturingNative (run : SessionRun) : CapturedNative :=
  if run.joined then
    { indexeddb := (packNative run.udd.store).toOption.getD []
      localStorage := readProfileLocalStorage run.codecs run.udd.defaultDir }
  else ⟨[], []⟩

/-- The calls `profile_session` makes to the profile store. -/
def profileSession (run : SessionRun) : List StoreCall :=
  if run.hasPipe then
    match run.seeded with
    | .error _ => [.finishWithoutResult]
    | .ok () =>
      if run.readOnly then [.finishWithoutResult]
      else if run.served.reclaims then
        let native := run.destroyCapturingNative
        [.depositResult
          { cookies := run.captureCookies.toOption.getD []
            localStorage := native.localStorage
            indexeddb := native.indexeddb }]
      else [.finishWithoutResult]
  else [.finishWithoutResult]

/-- The native layer on disk, or the error that kept it from being packed. -/
def SessionRun.native (run : SessionRun) : Except String (List ManifestEntry) :=
  if run.joined then packNative run.udd.store else .error "capture task failed"

def SessionRun.localStorage (run : SessionRun) : Except String (List OriginState) :=
  if run.joined then run.udd.defaultDir.read run.codecs else .error "capture task failed"

/-- The session comes to its capture. -/
structure SessionRun.ToCapture (run : SessionRun) : Prop where
  hasPipe : run.hasPipe = true
  seeded : run.seeded = .ok ()
  writable : run.readOnly = false
  reclaims : run.served.reclaims = true

/-- The session came to its capture, and its three reads returned the payload. -/
structure SessionRun.Captures (run : SessionRun) (payload : ProfilePayload) : Prop extends
    run.ToCapture where
  cookies : run.captureCookies = .ok payload.cookies
  native : run.native = .ok payload.indexeddb
  localStorage : run.localStorage = .ok payload.localStorage

def StoreCall.isDeposit : StoreCall → Bool
  | .depositResult _ => true
  | .finishWithoutResult => false

/-- The profile is overwritten at most once, and only with what was captured. -/
structure SessionRun.SavesOnlyCaptures (run : SessionRun) : Prop where
  once : (profileSession run).countP StoreCall.isDeposit ≤ 1
  captured : ∀ payload, .depositResult payload ∈ profileSession run → run.Captures payload
  otherwise : (∀ payload, ¬ run.Captures payload) → profileSession run = [.finishWithoutResult]

/-- None of the reads of a session that comes to its capture fails. -/
def SessionRun.NoReadFails (run : SessionRun) : Prop :=
  run.ToCapture → ∃ cookies entries origins, run.captureCookies = .ok cookies ∧
    run.native = .ok entries ∧ run.localStorage = .ok origins

/-- A read that fails is taken for one that found nothing. -/
theorem SessionRun.destroyCapturingNative_eq (run : SessionRun) :
    run.destroyCapturingNative =
      ⟨run.native.toOption.getD [], run.localStorage.toOption.getD []⟩ := by
  unfold destroyCapturingNative native localStorage
  by_cases hjoined : run.joined = true
  · simp only [if_pos hjoined, readProfileLocalStorage_eq]
  · simp only [if_neg hjoined]
    rfl

theorem profileSession_deposits {run : SessionRun} (h : run.ToCapture) :
    profileSession run =
      [.depositResult ⟨run.captureCookies.toOption.getD [], run.localStorage.toOption.getD [],
        run.native.toOption.getD []⟩] := by
  simp [profileSession, h.hasPipe, h.seeded, h.writable, h.reclaims,
    run.destroyCapturingNative_eq]

theorem profileSession_finishes {run : SessionRun} (h : ¬ run.ToCapture) :
    profileSession run = [.finishWithoutResult] := by
  unfold profileSession
  by_cases hpipe : run.hasPipe = true
  · cases hseeded : run.seeded with
    | error e => rw [if_pos hpipe]
    | ok =>
      by_cases hread : run.readOnly = true
      · simp only [if_pos hpipe, if_pos hread]
      · by_cases hreclaims : run.served.reclaims = true
        · exact absurd ⟨hpipe, hseeded, Bool.not_eq_true _ ▸ hread, hreclaims⟩ h
        · simp only [if_pos hpipe, if_neg hread, if_neg hreclaims]
  · rw [if_neg hpipe]

/-- A session ends with one call to the store. -/
theorem profileSession_single (run : SessionRun) : ∃ call, profileSession run = [call] := by
  by_cases h : run.ToCapture
  · exact ⟨_, profileSession_deposits h⟩
  · exact ⟨_, profileSession_finishes h⟩

theorem SessionRun.Captures.payload_eq {run : SessionRun} (h : run.Captures payload) :
    payload = ⟨run.captureCookies.toOption.getD [], run.localStorage.toOption.getD [],
      run.native.toOption.getD []⟩ := by
  rw [h.cookies, h.localStorage, h.native]
  rfl

/-- A session overwrites its profile only with what was captured if and only if none of the
reads it comes to fails. -/
theorem saves_only_captures_iff (run : SessionRun) :
    run.SavesOnlyCaptures ↔ run.NoReadFails := by
  constructor
  · intro h hto
    have hcaptures := h.captured _ (by
      rw [profileSession_deposits hto]
      exact List.mem_singleton_self _)
    exact ⟨_, _, _, hcaptures.cookies, hcaptures.native, hcaptures.localStorage⟩
  · intro h
    refine ⟨?_, ?_, ?_⟩
    · obtain ⟨call, hcall⟩ := profileSession_single run
      rw [hcall]
      exact List.countP_le_length
    · intro payload hmem
      by_cases hto : run.ToCapture
      · obtain ⟨cookies, entries, origins, hcookies, hnative, horigins⟩ := h hto
        have hcaptures : run.Captures ⟨cookies, origins, entries⟩ :=
          ⟨hto, hcookies, hnative, horigins⟩
        rw [profileSession_deposits hto, ← hcaptures.payload_eq, List.mem_singleton] at hmem
        cases hmem
        exact hcaptures
      · rw [profileSession_finishes hto, List.mem_singleton] at hmem
        cases hmem
    · intro hnone
      apply profileSession_finishes
      intro hto
      obtain ⟨cookies, entries, origins, hcookies, hnative, horigins⟩ := h hto
      exact hnone ⟨cookies, origins, entries⟩ ⟨hto, hcookies, hnative, horigins⟩

/-- A browser that closes its pipe during the capture: an empty profile is saved. -/
theorem failed_capture_saved_as_empty :
    ∃ run : SessionRun, run.ToCapture ∧ run.captureCookies = .error (.cdp (.pipe .closed)) ∧
      profileSession run = [.depositResult ⟨[], [], []⟩] ∧ ¬ run.SavesOnlyCaptures := by
  let run : SessionRun :=
    { readOnly := false
      hasPipe := true
      seeded := .ok ()
      served := .bridged .clientFinished
      sent := .ok ()
      inbound := []
      udd := ⟨fun _ => none, ⟨none, none⟩⟩
      codecs := ⟨fun _ => none, fun _ => none⟩
      joined := true }
  refine ⟨run, ⟨rfl, rfl, rfl, rfl⟩, rfl, rfl, ?_⟩
  intro h
  have hcaptures := h.captured ⟨[], [], []⟩ (List.mem_singleton_self _)
  cases hcaptures.cookies

end BrowserServe
