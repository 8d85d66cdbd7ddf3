import BrowserServe.NavigateStub

namespace BrowserServe
open Library
set_option autoImplicit true

/-- What the browser is asked to do, one thing after another. -/
inductive RestoreCommand where
  | call (method : String) (params : Value)
  | navigate (url : String)

def RestoreCommand.run (sessionId : String) : RestoreCommand → Async Link ProfileCdpError Value
  | .call method params => Link.callOn (some sessionId) method params
  | .navigate url => do
    Link.navigateStub sessionId url
    return .null

def RestoreCommand.isScript : RestoreCommand → Bool
  | .call method _ => method = "Runtime.evaluate"
  | .navigate _ => false

def OriginState.restoreCommands (json : Value → String) (origin : OriginState) :
    List RestoreCommand :=
  [.navigate (origin.origin ++ "/"),
    .call "Runtime.evaluate" (.obj [("expression", .str (restoreScript json origin.localStorage)),
      ("returnByValue", .bool true)])]

/-- All that a restore asks for. -/
def restoreCommands (json : Value → String) (origins : List OriginState) : List RestoreCommand :=
  if origins.isEmpty then [] else
  [.call "Page.enable" (.obj []),
    .call "Fetch.enable" (.obj [("patterns", .arr [.obj [("urlPattern", .str "*")]])])] ++
  (origins.flatMap (OriginState.restoreCommands json) ++
    [.call "Fetch.disable" (.obj []), .navigate "about:blank"])

/-- The script returns `true`, or the text of what it caught; what it did not catch comes beside
the result. -/
def Restored (reply : Value) : Prop :=
  reply.get "exceptionDetails" = none ∧
    ((reply.get "result").bind fun result => result.get "value") = some (.bool true)

namespace Link

/-- What the browser answers to the commands of a restore, up to the first that gives no value. -/
def answers (json : Value → String) (sessionId : String) (origins : List OriginState)
    (link : Link) : List (Except (Stop ProfileCdpError) Value) :=
  Async.results ((restoreCommands json origins).map (RestoreCommand.run sessionId)) link

/-- Of a list of commands and their answers, the replies to scripts. -/
def repliesOf : List RestoreCommand → List (Except (Stop ProfileCdpError) Value) → List Value
  | command :: commands, .ok reply :: answers =>
    if command.isScript then reply :: repliesOf commands answers else repliesOf commands answers
  | _, _ => []

/-- The browser's replies to the restore scripts, in the order of their origins. -/
def scriptReplies (json : Value → String) (sessionId : String) (origins : List OriginState)
    (link : Link) : List Value :=
  repliesOf (restoreCommands json origins) (answers json sessionId origins link)

/-- What is asked of a restore: a success is one for every origin, and a script that did not
succeed is an error. -/
structure LoadsTruly (json : Value → String) (sessionId : String) (origins : List OriginState)
    (link : Link) : Prop where
  loaded : ∀ n, (applyLocalStorage json sessionId origins link).1 = .ok n → n = origins.length ∧
    (scriptReplies json sessionId origins link).length = origins.length ∧
    ∀ reply ∈ scriptReplies json sessionId origins link, Restored reply
  refused : (∃ reply ∈ scriptReplies json sessionId origins link, ¬Restored reply) →
    ∃ e, (applyLocalStorage json sessionId origins link).1 = .error (.failed e)

theorem applyOrigins_eq (json : Value → String) (sessionId : String) (origins : List OriginState) :
    applyOrigins json sessionId origins = Async.all
      ((origins.flatMap (OriginState.restoreCommands json)).map
          (RestoreCommand.run sessionId)) := by
  induction origins with
  | nil => rfl
  | cons origin origins ih =>
    rw [applyOrigins, ih, List.flatMap_cons, OriginState.restoreCommands]
    simp only [List.cons_append, List.nil_append, List.map_cons, Async.all, RestoreCommand.run,
      bind_assoc,
      pure_bind]

/-- A restore does its commands, and then says how many origins it was given. -/
theorem applyLocalStorage_eq (json : Value → String) (sessionId : String)
    (origins : List OriginState) :
    applyLocalStorage json sessionId origins = (do
      Async.all ((restoreCommands json origins).map (RestoreCommand.run sessionId))
      return origins.length) := by
  cases origins with
  | nil => rfl
  | cons origin origins =>
    have hempty : ¬(origin :: origins).isEmpty = true := Bool.false_ne_true
    rw [applyLocalStorage, restoreCommands, if_neg hempty, if_neg hempty, applyOrigins_eq,
      List.map_append, List.map_append, Async.all_append, Async.all_append, enableInterception,
      disableInterception]
    simp only [List.map_cons, List.map_nil, Async.all, RestoreCommand.run, bind_assoc, pure_bind]

theorem applyLocalStorage_run (json : Value → String) (sessionId : String)
    (origins : List OriginState) (link : Link) :
    (applyLocalStorage json sessionId origins link).1 =
      (Async.all ((restoreCommands json origins).map (RestoreCommand.run sessionId)) link).1.map
        fun _ => origins.length := by
  rw [applyLocalStorage_eq]
  cases hrun : Async.all
    ((restoreCommands json origins).map (RestoreCommand.run sessionId)) link with
  | mk r after =>
    cases r with
    | ok _ =>
      rw [Async.bind_of_ok hrun]
      rfl
    | error stop =>
      rw [Async.bind_of_error hrun]
      rfl

theorem applyLocalStorage_failed_iff (json : Value → String) (sessionId : String)
    (origins : List OriginState) (link : Link) (e : ProfileCdpError) :
    (applyLocalStorage json sessionId origins link).1 = .error (.failed e) ↔
      .error (.failed e) ∈ answers json sessionId origins link := by
  rw [answers, ← Async.all_error_iff, applyLocalStorage_run]
  cases (Async.all ((restoreCommands json origins).map (RestoreCommand.run sessionId)) link).1 with
  | ok _ => exact ⟨fun h => (by cases h), fun h => (by cases h)⟩
  | error stop => exact ⟨fun h => (by cases h; rfl), fun h => (by cases h; rfl)⟩

theorem applyLocalStorage_ok {n : Nat}
    (h : (applyLocalStorage json sessionId origins link).1 = .ok n) :
    n = origins.length ∧ ∃ replies : List Value,
      replies.length = (restoreCommands json origins).length ∧
      answers json sessionId origins link = replies.map .ok := by
  rw [applyLocalStorage_run] at h
  cases hrun : (Async.all
    ((restoreCommands json origins).map (RestoreCommand.run sessionId)) link).1 with
  | error stop =>
    rw [hrun] at h
    cases h
  | ok _ =>
    rw [hrun] at h
    cases h
    obtain ⟨replies, hlen, hreplies⟩ := Async.all_ok_iff.mp hrun
    exact ⟨rfl, replies, hlen.trans (List.length_map _), hreplies⟩

theorem repliesOf_length (commands : List RestoreCommand) (replies : List Value)
    (h : replies.length = commands.length) :
    (repliesOf commands (replies.map .ok)).length = commands.countP RestoreCommand.isScript := by
  induction commands generalizing replies with
  | nil =>
    rw [List.eq_nil_of_length_eq_zero h]
    rfl
  | cons command commands ih =>
    cases replies with
    | nil => cases h
    | cons reply replies =>
      have hrest := ih replies (Nat.succ.inj h)
      rw [List.map_cons, repliesOf, List.countP_cons]
      split
      · rw [List.length_cons, hrest]
      · exact hrest

theorem countP_restoreCommands (json : Value → String) (origins : List OriginState) :
    (restoreCommands json origins).countP RestoreCommand.isScript = origins.length := by
  have horigins : (origins.flatMap (OriginState.restoreCommands json)).countP
      RestoreCommand.isScript =
      origins.length := by
    induction origins with
    | nil => rfl
    | cons origin origins ih =>
      rw [List.flatMap_cons, List.countP_append, ih, List.length_cons, Nat.add_comm]
      rfl
  rw [restoreCommands]
  split
  · rename_i hempty
    rw [List.isEmpty_iff.mp hempty]
    rfl
  · rw [List.countP_append, List.countP_append, horigins]
    simp [RestoreCommand.isScript]

/-- A restore that is over has a reply for each of its scripts. -/
theorem scriptReplies_length {n : Nat}
    (h : (applyLocalStorage json sessionId origins link).1 = .ok n) :
    (scriptReplies json sessionId origins link).length = origins.length := by
  obtain ⟨_, replies, hlen, hreplies⟩ := applyLocalStorage_ok h
  rw [scriptReplies, hreplies, repliesOf_length _ _ hlen, countP_restoreCommands]

/-- A restore can be relied on exactly when every script that the browser replies to succeeds, or
one of the commands fails. -/
theorem applyLocalStorage_loads_iff (json : Value → String) (sessionId : String)
    (origins : List OriginState) (link : Link) :
    LoadsTruly json sessionId origins link ↔
      (∀ reply ∈ scriptReplies json sessionId origins link, Restored reply) ∨
        ∃ e, .error (.failed e) ∈ answers json sessionId origins link := by
  constructor
  · intro h
    by_cases hbroken : ∃ reply ∈ scriptReplies json sessionId origins link, ¬Restored reply
    · obtain ⟨e, he⟩ := h.refused hbroken
      exact .inr ⟨e, (applyLocalStorage_failed_iff json sessionId origins link e).mp he⟩
    · refine .inl fun reply hmem => ?_
      by_contra hreply
      exact hbroken ⟨reply, hmem, hreply⟩
  · intro h
    constructor
    · intro n hok
      refine ⟨(applyLocalStorage_ok hok).1, scriptReplies_length hok, ?_⟩
      rcases h with hall | ⟨e, he⟩
      · exact hall
      · rw [(applyLocalStorage_failed_iff json sessionId origins link e).mpr he] at hok
        cases hok
    · rintro ⟨reply, hmem, hreply⟩
      rcases h with hall | ⟨e, he⟩
      · exact absurd (hall reply hmem) hreply
      · exact ⟨e, (applyLocalStorage_failed_iff json sessionId origins link e).mpr he⟩

/-- What the restore script's reply is when the storage is full. -/
def quotaReply : Value :=
  .obj [("result", .obj [("type", .str "string"),
    ("value", .str "QuotaExceededError: the quota has been exceeded")])]

/-- A browser that does all it is asked, and whose storage is full. -/
def quotaExceeded : Link where
  client := ⟨5⟩
  sent := .ok ()
  written := []
  inbound := [.obj [("id", .int 5), ("result", .obj [])],
    .obj [("id", .int 6), ("result", .obj [])],
    .obj [("method", .str "Page.loadEventFired")],
    .obj [("id", .int 8), ("result", quotaReply)],
    .obj [("id", .int 9), ("result", .obj [])],
    .obj [("method", .str "Page.loadEventFired")]].map fun message => ⟨.ok message, .ok ()⟩

theorem applyLocalStorage_loads_on_quota :
    ¬LoadsTruly (fun _ => "[]") "S1" [⟨"https://example.com", []⟩] quotaExceeded := by
  intro h
  have hok : (applyLocalStorage (fun _ => "[]") "S1" [⟨"https://example.com", []⟩]
      quotaExceeded).1.toOption = some 1 := by decide +kernel
  have hreplies : ∃ reply ∈ scriptReplies (fun _ => "[]") "S1" [⟨"https://example.com", []⟩]
      quotaExceeded, ((reply.get "result").bind fun result => (result.get "value").bind
        Value.asBool) ≠ some true := by decide +kernel
  obtain ⟨reply, hmem, hreply⟩ := hreplies
  cases hrun : (applyLocalStorage (fun _ => "[]") "S1" [⟨"https://example.com", []⟩]
      quotaExceeded).1 with
  | error stop =>
    rw [hrun] at hok
    cases hok
  | ok n =>
    obtain ⟨_, _, hall⟩ := h.loaded n hrun
    refine hreply ?_
    have hvalue := (hall reply hmem).2
    rw [Option.bind_eq_some_iff] at hvalue ⊢
    obtain ⟨result, hresult, hvalue⟩ := hvalue
    exact ⟨result, hresult, by rw [hvalue]; rfl⟩

end Link
end BrowserServe
