import BrowserServe.PoolStep
import BrowserServe.ProfileTokens
import BrowserServe.ProxyParse
import BrowserServe.ResumeStep

namespace BrowserServe
open Library
set_option autoImplicit true

abbrev QueryMap := List (String × String)

abbrev HeaderMap := List (String × List UInt8)

/-- `HeaderValue::to_str`: visible ASCII and tabs. -/
def headerToStr (value : List UInt8) : Option Text :=
  if value.all fun b => (32 ≤ b && b < 127) || b = 9 then
    some (value.map fun b => Char.ofNat b.toNat)
  else none

/-- `HeaderValue::from_str`. -/
def headerFromStr (s : String) : Option String :=
  if (asBytes s.toList).all fun b => (32 ≤ b && b ≠ 127) || b = 9 then some s else none

/-- A response: its status, the `error` and `detail` of its body, and its headers. -/
structure Response where
  status : Nat
  error : Option String
  detail : Option String
  headers : List (String × String)
  deriving DecidableEq

def reject (status : Nat) (reason detail : String) : Response :=
  ⟨status, some reason, some detail, []⟩

def unauthorized : Response := ⟨401, some "unauthorized", none, []⟩

/-- What `on_upgrade` answers. -/
def switchingProtocols : Response := ⟨101, none, none, []⟩

def Response.insert (response : Response) (name value : String) : Response :=
  { response with headers := (name, value) :: response.headers.filter (·.1 ≠ name) }

def PROXY_HEADER : String := "browserserve-proxy"
def PROXY_APPLIED_HEADER : String := "browserserve-proxy-applied"
def RESUME_TOKEN_HEADER : String := "browserserve-resume-token"

namespace Auth

def authorized (configured queryToken authorizationHeader : Option Text) : Bool :=
  match configured with
  | none => true
  | some expected =>
    let bearer := text "Bearer "
    let candidate := queryToken <|> authorizationHeader.bind fun value =>
      if bearer.isPrefixOf value then some (trim (value.drop bearer.length)) else none
    match candidate with
    | none => false
    | some candidate => expected = candidate

def tokenlessOriginAllowed (origin : Option Text) : Bool :=
  match origin with
  | none => true
  | some origin =>
    match splitOnceText (text "://") origin with
    | none => false
    | some (_, rest) =>
      let authority := rest.takeWhile (· ≠ '/')
      let host := toAsciiLowercase <|
        match stripPrefix '[' authority with
        | some stripped => stripped.takeWhile (· ≠ ']')
        | none => (rsplitOnce ':' authority).elim authority Prod.fst
      host = text "localhost" || host = text "::1" ||
        match readIpv4Addr host with
        | some ((a, _, _, _), []) => a = 127
        | _ => false

end Auth

/-- The latest readings, in hundredths of a percent. -/
structure PressureGauge where
  cpuCenti : Nat
  memoryCenti : Nat

def PressureGauge.snapshot (gauge : PressureGauge) : Rat × Rat :=
  (gauge.cpuCenti / 100, gauge.memoryCenti / 100)

structure PressureConfig where
  maxCpuPercent : Rat
  maxMemoryPercent : Rat

/-- A number without decimals, a half to the even side. -/
def wholePercent (x : Rat) : String :=
  let below := x.floor
  let rest := x - below
  let n := if rest < 1 / 2 ∨ (rest = 1 / 2 ∧ below % 2 = 0) then below else below + 1
  s!"{n}%"

def SESSION_THREAD_RESERVE : Nat := 160

structure ThreadUsage where
  current : Nat
  max : Nat

def ThreadUsage.headroom (usage : ThreadUsage) : Nat := usage.max - usage.current

def ThreadUsage.fitsASession (usage : ThreadUsage) : Bool :=
  SESSION_THREAD_RESERVE ≤ usage.headroom

structure SingleUse where
  spent : Bool
  finished : Bool
  deriving DecidableEq

def SingleUse.new : SingleUse := ⟨false, false⟩

/-- Whether the caller gets the guard. -/
def SingleUse.trySpend (single : SingleUse) : Bool × SingleUse :=
  if single.spent then (false, single) else (true, { single with spent := true })

/-- `connectTimeout` is in milliseconds. -/
structure RelayOptions where
  allowPrivate : Bool
  connectTimeout : Nat
  maxConnections : Nat

def RelayOptions.default : RelayOptions := ⟨false, 20 * 1000, 256⟩

/-- The settings `serve` reads; `estimate` is what the host is good for. -/
structure RuntimeConfig where
  minReady : Nat
  maxSessions : Option Nat
  calibrate : Bool
  maxQueue : Nat
  queueTimeout : Nat
  warmIdle : Nat
  warmMaxAge : Nat
  estimate : Nat
  token : Option Text
  pressure : PressureConfig
  singleUse : Bool
  resumeWindow : Nat
  proxyEnabled : Bool
  allowPrivateUpstream : Bool
  extraFlags : List Text

def setsProxy (extra : List Text) : Bool :=
  extra.any fun flag =>
    ["--proxy-server", "--proxy-pac-url", "--proxy-auto-detect"].any fun name =>
      flag.takeWhile (· ≠ '=') = text name

def sessionProxyPolicy (config : RuntimeConfig) : Except String RelayOptions :=
  if !config.proxyEnabled then .error "session proxies are disabled on this server"
  else if setsProxy config.extraFlags then
    .error "this server's own --proxy-server flag applies to every session"
  else .ok { RelayOptions.default with allowPrivate := config.allowPrivateUpstream }

/-- What the handlers share, with the container's thread usage. Under `profiles` and `resume`
are the profile store and the resume registry, with the tasks that work on them. -/
structure AppState where
  pool : Pool
  token : Option Text
  gauge : PressureGauge
  pressure : PressureConfig
  threads : Option ThreadUsage
  cancel : Bool
  profiles : ProfileServer
  calibrating : Bool
  singleUse : Option SingleUse
  resume : Option Resume
  sessionProxy : Except String RelayOptions

def RuntimeConfig.willCalibrate (config : RuntimeConfig) : Bool :=
  config.maxSessions.isNone && config.calibrate

def RuntimeConfig.options (config : RuntimeConfig) : PoolOptions where
  minReady := config.minReady
  maxSessions := config.maxSessions.getD config.estimate
  maxQueue := config.maxQueue
  queueTimeout := config.queueTimeout
  warmIdle := config.warmIdle
  warmMaxAge := config.warmMaxAge

def AppState.new (config : RuntimeConfig) : AppState where
  pool := .new config.options
  token := config.token
  gauge := ⟨0, 0⟩
  pressure := config.pressure
  threads := none
  cancel := false
  profiles := .new PROFILE_TTL MAX_PENDING
  calibrating := config.willCalibrate
  singleUse := if config.singleUse then some .new else none
  resume :=
    if 0 < config.resumeWindow ∧ !config.singleUse then some (.new config.resumeWindow) else none
  sessionProxy := sessionProxyPolicy config

abbrev RequestedProxy := ProxyUpstream × RelayOptions

/-- What a client asks for when it connects. -/
structure WsRequest where
  query : QueryMap
  headers : HeaderMap

def WsRequest.readOnly (request : WsRequest) : Bool :=
  (request.query.lookup "readOnly").any fun v => v = "1" ∨ v = "true" ∨ v = "yes"

def checkAuth (state : AppState) (request : WsRequest) : Bool :=
  let origin := (request.headers.lookup "origin").map fun value =>
    (headerToStr value).getD (text "invalid")
  if state.token.isNone ∧ !Auth.tokenlessOriginAllowed origin then false
  else
    Auth.authorized state.token ((request.query.lookup "token").map String.toList)
      ((request.headers.lookup "authorization").bind headerToStr)

def requestedProxy (state : AppState) (headers : HeaderMap) :
    Except Response (Option RequestedProxy) :=
  match headers.lookup PROXY_HEADER with
  | none => .ok none
  | some value =>
    match state.sessionProxy with
    | .error reason => .error (reject 400 "proxy_unsupported" reason)
    | .ok options =>
      match headerToStr value with
      | none => .error (reject 400 "invalid_proxy" "proxy header is not text")
      | some raw =>
        match ProxyUpstream.parse raw with
        | .error e => .error (reject 400 "invalid_proxy" e.toString)
        | .ok upstream => .ok (some (upstream, options))

/-- What the checks before any claim come to. -/
inductive Admission where
  | refused (response : Response)
  | resume (token : String)
  | session (proxy : Option RequestedProxy)

/-- `ws_handler` up to `take_single_use`. -/
def admission (state : AppState) (request : WsRequest) : Admission :=
  if !checkAuth state request then .refused unauthorized
  else
    match request.query.lookup "resume" with
    | some token => .resume token
    | none =>
      match requestedProxy state request.headers with
      | .error refused => .refused refused
      | .ok proxy =>
        let (cpu, memory) := state.gauge.snapshot
        if state.pressure.maxCpuPercent < cpu then
          .refused (reject 503 "pressure" s!"cpu at {wholePercent cpu}")
        else if state.pressure.maxMemoryPercent < memory then
          .refused (reject 503 "pressure" s!"memory at {wholePercent memory}")
        else
          match state.threads.filter (!·.fitsASession) with
          | some threads =>
            .refused (reject 503 "thread_limit" ("container thread limit nearly reached " ++
              s!"({threads.current} of {threads.max}); retry shortly"))
          | none =>
            if state.calibrating then
              .refused (reject 503 "calibrating" "measuring host capacity; retry shortly")
            else .session proxy

def ClaimError.toString : ClaimError → String
  | queueFull maxQueue => s!"session queue is full ({maxQueue} waiting)"
  | queueTimeout waited => s!"timed out waiting {waited} ms for a session slot"
  | closed => "pool is closed"
  | launch message => s!"session launch failed: {message}"

def claimStatus : ClaimError → Nat × String
  | .queueFull _ => (503, "queue_full")
  | .queueTimeout _ => (503, "queue_timeout")
  | .closed => (503, "draining")
  | .launch _ => (503, "launch_failed")

def proxyStartRefused (e : ProxyError) : Response :=
  match e with
  | .addressNotAllowed _ => reject 400 "proxy_not_allowed" e.toString
  | _ => reject 502 "proxy_unavailable" e.toString

def withProxyApplied (response : Response) (proxied : Bool) : Response :=
  if proxied ∧ response.status = 101 then response.insert PROXY_APPLIED_HEADER "1" else response

def withResumeHeader (response : Response) (token : Option String) : Response :=
  match token.bind headerFromStr with
  | some value => response.insert RESUME_TOKEN_HEADER value
  | none => response

def singleUseSpent : Response :=
  reject 503 "single_use_spent"
    "this instance serves one session only; connect again for a fresh one"

def unknownProfileToken : Response :=
  reject 404 "unknown_profile_token" "no pending profile for this token"

def unknownResumeToken : Response :=
  reject 404 "unknown_resume_token"
    "no parked session for this token (unknown, expired, or already resumed)"

end BrowserServe
