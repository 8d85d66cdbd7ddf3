import BrowserServe.Library.CommandLine
import BrowserServe.SandboxRequired

namespace BrowserServe
open Library
set_option autoImplicit true

namespace Chrome

/-- What comes before the switches for the relay in a browser's arguments, with the factory's flags
`own`. -/
def flagsBefore (spec : LaunchSpec) (own : List Text) : List Text :=
  DEFAULT_FLAGS.filter (! mergeable ·) ++ (mergeFeatureSwitches own).1 ++
    [text "--remote-debugging-pipe"] ++ [text "--user-data-dir=" ++ spec.userDataDir] ++
    (if spec.noSandbox then [text "--no-sandbox"] else []) ++
    (if spec.disableDevShm then [text "--disable-dev-shm-usage"] else []) ++
    own.filter (! mergeable ·)

def flagsFrom (server : Text) : List Text := sessionProxyFlags server ++ [text "about:blank"]

theorem sessionProxyFlags_not_merged (server : Text) : ∀ flag ∈ sessionProxyFlags server,
    ∀ switch ∈ MERGEABLE_FEATURE_SWITCHES, switch.isPrefixOf flag = false := by
  intro flag hflag switch hswitch
  simp only [sessionProxyFlags, List.mem_cons, List.not_mem_nil, or_false] at hflag
  simp only [MERGEABLE_FEATURE_SWITCHES, List.map_cons, List.map_nil, List.mem_cons,
    List.not_mem_nil, or_false] at hswitch
  rcases hflag with rfl | rfl | rfl
  · rcases hswitch with rfl | rfl | rfl <;> rfl
  · rcases hswitch with rfl | rfl | rfl <;> rfl
  · rcases hswitch with rfl | rfl | rfl <;> rfl

theorem foldl_same {f : β → α → β} {l : List α} (h : ∀ a ∈ l, ∀ b, f b a = b) (b : β) :
    l.foldl f b = b := by
  induction l with
  | nil => rfl
  | cons a l ih =>
    rw [List.foldl_cons, h a List.mem_cons_self]
    exact ih fun other hmem => h other (List.mem_cons_of_mem _ hmem)

theorem mergeFeatureSwitch_proxy {switch : Text} (h : switch ∈ MERGEABLE_FEATURE_SWITCHES)
    (own : List Text) (server : Text) :
    mergeFeatureSwitch (own ++ sessionProxyFlags server) switch =
      mergeFeatureSwitch own switch := by
  have hnone : ∀ flag ∈ sessionProxyFlags server, stripPrefixText switch flag = none := by
    intro flag hflag
    rw [stripPrefixText, sessionProxyFlags_not_merged server flag hflag switch h]
    rfl
  rw [mergeFeatureSwitch, mergeFeatureSwitch, List.foldl_append,
    foldl_same (l := sessionProxyFlags _)]
  intro flag hflag values
  rw [hnone flag hflag]

theorem args_proxied {spec : LaunchSpec} {own : List Text} {server : Text}
    (h : spec.extraFlags = own ++ sessionProxyFlags server) :
    spec.args = flagsBefore spec own ++ flagsFrom server := by
  have hmerged : (mergeFeatureSwitches (own ++ sessionProxyFlags server)).1 =
      (mergeFeatureSwitches own).1 :=
    List.flatMap_congr fun switch hswitch => mergeFeatureSwitch_proxy hswitch own server
  have hkept : (sessionProxyFlags server).filter (! mergeable ·) = sessionProxyFlags server := by
    rw [List.filter_eq_self]
    intro flag hflag
    rw [Bool.not_eq_true', mergeable, List.any_eq_false]
    intro switch hswitch
    rw [sessionProxyFlags_not_merged server flag hflag switch hswitch]
    exact Bool.false_ne_true
  rw [LaunchSpec.args, buildFlags, h]
  dsimp only
  rw [hmerged]
  simp only [mergeFeatureSwitches, List.filter_append, hkept, flagsBefore, flagsFrom,
    List.append_assoc]

/-- The browser sends its traffic to the relay, WebRTC's too, and none around it. -/
def UsesRelay (server : Text) (args : List Text) : Prop :=
  ProxySettings.of (switchesOf args) = .fixed server (text "<-loopback>") ∧
    switchValue (text "force-webrtc-ip-handling-policy") (switchesOf args) =
      some (text "disable_non_proxied_udp")

theorem overridesProxy_named (name : Text) (h : '=' ∉ name) (hname : name ∉ OVERRIDING_SWITCHES)
    (value : Text) : overridesProxy (text "--" ++ (name ++ '=' :: value)) = false := by
  rw [overridesProxy, not_endsSwitches_named, readSwitch_named name h, Bool.false_or,
    Option.any_some]
  rw [← Bool.not_eq_true, overridingSwitches_any]
  exact hname

theorem overridesProxy_default : ∀ flag ∈ DEFAULT_FLAGS, overridesProxy flag = false := by
  decide +kernel

theorem overridesProxy_mergeable {switch : Text} (h : switch ∈ MERGEABLE_FEATURE_SWITCHES)
    (value : Text) : overridesProxy (switch ++ value) = false := by
  simp only [MERGEABLE_FEATURE_SWITCHES, List.map_cons, List.map_nil, List.mem_cons,
    List.not_mem_nil, or_false] at h
  rcases h with rfl | rfl | rfl
  · exact overridesProxy_named (text "disable-features") (by decide) (by decide) _
  · exact overridesProxy_named (text "enable-features") (by decide) (by decide) _
  · exact overridesProxy_named (text "disable-blink-features") (by decide) (by decide) _

theorem overridesProxy_merged (own : List Text) :
    ∀ flag ∈ (mergeFeatureSwitches own).1, overridesProxy flag = false := by
  intro flag hflag
  obtain ⟨switch, hswitch, hflag⟩ := List.mem_flatMap.mp hflag
  unfold mergeFeatureSwitch at hflag
  dsimp only at hflag
  split at hflag
  · cases hflag
  · rw [List.mem_singleton.mp hflag]
    exact overridesProxy_mergeable hswitch _

theorem not_mergeable_of_overrides {flag : Text} (h : overridesProxy flag = true) :
    mergeable flag = false := by
  rw [mergeable, List.any_eq_false]
  intro switch hswitch hprefix
  obtain ⟨value, rfl⟩ := List.isPrefixOf_iff_prefix.mp hprefix
  rw [overridesProxy_mergeable hswitch] at h
  cases h

/-- Of what comes before the relay's switches, only the factory's flags can override them. -/
theorem flagsBefore_overrides {spec : LaunchSpec} {own : List Text} {flag : Text}
    (h : overridesProxy flag = true) : flag ∈ flagsBefore spec own ↔ flag ∈ own := by
  have hnot : ∀ {flags : List Text}, (∀ flag ∈ flags, overridesProxy flag = false) →
      flag ∉ flags := by
    intro flags hall hmem
    rw [hall flag hmem] at h
    cases h
  have hdefault : flag ∉ DEFAULT_FLAGS.filter (! mergeable ·) :=
    hnot fun other hmem => overridesProxy_default other (List.mem_of_mem_filter hmem)
  have hmerged := hnot (overridesProxy_merged own)
  have hpipe : flag ∉ [text "--remote-debugging-pipe"] := hnot (by decide)
  have hdir : flag ∉ [text "--user-data-dir=" ++ spec.userDataDir] := by
    apply hnot
    intro other hmem
    rw [List.mem_singleton.mp hmem]
    exact overridesProxy_named (text "user-data-dir") (by decide) (by decide) _
  have hsandbox : flag ∉ if spec.noSandbox then [text "--no-sandbox"] else [] := by
    apply hnot
    cases spec.noSandbox with
    | true => decide
    | false => decide
  have hshm : flag ∉ if spec.disableDevShm then [text "--disable-dev-shm-usage"] else [] := by
    apply hnot
    cases spec.disableDevShm with
    | true => decide
    | false => decide
  have hkept : flag ∈ own.filter (! mergeable ·) ↔ flag ∈ own := by
    rw [List.mem_filter, not_mergeable_of_overrides h]
    exact and_iff_left rfl
  simp only [flagsBefore, List.mem_append, hdefault, hmerged, hpipe, hdir, hsandbox, hshm, hkept,
    false_or]

theorem overridesProxy_stealth (major : Option Nat) (extra : List Text) :
    ∀ flag ∈ stealthFlags major extra, overridesProxy flag = false := by
  intro flag hflag
  unfold stealthFlags at hflag
  dsimp only at hflag
  simp only [List.mem_append, List.mem_singleton] at hflag
  obtain (rfl | hflag) | hflag := hflag
  · decide +kernel
  · split at hflag
    · split at hflag
      · cases hflag
      · rw [List.mem_singleton.mp hflag]
        exact overridesProxy_named (text "user-agent") (by decide) (by decide) _
    · cases hflag
  · split at hflag
    · cases hflag
    · rw [List.mem_singleton.mp hflag]
      decide +kernel

theorem launchExtraFlags_overrides {stealth : Bool} {major : Option Nat} {extra : List Text}
    {flag : Text} (h : overridesProxy flag = true) :
    flag ∈ launchExtraFlags stealth major extra ↔ flag ∈ extra := by
  unfold launchExtraFlags
  split
  · rw [List.mem_append]
    apply or_iff_right
    intro hmem
    rw [overridesProxy_stealth major extra flag hmem] at h
    cases h
  · exact Iff.rfl

theorem overridesProxy_from (server : Text) :
    ∀ flag ∈ flagsFrom server, overridesProxy flag = false := by
  intro flag hflag
  simp only [flagsFrom, sessionProxyFlags, List.cons_append, List.nil_append, List.mem_cons,
    List.not_mem_nil, or_false] at hflag
  rcases hflag with rfl | rfl | rfl | rfl
  · exact overridesProxy_named (text "proxy-server") (by decide) (by decide) _
  · decide
  · decide
  · decide

/-- What the relay's flags set, for an address without blanks. -/
theorem flagsFrom_switches {server : Text} (h : ∀ c ∈ server, isBlank c = false) :
    (flagsFrom server).filterMap readSwitch =
      [⟨text "proxy-server", server⟩, ⟨text "proxy-bypass-list", text "<-loopback>"⟩,
        ⟨text "force-webrtc-ip-handling-policy", text "disable_non_proxied_udp"⟩] := by
  have hserver : readSwitch (text "--proxy-server=" ++ server) =
      some ⟨text "proxy-server", server⟩ := by
    have hread := readSwitch_named (text "proxy-server") (by decide) server
    rw [dropWhile_reverse_self h] at hread
    exact hread
  have hbypass : readSwitch (text "--proxy-bypass-list=<-loopback>") =
      some ⟨text "proxy-bypass-list", text "<-loopback>"⟩ := by decide +kernel
  have hwebrtc : readSwitch (text "--force-webrtc-ip-handling-policy=disable_non_proxied_udp") =
      some ⟨text "force-webrtc-ip-handling-policy", text "disable_non_proxied_udp"⟩ := by
    decide +kernel
  have hblank : readSwitch (text "about:blank") = none := by decide +kernel
  simp only [flagsFrom, sessionProxyFlags, List.cons_append, List.nil_append,
    List.filterMap_cons, List.filterMap_nil, hserver, hbypass, hwebrtc, hblank]

theorem usesRelay {before : List Text} {server : Text} (hserver : ∀ c ∈ server, isBlank c = false)
    (h : ∀ arg ∈ before, overridesProxy arg = false) :
    UsesRelay server (before ++ flagsFrom server) := by
  have hall : ∀ arg ∈ before ++ flagsFrom server, overridesProxy arg = false := by
    intro arg hmem
    cases List.mem_append.mp hmem with
    | inl hbefore => exact h arg hbefore
    | inr hfrom => exact overridesProxy_from server arg hfrom
  have hvalue : ∀ {name value : Text}, switchValue name
        [⟨text "proxy-server", server⟩, ⟨text "proxy-bypass-list", text "<-loopback>"⟩,
          ⟨text "force-webrtc-ip-handling-policy", text "disable_non_proxied_udp"⟩] = some value →
      switchValue name ((before ++ flagsFrom server).filterMap readSwitch) = some value := by
    intro name value hlast
    rw [List.filterMap_append, flagsFrom_switches hserver, switchValue_append, hlast]
    rfl
  constructor
  · rw [ProxySettings.of_fixed hall (hvalue rfl), hvalue rfl]
    rfl
  · rw [switchesOf_eq fun arg hmem => not_endsSwitches (hall arg hmem)]
    exact hvalue rfl

theorem not_usesRelay {before : List Text} {flag : Text} {switch : Switch} (hmem : flag ∈ before)
    (hread : readSwitch flag = some switch) (hname : switch.name ∈ OVERRIDING_SWITCHES)
    (hnone : ∀ arg ∈ before, endsSwitches arg = false) (server : Text) (more : List Text) :
    ¬UsesRelay server (before ++ more) := by
  intro huses
  have hswitch : switch ∈ switchesOf (before ++ more) := by
    rw [switchesOf_append hnone]
    exact List.mem_append_left _ (List.mem_filterMap.mpr ⟨flag, hmem, hread⟩)
  exact ProxySettings.of_overridden hswitch hname _ _ huses.1

/-- A flag that overrides a relay keeps it from being used, or any other than it. -/
theorem overrides_usesRelay {before : List Text} {flag server other : Text}
    (hmem : flag ∈ before) (h : overridesProxy flag = true) (hne : server ≠ other)
    (huses : UsesRelay server (before ++ flagsFrom server)) :
    ¬UsesRelay other (before ++ flagsFrom other) := by
  by_cases hends : ∃ arg ∈ before, endsSwitches arg = true
  · obtain ⟨arg, harg, hends⟩ := hends
    intro hother
    have hsettings := huses.1
    rw [switchesOf_ended harg hends, ← switchesOf_ended harg hends (flagsFrom other),
      hother.1] at hsettings
    exact hne (ProxySettings.fixed.inj hsettings).1.symm
  · have hnone : ∀ arg ∈ before, endsSwitches arg = false := by
      intro arg harg
      rw [← Bool.not_eq_true]
      exact fun htrue => hends ⟨arg, harg, htrue⟩
    rw [overridesProxy, hnone flag hmem, Bool.false_or, Option.any_eq_true] at h
    obtain ⟨switch, hread, hname⟩ := h
    exact not_usesRelay hmem hread ((overridingSwitches_any _).mp hname) hnone other _

end Chrome

theorem Relay.proxyServer_not_blank (relay : Relay) :
    ∀ c ∈ relay.proxyServer, isBlank c = false := by
  intro c hc
  cases List.mem_append.mp hc with
  | inl haddress =>
    have hall : (text "http://127.0.0.1:").all (! isBlank ·) = true := by decide +kernel
    rw [← Bool.not_eq_true', List.all_eq_true.mp hall c haddress]
  | inr hport => exact not_isBlank_nat relay.port c hport

/-- The relay that a call is given for its session. -/
def CreateCall.relay : CreateCall → Option Relay
  | create => none
  | createSeeded _ relay => relay
  | createProxied relay => some relay

/-- Operations of which the launches are of a kind. -/
def LaunchedAs (kind : Chrome.LaunchSpec → Prop) : FactoryOp → Prop
  | .launch spec => kind spec
  | _ => True

/-- Code whose launches are of a kind, whatever its host answers. -/
abbrev LaunchesOnly (kind : Chrome.LaunchSpec → Prop) (p : FactoryM α) : Prop :=
  p.Asks (LaunchedAs kind) fun _ _ => True

section
variable {f : ChromeFactory} {kind : Chrome.LaunchSpec → Prop} {flags : List Text}
  {dirs : SessionDirs}

theorem launchedAs_of_not_launches {op : FactoryOp} (h : op.launches = false) :
    LaunchedAs kind op := by
  cases op with
  | launch spec => cases h
  | _ => trivial

theorem launchesOnly_ask {op : FactoryOp} (h : op.launches = false) :
    LaunchesOnly kind (ask op) :=
  Program.asks_ask (launchedAs_of_not_launches h)

theorem launchesOnly_destroyCgroup (cgroup : Option Text) :
    LaunchesOnly kind (destroyCgroup cgroup) :=
  destroyCgroup_asks cgroup fun _ h => launchedAs_of_not_launches (removes_not_launches h)

theorem launchesOnly_teardown (dirs : SessionDirs) : LaunchesOnly kind dirs.teardown :=
  dirs.teardown_asks fun _ h => launchedAs_of_not_launches (removes_not_launches h)

theorem launchesOnly_provisionPlain (dataDir id : Text) :
    LaunchesOnly kind (SessionDirs.provisionPlain dataDir id) := by
  apply Program.asks_bind (launchesOnly_ask rfl)
  intro made
  cases made with
  | error e => exact Program.asks_pure
  | ok _ => exact Program.asks_pure

theorem launchesOnly_provisionDirs : LaunchesOnly kind f.provisionDirs := by
  apply Program.asks_bind (launchesOnly_ask rfl)
  intro id
  apply Program.asks_bind (launchesOnly_ask rfl)
  intro template
  cases template with
  | none => exact launchesOnly_provisionPlain _ _
  | some template =>
    apply Program.asks_bind (launchesOnly_ask rfl)
    intro cloned
    split
    · exact Program.asks_pure
    · exact launchesOnly_provisionPlain _ _

theorem launchesOnly_launchBrowser {userDataDir : Text} {cgroupLeaf : Option Text}
    (h : ∀ spec : Chrome.LaunchSpec, spec.extraFlags = flags → kind spec) :
    LaunchesOnly kind (f.launchBrowser userDataDir cgroupLeaf flags) := by
  refine ⟨trivial, fun disabled _ => ⟨trivial, fun noSandbox _ => ⟨h _ rfl, fun launched _ => ?_⟩⟩⟩
  cases launched with
  | ok browser => trivial
  | error e =>
    dsimp only [Program.bind]
    split
    · refine ⟨trivial, fun _ _ => ?_⟩
      split
      · trivial
      · exact ⟨trivial, fun _ _ => ⟨trivial, fun again _ => ⟨h _ rfl, fun _ _ => trivial⟩⟩⟩
    · trivial

theorem launchesOnly_prepareLeaf : LaunchesOnly kind f.prepareLeaf := by
  apply Program.asks_bind (Program.asks_ask trivial)
  intro blocked
  split
  · exact Program.asks_pure
  · split
    · exact Program.asks_pure
    · apply Program.asks_bind (launchesOnly_ask rfl)
      intro seq
      apply Program.asks_bind (launchesOnly_ask rfl)
      intro made
      cases made with
      | error e => exact Program.asks_pure
      | ok _ =>
        apply Program.asks_bind
        · exact f.limitLeaf_asks _ fun _ h => launchedAs_of_not_launches (limits_not_launches h)
        · intro _
          exact Program.asks_pure

theorem launchesOnly_launchSession {relay : Option Relay}
    (h : ∀ spec : Chrome.LaunchSpec, spec.extraFlags = f.sessionFlags relay → kind spec) :
    LaunchesOnly kind (f.launchSession dirs relay) := by
  apply Program.asks_bind launchesOnly_prepareLeaf
  intro cgroup
  apply Program.asks_bind (launchesOnly_launchBrowser h)
  intro launched
  apply Program.asks_bind
  · unfold ChromeFactory.retryWithoutLeaf
    split
    · apply Program.asks_bind (launchesOnly_ask rfl)
      intro _
      apply Program.asks_bind (launchesOnly_destroyCgroup cgroup)
      intro _
      apply Program.asks_bind (launchesOnly_launchBrowser h)
      intro _
      exact Program.asks_pure
    · exact Program.asks_pure
  · rintro ⟨cgroup, launched⟩
    cases launched with
    | ok browser =>
      apply Program.asks_bind (launchesOnly_ask rfl)
      intro _
      apply Program.asks_bind
      · unfold ChromeFactory.spawnSoftCap
        split
        · exact Program.asks_pure
        · exact Program.asks_bind (launchesOnly_ask rfl) fun _ => Program.asks_pure
      · intro _
        exact Program.asks_pure
    | error e =>
      apply Program.asks_bind (launchesOnly_destroyCgroup cgroup)
      intro _
      exact Program.asks_bind (launchesOnly_teardown dirs) fun _ => Program.asks_pure

/-- Every launch for a call has the flags of the factory, and those for the call's relay. -/
theorem launchesOnly_createCall {call : CreateCall}
    (h : ∀ spec : Chrome.LaunchSpec, spec.extraFlags = f.sessionFlags call.relay → kind spec) :
    LaunchesOnly kind (call.program f) := by
  have hwithDirs : ∀ run : SessionDirs → FactoryM (Except CreateError ChromeSession),
      (∀ dirs, LaunchesOnly kind (run dirs)) → LaunchesOnly kind (f.withDirs run) := by
    intro run hrun
    apply Program.asks_bind launchesOnly_provisionDirs
    intro made
    cases made with
    | error e => exact Program.asks_pure
    | ok dirs => exact hrun dirs
  cases call with
  | create => exact hwithDirs _ fun dirs => launchesOnly_launchSession h
  | createProxied relay => exact hwithDirs _ fun dirs => launchesOnly_launchSession h
  | createSeeded indexeddb relay =>
    apply hwithDirs
    intro dirs
    split
    · exact launchesOnly_launchSession h
    · apply Program.asks_bind (launchesOnly_ask rfl)
      intro extracted
      split
      · exact launchesOnly_launchSession h
      · exact Program.asks_bind (launchesOnly_teardown dirs) fun _ => Program.asks_pure
      · exact Program.asks_bind (launchesOnly_teardown dirs) fun _ => Program.asks_pure

end

/-- A launch for a new session, with the sandbox, in no leaf. -/
def ChromeFactory.proxiedSpec (f : ChromeFactory) (relay : Relay) : Chrome.LaunchSpec where
  executable := f.executable
  userDataDir := (SessionDirs.new f.dataDir []).userDataDir
  noSandbox := false
  disableDevShm := f.disableDevShm
  extraFlags := f.sessionFlags (some relay)
  launchTimeout := f.launchTimeout
  maxFrameBytes := f.maxFrameBytes
  cgroupLeaf := none

theorem createProxied_launches {f : ChromeFactory} {kind : Chrome.LaunchSpec → Prop} {relay : Relay}
    (h : LaunchesOnly kind (f.createProxied relay)) : kind (f.proxiedSpec relay) := by
  have hdirs := ((h.2 [] trivial).2 none trivial).2 (.ok ()) trivial
  have hleaf := hdirs.2 true trivial
  exact ((hleaf.2 false trivial).2 false trivial).1

open Chrome in
theorem proxiedSpec_args (config : LoadedConfig) (host : FactoryHost) (relay : Relay) :
    ((ChromeFactory.new config host).proxiedSpec relay).args =
      flagsBefore ((ChromeFactory.new config host).proxiedSpec relay)
        (launchExtraFlags config.stealth host.major config.extraFlags) ++
        flagsFrom relay.proxyServer := args_proxied rfl

open Chrome in
theorem flagsBefore_operator {spec : LaunchSpec} {config : LoadedConfig} {host : FactoryHost}
    {flag : Text} (h : overridesProxy flag = true) :
    flag ∈ flagsBefore spec (launchExtraFlags config.stealth host.major config.extraFlags) ↔
      flag ∈ config.extraFlags := by
  rw [flagsBefore_overrides h, launchExtraFlags_overrides h]

open Chrome in
/-- The browser of every session with a proxy uses its relay, exactly where no flag of the operator
ends the switches or is a switch with precedence. -/
theorem proxied_session_uses_relay_iff (config : LoadedConfig) (host : FactoryHost) :
    (∀ options, sessionProxyPolicy config.toRuntimeConfig = .ok options →
      ∀ (call : CreateCall) (relay : Relay), call.relay = some relay →
        LaunchesOnly (fun spec => UsesRelay relay.proxyServer spec.args)
          (call.program (.new config host))) ↔
      ∀ options, sessionProxyPolicy config.toRuntimeConfig = .ok options →
        ∀ flag ∈ config.extraFlags, overridesProxy flag = false := by
  constructor
  · intro huses options hpolicy flag hflag
    rw [← Bool.not_eq_true]
    intro hoverrides
    have hone := createProxied_launches (huses options hpolicy (.createProxied ⟨1⟩) ⟨1⟩ rfl)
    have htwo := createProxied_launches (huses options hpolicy (.createProxied ⟨2⟩) ⟨2⟩ rfl)
    rw [proxiedSpec_args] at hone htwo
    exact overrides_usesRelay ((flagsBefore_operator hoverrides).mpr hflag) hoverrides
      (by decide +kernel) hone htwo
  · intro hnone options hpolicy call relay hrelay
    apply launchesOnly_createCall
    intro spec hflags
    rw [hrelay] at hflags
    have hargs : spec.args = flagsBefore spec
        (launchExtraFlags config.stealth host.major config.extraFlags) ++
        flagsFrom relay.proxyServer := args_proxied hflags
    rw [hargs]
    apply usesRelay relay.proxyServer_not_blank
    intro flag hflag
    rw [← Bool.not_eq_true]
    intro hoverrides
    rw [hnone options hpolicy flag ((flagsBefore_operator hoverrides).mp hflag)] at hoverrides
    cases hoverrides

open Chrome in
/-- The policy does not look for the switch that turns proxies off. -/
theorem proxied_session_goes_direct :
    let config := { LoadedConfig.default 4 with extraFlags := [text "--no-proxy-server"] }
    sessionProxyPolicy config.toRuntimeConfig = .ok RelayOptions.default ∧
      ¬LaunchesOnly (fun spec => UsesRelay (Relay.proxyServer ⟨40000⟩) spec.args)
        (CreateCall.program (.new config .plain) (.createProxied ⟨40000⟩)) := by
  intro config
  have hread : readSwitch (text "--no-proxy-server") = some ⟨text "no-proxy-server", []⟩ := by
    decide +kernel
  have hoverrides : overridesProxy (text "--no-proxy-server") = true := by decide +kernel
  constructor
  · rfl
  · intro huses
    have hlaunch := createProxied_launches huses
    rw [proxiedSpec_args] at hlaunch
    apply not_usesRelay ((flagsBefore_operator hoverrides).mpr List.mem_cons_self) hread
      (by decide +kernel) _ _ _ hlaunch
    intro arg harg
    rw [← Bool.not_eq_true]
    intro hends
    have hextra := (flagsBefore_operator (by rw [overridesProxy, hends]; rfl)).mp harg
    rw [List.mem_singleton.mp hextra] at hends
    revert hends
    decide +kernel

end BrowserServe
