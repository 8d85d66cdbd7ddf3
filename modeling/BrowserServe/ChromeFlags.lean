import BrowserServe.Library.Text
import Mathlib.Data.List.Infix

namespace BrowserServe.Chrome
open Library
set_option autoImplicit true

def DEFAULT_FLAGS : List Text := List.map text
  ["--headless",
    "--allow-pre-commit-input",
    "--disable-background-networking",
    "--disable-background-timer-throttling",
    "--disable-backgrounding-occluded-windows",
    "--disable-renderer-backgrounding",
    "--disable-breakpad",
    "--disable-crash-reporter",
    "--disable-client-side-phishing-detection",
    "--disable-component-extensions-with-background-pages",
    "--disable-component-update",
    "--disable-default-apps",
    "--disable-extensions",
    "--disable-hang-monitor",
    "--disable-ipc-flooding-protection",
    "--disable-popup-blocking",
    "--disable-prompt-on-repost",
    "--disable-session-crashed-bubble",
    "--hide-crash-restore-bubble",
    "--disable-sync",
    "--disable-features=Translate,MediaRouter,DialMediaRouteProvider,OptimizationHints," ++
      "AcceptCHFrame,DestroyProfileOnBrowserClose",
    "--export-tagged-pdf",
    "--force-color-profile=srgb",
    "--metrics-recording-only",
    "--mute-audio",
    "--no-default-browser-check",
    "--no-first-run",
    "--password-store=basic",
    "--use-mock-keychain",
    "--window-size=1280,720"]

def STEALTH_SCREEN : Text := text "--screen-info=\x7b1920x1080\x7d"

/-- On Linux. -/
def stockUserAgent (major : Nat) : Text :=
  text "Mozilla/5.0 (X11; Linux x86_64) AppleWebKit/537.36 (KHTML, like Gecko) Chrome/" ++
    text (toString major) ++ text ".0.0.0 Safari/537.36"

def stealthFlags (major : Option Nat) (extra : List Text) : List Text :=
  let userSets := fun (switch : String) => extra.any fun f => (text switch).isPrefixOf f
  [text "--disable-blink-features=AutomationControlled"] ++
    (match major with
      | some major =>
        if userSets "--user-agent=" then [] else [text "--user-agent=" ++ stockUserAgent major]
      | none => []) ++
    if userSets "--screen-info=" then [] else [STEALTH_SCREEN]

/-- `major` is the version that is read from the executable. -/
def launchExtraFlags (stealth : Bool) (major : Option Nat) (extra : List Text) : List Text :=
  if stealth then stealthFlags major extra ++ extra else extra

def sessionProxyFlags (proxyServer : Text) : List Text :=
  [text "--proxy-server=" ++ proxyServer, text "--proxy-bypass-list=<-loopback>",
    text "--force-webrtc-ip-handling-policy=disable_non_proxied_udp"]

structure FlagOptions where
  userDataDir : Text
  noSandbox : Bool
  disableDevShm : Bool
  extra : List Text

def MERGEABLE_FEATURE_SWITCHES : List Text := List.map text
  ["--disable-features=", "--enable-features=", "--disable-blink-features="]

def mergeable (flag : Text) : Bool := MERGEABLE_FEATURE_SWITCHES.any fun s => s.isPrefixOf flag

def mergeParts (values parts : List Text) : List Text :=
  parts.foldl (fun values part => if part ∈ values then values else values ++ [part]) values

/-- The one flag for a switch, where the built-in flags or the extra ones have it. -/
def mergeFeatureSwitch (extra : List Text) (switch : Text) : List Text :=
  let builtIn := ((DEFAULT_FLAGS.find? fun f => switch.isPrefixOf f).map fun f =>
    (f.drop switch.length).splitOn ',').getD []
  let values := extra.foldl (fun values flag =>
    match stripPrefixText switch flag with
    | some v => mergeParts values (v.splitOn ',')
    | none => values) builtIn
  if values = [] then [] else [switch ++ [','].intercalate values]

def mergeFeatureSwitches (extra : List Text) : List Text × List Text :=
  (MERGEABLE_FEATURE_SWITCHES.flatMap (mergeFeatureSwitch extra), extra.filter (! mergeable ·))

def buildFlags (opts : FlagOptions) : List Text :=
  let (mergedFeatureSwitches, remainingExtra) := mergeFeatureSwitches opts.extra
  DEFAULT_FLAGS.filter (! mergeable ·) ++
    mergedFeatureSwitches ++
    [text "--remote-debugging-pipe"] ++
    [text "--user-data-dir=" ++ opts.userDataDir] ++
    (if opts.noSandbox then [text "--no-sandbox"] else []) ++
    (if opts.disableDevShm then [text "--disable-dev-shm-usage"] else []) ++
    remainingExtra ++
    [text "about:blank"]

def NO_SANDBOX : Text := text "--no-sandbox"

theorem noSandbox_startsWith {switch rest : Text} (h : switch ++ rest = NO_SANDBOX) :
    switch.isPrefixOf NO_SANDBOX = true :=
  List.isPrefixOf_iff_prefix.2 ⟨rest, h⟩

theorem noSandbox_not_merged (extra : List Text) :
    NO_SANDBOX ∉ (mergeFeatureSwitches extra).1 := by
  intro hmem
  obtain ⟨switch, hswitch, hflag⟩ := List.mem_flatMap.1 hmem
  unfold mergeFeatureSwitch at hflag
  dsimp only at hflag
  split at hflag
  · cases hflag
  · have hprefix := noSandbox_startsWith (List.mem_singleton.1 hflag).symm
    have hnone : ∀ switch ∈ MERGEABLE_FEATURE_SWITCHES, switch.isPrefixOf NO_SANDBOX = false := by
      decide
    rw [hnone switch hswitch] at hprefix
    cases hprefix

theorem mem_mergeFeatureSwitches_remaining {extra : List Text} :
    NO_SANDBOX ∈ (mergeFeatureSwitches extra).2 ↔ NO_SANDBOX ∈ extra := by
  have hkept : mergeable NO_SANDBOX = false := by decide
  simp [mergeFeatureSwitches, List.mem_filter, hkept]

/-- A browser is started without its sandbox exactly when the options or an extra flag say so. -/
theorem noSandbox_mem_buildFlags {opts : FlagOptions} :
    NO_SANDBOX ∈ buildFlags opts ↔ opts.noSandbox = true ∨ NO_SANDBOX ∈ opts.extra := by
  have hbuiltIn : NO_SANDBOX ∉ DEFAULT_FLAGS.filter (! mergeable ·) := by
    intro h
    exact absurd (List.mem_of_mem_filter h) (by decide +kernel)
  have hdir : NO_SANDBOX ≠ text "--user-data-dir=" ++ opts.userDataDir := by
    intro h
    exact absurd (noSandbox_startsWith h.symm) (by decide)
  have hpipe : NO_SANDBOX ≠ text "--remote-debugging-pipe" := by decide
  have hshm : NO_SANDBOX ∉ if opts.disableDevShm then [text "--disable-dev-shm-usage"] else [] := by
    cases opts.disableDevShm with
    | true => decide
    | false => decide
  have hswitch : NO_SANDBOX ∈ (if opts.noSandbox then [text "--no-sandbox"] else []) ↔
      opts.noSandbox = true := by
    cases opts.noSandbox with
    | true => decide
    | false => decide
  have hblank : NO_SANDBOX ≠ text "about:blank" := by decide
  simp only [buildFlags, List.mem_append, List.mem_singleton, hbuiltIn, hdir, hpipe, hshm, hswitch,
    hblank, noSandbox_not_merged, mem_mergeFeatureSwitches_remaining, false_or, or_false]

/-- The flags that are added for stealth leave the sandbox on. -/
theorem noSandbox_not_stealth (major : Option Nat) (extra : List Text) :
    NO_SANDBOX ∉ stealthFlags major extra := by
  intro h
  unfold stealthFlags at h
  dsimp only at h
  simp only [List.mem_append, List.mem_singleton] at h
  obtain (h | h) | h := h
  · exact absurd h (by decide)
  · split at h
    · split at h
      · cases h
      · exact absurd (noSandbox_startsWith (List.mem_singleton.1 h).symm) (by decide)
    · cases h
  · split at h
    · cases h
    · exact absurd (List.mem_singleton.1 h) (by decide)

theorem noSandbox_mem_launchExtraFlags {stealth : Bool} {major : Option Nat} {extra : List Text} :
    NO_SANDBOX ∈ launchExtraFlags stealth major extra ↔ NO_SANDBOX ∈ extra := by
  unfold launchExtraFlags
  split
  · rw [List.mem_append]
    exact or_iff_right (noSandbox_not_stealth major extra)
  · exact Iff.rfl

theorem noSandbox_not_proxy (proxyServer : Text) : NO_SANDBOX ∉ sessionProxyFlags proxyServer := by
  intro h
  simp only [sessionProxyFlags, List.mem_cons, List.not_mem_nil, or_false] at h
  obtain h | h | h := h
  · exact absurd (noSandbox_startsWith h.symm) (by decide)
  · exact absurd h (by decide)
  · exact absurd h (by decide)

end BrowserServe.Chrome
