import BrowserServe.ChromeFlags
import BrowserServe.Library.Framing

namespace BrowserServe.Chrome
open Library
set_option autoImplicit true

/-- The flags that set a switch. -/
def settings (switch : Text) (flags : List Text) : List Text := flags.filter (switch.isPrefixOf ·)

def valuesIn (switch flag : Text) : List Text :=
  match stripPrefixText switch flag with
  | some v => v.splitOn ','
  | none => []

/-- The values of a switch in all its occurrences. -/
def valuesOf (switch : Text) (flags : List Text) : List Text := flags.flatMap (valuesIn switch)

/-- The flags that stealth adds to an operator's. -/
def stealthOwn (stealth : Bool) (major : Option Nat) (extra : List Text) : List Text :=
  if stealth then stealthFlags major extra else []

section
variable {switch other flag : Text} {flags extra : List Text}

theorem launchExtraFlags_eq (stealth : Bool) (major : Option Nat) (extra : List Text) :
    launchExtraFlags stealth major extra = stealthOwn stealth major extra ++ extra := by
  cases stealth with
  | true => rfl
  | false => rfl

theorem valuesOf_cons (switch flag : Text) (flags : List Text) :
    valuesOf switch (flag :: flags) = valuesIn switch flag ++ valuesOf switch flags :=
  List.flatMap_cons

theorem valuesOf_append (switch : Text) (flags more : List Text) :
    valuesOf switch (flags ++ more) = valuesOf switch flags ++ valuesOf switch more :=
  List.flatMap_append

theorem settings_append (switch : Text) (flags more : List Text) :
    settings switch (flags ++ more) = settings switch flags ++ settings switch more :=
  List.filter_append ..

theorem settings_nil (h : ∀ flag ∈ flags, switch.isPrefixOf flag = false) :
    settings switch flags = [] := by
  apply List.filter_eq_nil_iff.mpr
  intro flag hflag
  rw [h flag hflag]
  decide

theorem valuesIn_of_not_prefix (h : switch.isPrefixOf flag = false) :
    valuesIn switch flag = [] := by
  simp [valuesIn, stripPrefixText, h]

/-- Only the flags that set a switch have values of it. -/
theorem valuesOf_settings (switch : Text) (flags : List Text) :
    valuesOf switch (settings switch flags) = valuesOf switch flags := by
  induction flags with
  | nil => rfl
  | cons flag flags ih =>
    rw [valuesOf_cons, ← ih]
    cases hset : switch.isPrefixOf flag with
    | true =>
      rw [settings, List.filter_cons_of_pos hset, valuesOf_cons]
      rfl
    | false =>
      rw [settings, List.filter_cons_of_neg (by simp [hset]), valuesIn_of_not_prefix hset]
      rfl

theorem mergeParts_append (values parts more : List Text) :
    mergeParts values (parts ++ more) = mergeParts (mergeParts values parts) more :=
  List.foldl_append

/-- Merging appends what is not there yet, in the order in which it is first seen. -/
theorem mergeParts_eq (values parts : List Text) :
    mergeParts values parts = values ++ (parts.filter (· ∉ values)).eraseDups := by
  induction parts generalizing values with
  | nil => simp [mergeParts]
  | cons part parts ih =>
    have hstep : mergeParts values (part :: parts) =
        mergeParts (if part ∈ values then values else values ++ [part]) parts := rfl
    rw [hstep]
    by_cases hpart : part ∈ values
    · rw [if_pos hpart, ih, List.filter_cons_of_neg (by simpa using hpart)]
    · have hlater : parts.filter (· ∉ values ++ [part]) =
          (parts.filter (· ∉ values)).filter (! · == part) := by
        rw [List.filter_filter]
        apply List.filter_congr
        intro other _
        by_cases hsame : other = part
        · simp [hsame]
        · simp [hsame]
      rw [if_neg hpart, ih, hlater, List.filter_cons_of_pos (by simpa using hpart),
        List.eraseDups_cons, List.append_assoc, List.singleton_append]

theorem foldl_mergeParts {step : List Text → Text → List Text}
    (hstep : ∀ values flag, step values flag = mergeParts values (valuesIn switch flag))
    (values extra : List Text) :
    extra.foldl step values = mergeParts values (valuesOf switch extra) := by
  induction extra generalizing values with
  | nil => rfl
  | cons flag extra ih =>
    rw [List.foldl_cons, ih, hstep, valuesOf_cons, mergeParts_append]

theorem builtIn_values (h : switch ∈ MERGEABLE_FEATURE_SWITCHES) :
    ((DEFAULT_FLAGS.find? fun f => switch.isPrefixOf f).map fun f =>
      (f.drop switch.length).splitOn ',').getD [] = valuesOf switch DEFAULT_FLAGS := by
  have hall : ∀ switch ∈ MERGEABLE_FEATURE_SWITCHES,
      ((DEFAULT_FLAGS.find? fun f => switch.isPrefixOf f).map fun f =>
        (f.drop switch.length).splitOn ',').getD [] = valuesOf switch DEFAULT_FLAGS := by
    decide +kernel
  exact hall switch h

/-- The values that a merged switch gets. -/
def mergedValues (switch : Text) (extra : List Text) : List Text :=
  valuesOf switch DEFAULT_FLAGS ++
    ((valuesOf switch extra).filter (! (valuesOf switch DEFAULT_FLAGS).contains ·)).eraseDups

theorem mergedValues_eq (switch : Text) (extra : List Text) :
    mergedValues switch extra = valuesOf switch DEFAULT_FLAGS ++
      ((valuesOf switch extra).filter (· ∉ valuesOf switch DEFAULT_FLAGS)).eraseDups := by
  simp only [mergedValues, List.contains_eq_mem, decide_not]

theorem mergeFeatureSwitch_eq (h : switch ∈ MERGEABLE_FEATURE_SWITCHES) (extra : List Text) :
    mergeFeatureSwitch extra switch =
      if mergedValues switch extra = [] then []
      else [switch ++ [','].intercalate (mergedValues switch extra)] := by
  unfold mergeFeatureSwitch
  rw [builtIn_values h]
  dsimp only
  rw [foldl_mergeParts, mergeParts_eq, ← mergedValues_eq]
  intro values flag
  unfold valuesIn
  cases stripPrefixText switch flag with
  | some v => rfl
  | none => rfl

theorem not_mem_valuesIn {v : Text} (h : v ∈ valuesIn switch flag) : ',' ∉ v := by
  unfold valuesIn at h
  split at h
  · exact not_mem_of_mem_splitOn ',' _ v h
  · cases h

theorem not_mem_mergedValues {v : Text} (h : v ∈ mergedValues switch extra) : ',' ∉ v := by
  have hof {flags : List Text} (hv : v ∈ valuesOf switch flags) : ',' ∉ v := by
    obtain ⟨flag, _, hin⟩ := List.mem_flatMap.mp hv
    exact not_mem_valuesIn hin
  rw [mergedValues_eq] at h
  rcases List.mem_append.mp h with h | h
  · exact hof h
  · exact hof (List.mem_of_mem_filter (List.mem_eraseDups.mp h))

/-- The merged flag has the values that are merged. -/
theorem valuesOf_mergeFeatureSwitch (h : switch ∈ MERGEABLE_FEATURE_SWITCHES)
    (extra : List Text) : valuesOf switch (mergeFeatureSwitch extra switch) =
      mergedValues switch extra := by
  rw [mergeFeatureSwitch_eq h]
  split
  · rename_i hnone
    rw [hnone]
    rfl
  · rename_i hsome
    have hstrip : stripPrefixText switch (switch ++ [','].intercalate (mergedValues switch extra)) =
        some ([','].intercalate (mergedValues switch extra)) := stripPrefixText_eq_some.mpr rfl
    rw [valuesOf, List.flatMap_singleton, valuesIn, hstrip]
    exact List.splitOn_intercalate _ (fun v hv => not_mem_mergedValues hv) hsome

theorem settings_mergeFeatureSwitch (h : switch ∈ MERGEABLE_FEATURE_SWITCHES)
    (extra : List Text) : settings switch (mergeFeatureSwitch extra switch) =
      mergeFeatureSwitch extra switch := by
  apply List.filter_eq_self.mpr
  intro flag hflag
  rw [mergeFeatureSwitch_eq h] at hflag
  split at hflag
  · cases hflag
  · rw [List.mem_singleton.mp hflag]
    exact List.isPrefixOf_iff_prefix.mpr (List.prefix_append _ _)

/-- A flag does not set a switch that neither starts the other switch it sets nor starts with it. -/
theorem not_sets_append (h : switch.isPrefixOf other = false) (h' : other.isPrefixOf switch = false)
    (v : Text) : switch.isPrefixOf (other ++ v) = false := by
  cases hset : switch.isPrefixOf (other ++ v) with
  | false => rfl
  | true =>
    rcases List.prefix_or_prefix_of_prefix (List.isPrefixOf_iff_prefix.mp hset)
        (List.prefix_append other v) with hpre | hpre
    · rw [List.isPrefixOf_iff_prefix.mpr hpre] at h
      cases h
    · rw [List.isPrefixOf_iff_prefix.mpr hpre] at h'
      cases h'

theorem settings_other (hother : other ∈ MERGEABLE_FEATURE_SWITCHES)
    (h : switch.isPrefixOf other = false) (h' : other.isPrefixOf switch = false)
    (extra : List Text) : settings switch (mergeFeatureSwitch extra other) = [] := by
  apply settings_nil
  intro flag hflag
  rw [mergeFeatureSwitch_eq hother] at hflag
  split at hflag
  · cases hflag
  · rw [List.mem_singleton.mp hflag]
    exact not_sets_append h h' _

theorem settings_merged (h : switch ∈ MERGEABLE_FEATURE_SWITCHES) (extra : List Text) :
    settings switch (mergeFeatureSwitches extra).1 = mergeFeatureSwitch extra switch := by
  have hapart : ∀ s ∈ MERGEABLE_FEATURE_SWITCHES, ∀ t ∈ MERGEABLE_FEATURE_SWITCHES, s ≠ t →
      s.isPrefixOf t = false := by decide
  have hother : ∀ t ∈ MERGEABLE_FEATURE_SWITCHES, t ≠ switch →
      settings switch (mergeFeatureSwitch extra t) = [] :=
    fun t ht hne => settings_other ht (hapart _ h _ ht hne.symm) (hapart _ ht _ h hne) extra
  have hself := settings_mergeFeatureSwitch h extra
  have hnames : text "--disable-features=" ≠ text "--enable-features=" ∧
      text "--disable-features=" ≠ text "--disable-blink-features=" ∧
      text "--enable-features=" ≠ text "--disable-blink-features=" := by decide
  have hfeatures := hother (text "--disable-features=") (by decide)
  have henable := hother (text "--enable-features=") (by decide)
  have hblink := hother (text "--disable-blink-features=") (by decide)
  simp only [MERGEABLE_FEATURE_SWITCHES, List.map_cons, List.map_nil, List.mem_cons,
    List.not_mem_nil, or_false] at h
  simp only [mergeFeatureSwitches, MERGEABLE_FEATURE_SWITCHES, List.map_cons, List.map_nil,
    List.flatMap_cons, List.flatMap_nil, List.append_nil, settings_append]
  rcases h with rfl | rfl | rfl
  · rw [hself, henable hnames.1.symm, hblink hnames.2.1.symm, List.append_nil, List.append_nil]
  · rw [hself, hfeatures hnames.1, hblink hnames.2.2.symm, List.append_nil, List.nil_append]
  · rw [hself, hfeatures hnames.2.1, henable hnames.2.2, List.nil_append, List.nil_append]

end

/-- The built-in flags of a launch, with the merged switches among them. -/
def builtInFlags (opts : FlagOptions) : List Text :=
  DEFAULT_FLAGS.filter (! mergeable ·) ++
    (mergeFeatureSwitches opts.extra).1 ++
    [text "--remote-debugging-pipe"] ++
    [text "--user-data-dir=" ++ opts.userDataDir] ++
    (if opts.noSandbox then [text "--no-sandbox"] else []) ++
    (if opts.disableDevShm then [text "--disable-dev-shm-usage"] else [])

/-- The switches that an operator's own setting of is kept alone. -/
def OPERATOR_SWITCHES : List Text := List.map text ["--user-agent=", "--screen-info="]

section
variable {switch : Text} {extra : List Text}

theorem buildFlags_eq (opts : FlagOptions) : buildFlags opts =
    builtInFlags opts ++ opts.extra.filter (! mergeable ·) ++ [text "about:blank"] := by
  simp only [buildFlags, builtInFlags, mergeFeatureSwitches]

/-- Of the built-in flags only the merged ones set one of these switches. -/
theorem settings_builtInFlags (h : switch ∈ MERGEABLE_FEATURE_SWITCHES ++ OPERATOR_SWITCHES)
    (opts : FlagOptions) :
    settings switch (builtInFlags opts) = settings switch (mergeFeatureSwitches opts.extra).1 := by
  have hdefaults : ∀ s ∈ MERGEABLE_FEATURE_SWITCHES ++ OPERATOR_SWITCHES,
      ∀ flag ∈ DEFAULT_FLAGS.filter (! mergeable ·), s.isPrefixOf flag = false := by
    decide +kernel
  have hfixed : ∀ s ∈ MERGEABLE_FEATURE_SWITCHES ++ OPERATOR_SWITCHES,
      ∀ flag ∈ List.map text ["--remote-debugging-pipe", "--no-sandbox", "--disable-dev-shm-usage"],
        s.isPrefixOf flag = false := by
    decide +kernel
  have hdir : ∀ s ∈ MERGEABLE_FEATURE_SWITCHES ++ OPERATOR_SWITCHES,
      s.isPrefixOf (text "--user-data-dir=") = false ∧
        (text "--user-data-dir=").isPrefixOf s = false := by
    decide +kernel
  simp only [List.map_cons, List.map_nil, List.forall_mem_cons] at hfixed
  obtain ⟨hpipe, hsandbox, hshm, _⟩ := hfixed switch h
  have hone {flag : Text} (hflag : switch.isPrefixOf flag = false) : settings switch [flag] = [] :=
    settings_nil fun _ hmem => List.mem_singleton.mp hmem ▸ hflag
  have hif (set : Bool) {flag : Text} (hflag : switch.isPrefixOf flag = false) :
      settings switch (if set then [flag] else []) = [] := by
    cases set with
    | true => exact hone hflag
    | false => rfl
  simp only [builtInFlags, settings_append, settings_nil (hdefaults switch h), hone hpipe,
    hone (not_sets_append (hdir switch h).1 (hdir switch h).2 opts.userDataDir), hif _ hsandbox,
    hif _ hshm, List.nil_append, List.append_nil]

theorem settings_blank (h : switch ∈ MERGEABLE_FEATURE_SWITCHES ++ OPERATOR_SWITCHES) :
    settings switch [text "about:blank"] = [] := by
  have hblank : ∀ s ∈ MERGEABLE_FEATURE_SWITCHES ++ OPERATOR_SWITCHES,
      settings s [text "about:blank"] = [] := by decide +kernel
  exact hblank switch h

/-- A merged switch is set by the merged flag only. -/
theorem settings_buildFlags (h : switch ∈ MERGEABLE_FEATURE_SWITCHES) (opts : FlagOptions) :
    settings switch (buildFlags opts) = mergeFeatureSwitch opts.extra switch := by
  have hremaining : settings switch (opts.extra.filter (! mergeable ·)) = [] := by
    apply settings_nil
    intro flag hflag
    have hplain := (List.mem_filter.mp hflag).2
    simp only [Bool.not_eq_true', mergeable, List.any_eq_false] at hplain
    exact Bool.eq_false_iff.mpr (hplain switch h)
  have hmem := List.mem_append_left OPERATOR_SWITCHES h
  rw [buildFlags_eq, settings_append, settings_append, settings_builtInFlags hmem,
    settings_blank hmem, hremaining, settings_merged h, List.append_nil, List.append_nil]

/-- Another switch is set by the extra flags as they are. -/
theorem settings_buildFlags_operator (h : switch ∈ OPERATOR_SWITCHES) (opts : FlagOptions) :
    settings switch (buildFlags opts) = settings switch opts.extra := by
  have hapart : ∀ s ∈ OPERATOR_SWITCHES, ∀ t ∈ MERGEABLE_FEATURE_SWITCHES,
      s.isPrefixOf t = false ∧ t.isPrefixOf s = false := by decide
  have hmerged : settings switch (mergeFeatureSwitches opts.extra).1 = [] := by
    apply settings_nil
    intro flag hflag
    obtain ⟨other, hother, hin⟩ := List.mem_flatMap.mp hflag
    obtain ⟨hfirst, hsecond⟩ := hapart switch h other hother
    have hnone := settings_other hother hfirst hsecond opts.extra
    exact Bool.eq_false_iff.mpr (List.filter_eq_nil_iff.mp hnone flag hin)
  have hremaining : settings switch (opts.extra.filter (! mergeable ·)) =
      settings switch opts.extra := by
    rw [settings, List.filter_filter]
    apply List.filter_congr
    intro flag _
    cases hset : switch.isPrefixOf flag with
    | false => rfl
    | true =>
      obtain ⟨v, rfl⟩ := List.isPrefixOf_iff_prefix.mp hset
      have hplain : mergeable (switch ++ v) = false := by
        apply List.any_eq_false.mpr
        intro other hother
        obtain ⟨hfirst, hsecond⟩ := hapart switch h other hother
        exact Bool.eq_false_iff.mp (not_sets_append hsecond hfirst v)
      rw [hplain]
      rfl
  have hmem := List.mem_append_right MERGEABLE_FEATURE_SWITCHES h
  rw [buildFlags_eq, settings_append, settings_append, settings_builtInFlags hmem,
    settings_blank hmem, hmerged, hremaining, List.nil_append, List.append_nil]

/-- Stealth does not set what the operator sets. -/
theorem settings_stealthOwn (h : switch ∈ OPERATOR_SWITCHES)
    (hset : extra.any (switch.isPrefixOf ·) = true) (stealth : Bool) (major : Option Nat) :
    settings switch (stealthOwn stealth major extra) = [] := by
  cases stealth with
  | false => rfl
  | true =>
    have hblink : ∀ s ∈ OPERATOR_SWITCHES,
        s.isPrefixOf (text "--disable-blink-features=AutomationControlled") = false := by decide
    have hscreen : (text "--user-agent=").isPrefixOf STEALTH_SCREEN = false := by decide
    have hagent (major : Nat) : (text "--screen-info=").isPrefixOf
        (text "--user-agent=" ++ stockUserAgent major) = false :=
      not_sets_append (by decide) (by decide) _
    apply settings_nil
    intro flag hflag
    simp only [stealthOwn, if_true, stealthFlags, List.mem_append, List.mem_singleton] at hflag
    rcases hflag with (rfl | hflag) | hflag
    · exact hblink switch h
    · simp only [OPERATOR_SWITCHES, List.map_cons, List.map_nil, List.mem_cons, List.not_mem_nil,
        or_false] at h
      cases major with
      | none => cases hflag
      | some major =>
        rcases h with rfl | rfl
        · simp [hset] at hflag
        · dsimp only at hflag
          split at hflag
          · cases hflag
          · rw [List.mem_singleton.mp hflag]
            exact hagent major
    · simp only [OPERATOR_SWITCHES, List.map_cons, List.map_nil, List.mem_cons, List.not_mem_nil,
        or_false] at h
      rcases h with rfl | rfl
      · split at hflag
        · cases hflag
        · rw [List.mem_singleton.mp hflag]
          exact hscreen
      · simp [hset] at hflag

end

/-- What a launch's arguments make of an operator's flags, next to those that are `own` to stealth:
`once`, `values` and `union` are about the switches that are merged, `rest` about the other flags,
and `alone` about those that stealth leaves to the operator. -/
structure OperatorFlagsKept (opts : FlagOptions) (own operator args : List Text) : Prop where
  once : ∀ switch ∈ MERGEABLE_FEATURE_SWITCHES, (settings switch args).length ≤ 1
  values : ∀ switch ∈ MERGEABLE_FEATURE_SWITCHES, valuesOf switch args =
    valuesOf switch DEFAULT_FLAGS ++
      ((valuesOf switch own ++ valuesOf switch operator).filter
        (· ∉ valuesOf switch DEFAULT_FLAGS)).eraseDups
  union : ∀ switch ∈ MERGEABLE_FEATURE_SWITCHES, ∀ v, v ∈ valuesOf switch args ↔
    v ∈ valuesOf switch DEFAULT_FLAGS ∨ v ∈ valuesOf switch own ∨ v ∈ valuesOf switch operator
  rest : args = builtInFlags opts ++ own.filter (! mergeable ·) ++
    operator.filter (! mergeable ·) ++ [text "about:blank"]
  alone : ∀ switch ∈ OPERATOR_SWITCHES, operator.any (switch.isPrefixOf ·) = true →
    settings switch args = settings switch operator

/-- Feature switches are merged, and every other flag of the operator is kept. -/
theorem operator_flags_kept (opts : FlagOptions) (stealth : Bool) (major : Option Nat)
    (operator : List Text) :
    let opts := { opts with extra := launchExtraFlags stealth major operator }
    OperatorFlagsKept opts (stealthOwn stealth major operator) operator (buildFlags opts) := by
  intro opts
  have hextra : opts.extra = stealthOwn stealth major operator ++ operator :=
    launchExtraFlags_eq stealth major operator
  have hvalues : ∀ switch ∈ MERGEABLE_FEATURE_SWITCHES,
      valuesOf switch (buildFlags opts) = mergedValues switch opts.extra := by
    intro switch h
    rw [← valuesOf_settings, settings_buildFlags h, valuesOf_mergeFeatureSwitch h]
  refine ⟨?_, ?_, ?_, ?_, ?_⟩
  · intro switch h
    rw [settings_buildFlags h, mergeFeatureSwitch_eq h]
    split
    · exact Nat.zero_le 1
    · exact Nat.le_refl 1
  · intro switch h
    rw [hvalues switch h, hextra, mergedValues_eq, valuesOf_append]
  · intro switch h v
    rw [hvalues switch h, hextra, mergedValues_eq, valuesOf_append, List.mem_append,
      List.mem_eraseDups, List.mem_filter, List.mem_append, decide_eq_true_iff]
    by_cases hbuiltIn : v ∈ valuesOf switch DEFAULT_FLAGS
    · simp [hbuiltIn]
    · simp [hbuiltIn]
  · rw [buildFlags_eq]
    simp only [hextra, List.filter_append, List.append_assoc]
  · intro switch h hset
    rw [settings_buildFlags_operator h, hextra, settings_append, settings_stealthOwn h hset,
      List.nil_append]

end BrowserServe.Chrome
