import BrowserServe.Library.FormUrl

namespace BrowserServe.Library
set_option autoImplicit true

structure Switch where
  name : Text
  value : Text
  deriving DecidableEq

/-- The white space of ASCII. -/
def isBlank (c : Char) : Bool := c = ' ' || (9 ≤ c.toNat && c.toNat ≤ 13)

/-- Every argument is read without the blanks around it. -/
def trimBlanks (t : Text) : Text :=
  ((t.dropWhile isBlank).reverse.dropWhile isBlank).reverse

/-- An argument with a prefix is a switch: its name goes up to the first `=`. -/
def readSwitch (arg : Text) : Option Switch :=
  match (stripPrefixText (text "--") (trimBlanks arg)).or (stripPrefix '-' (trimBlanks arg)) with
  | none | some [] => none
  | some body =>
    match splitOnce '=' body with
    | some (name, value) => some ⟨name, value⟩
    | none => some ⟨body, []⟩

/-- The argument after which there are no switches. -/
def endsSwitches (arg : Text) : Bool := trimBlanks arg = text "--"

/-- The switches of a command line, up to the argument that ends them. -/
def switchesOf (args : List Text) : List Switch :=
  (args.takeWhile (! endsSwitches ·)).filterMap readSwitch

/-- What a switch is set to: its last occurrence wins. -/
def switchValue (name : Text) (switches : List Switch) : Option Text :=
  (switches.reverse.find? (·.name = name)).map Switch.value

/-- Where a browser sends its traffic. -/
inductive ProxySettings where
  | direct
  | autoDetect
  | pac (url : Text)
  | fixed (server bypass : Text)
  | system
  deriving DecidableEq

/-- What Chromium makes of the proxy switches: one with precedence hides the others. -/
def ProxySettings.of (switches : List Switch) : ProxySettings :=
  if (switchValue (text "no-proxy-server") switches).isSome then .direct
  else if (switchValue (text "proxy-auto-detect") switches).isSome then .autoDetect
  else
    match switchValue (text "proxy-pac-url") switches with
    | some url => .pac url
    | none =>
      match switchValue (text "proxy-server") switches with
      | some server =>
        .fixed server ((switchValue (text "proxy-bypass-list") switches).getD [])
      | none => .system

/-- The switches that have precedence over a proxy server. -/
def OVERRIDING_SWITCHES : List Text :=
  [text "no-proxy-server", text "proxy-auto-detect", text "proxy-pac-url"]

/-- An argument that keeps the proxy server of a later one from being used. -/
def overridesProxy (arg : Text) : Bool :=
  endsSwitches arg || (readSwitch arg).any fun switch =>
    OVERRIDING_SWITCHES.any fun name => switch.name = name

theorem overridingSwitches_any (name : Text) :
    (OVERRIDING_SWITCHES.any fun other => name = other) = true ↔ name ∈ OVERRIDING_SWITCHES := by
  simp

theorem dropWhile_start {p : α → Bool} {a : α} (h : p a = false) (l : List α) :
    (a :: l).dropWhile p = a :: l := by
  rw [List.dropWhile_cons, h]
  rfl

/-- Up to a character that is kept, nothing is dropped from a text's end. -/
theorem dropWhile_reverse_append {p : α → Bool} {a : α} (h : p a = false) (before l : List α) :
    ((before ++ a :: l).reverse.dropWhile p).reverse =
      before ++ a :: (l.reverse.dropWhile p).reverse := by
  rw [List.reverse_append, List.reverse_cons, List.append_assoc, List.dropWhile_append]
  split
  · rename_i hall
    rw [List.isEmpty_iff] at hall
    rw [hall, List.singleton_append, dropWhile_start h]
    simp
  · simp

theorem dropWhile_reverse_self {p : α → Bool} {l : List α} (h : ∀ a ∈ l, p a = false) :
    (l.reverse.dropWhile p).reverse = l := by
  cases hreverse : l.reverse with
  | nil => rw [List.reverse_eq_nil_iff.mp hreverse]; rfl
  | cons a rest =>
    have hmem : a ∈ l := by
      rw [← List.mem_reverse, hreverse]
      exact List.mem_cons_self
    rw [dropWhile_start (h a hmem), ← hreverse, List.reverse_reverse]

theorem not_isBlank_nat (n : Nat) : ∀ c ∈ text (toString n), isBlank c = false := by
  intro c hc
  rw [text, Nat.toString_eq_repr, Nat.toList_repr] at hc
  have hdigit : c.isDigit = true := Nat.isDigit_of_mem_toDigits (by decide) (by decide) hc
  rw [Char.isDigit, Bool.and_eq_true, decide_eq_true_iff, decide_eq_true_iff] at hdigit
  obtain ⟨hlow, hhigh⟩ := hdigit
  have hnat : 48 ≤ c.toNat := UInt32.le_iff_toNat_le.mp hlow
  rw [isBlank, Bool.or_eq_false_iff, decide_eq_false_iff_not, Bool.and_eq_false_iff,
    decide_eq_false_iff_not, decide_eq_false_iff_not]
  constructor
  · rintro rfl
    exact absurd hnat (by decide)
  · omega

theorem trimBlanks_switch (name value : Text) :
    trimBlanks (text "--" ++ (name ++ '=' :: value)) =
      text "--" ++ (name ++ '=' :: (value.reverse.dropWhile isBlank).reverse) := by
  have hstart : (text "--" ++ (name ++ '=' :: value)).dropWhile isBlank =
      text "--" ++ (name ++ '=' :: value) := dropWhile_start rfl _
  rw [trimBlanks, hstart, ← List.append_assoc, dropWhile_reverse_append rfl, List.append_assoc]

/-- A switch with a value keeps its name, and loses the blanks after its value. -/
theorem readSwitch_named (name : Text) (h : '=' ∉ name) (value : Text) :
    readSwitch (text "--" ++ (name ++ '=' :: value)) =
      some ⟨name, (value.reverse.dropWhile isBlank).reverse⟩ := by
  have hstrip : ∀ value, stripPrefixText (text "--") (text "--" ++ (name ++ '=' :: value)) =
      some (name ++ '=' :: value) := fun value => stripPrefixText_eq_some.mpr rfl
  rw [readSwitch, trimBlanks_switch, hstrip, Option.some_or]
  cases name with
  | nil => rfl
  | cons c name =>
    dsimp only [List.cons_append]
    rw [← List.cons_append, splitOnce_append h]

theorem not_endsSwitches_named (name value : Text) :
    endsSwitches (text "--" ++ (name ++ '=' :: value)) = false := by
  rw [endsSwitches, trimBlanks_switch, decide_eq_false_iff_not]
  intro h
  have hempty := List.append_right_eq_self.mp h
  simp at hempty

theorem switchesOf_append {args : List Text} (h : ∀ arg ∈ args, endsSwitches arg = false)
    (more : List Text) :
    switchesOf (args ++ more) = args.filterMap readSwitch ++ switchesOf more := by
  have hall : ∀ arg ∈ args, (! endsSwitches arg) = true := by
    intro arg hmem
    rw [h arg hmem]
    rfl
  rw [switchesOf, List.takeWhile_append_of_pos hall, List.filterMap_append]
  rfl

theorem switchesOf_eq {args : List Text} (h : ∀ arg ∈ args, endsSwitches arg = false) :
    switchesOf args = args.filterMap readSwitch := by
  have happend := switchesOf_append h []
  rw [List.append_nil] at happend
  rw [happend, switchesOf]
  exact List.append_nil _

/-- What comes after the end of the switches is none of them. -/
theorem switchesOf_ended {args : List Text} {arg : Text} (hmem : arg ∈ args)
    (h : endsSwitches arg = true) (more : List Text) :
    switchesOf (args ++ more) = switchesOf args := by
  induction args with
  | nil => cases hmem
  | cons first args ih =>
    unfold switchesOf at ih ⊢
    rw [List.cons_append, List.takeWhile_cons, List.takeWhile_cons]
    cases hfirst : endsSwitches first with
    | true => rfl
    | false =>
      have hlater : arg ∈ args := by
        cases hmem with
        | head => rw [h] at hfirst; cases hfirst
        | tail _ hlater => exact hlater
      simp only [Bool.not_false, if_true, List.filterMap_cons, ih hlater]

theorem switchValue_append (name : Text) (first last : List Switch) :
    switchValue name (first ++ last) = (switchValue name last).or (switchValue name first) := by
  rw [switchValue, List.reverse_append, List.find?_append, Option.map_or]
  rfl

theorem switchValue_eq_none {name : Text} {switches : List Switch} :
    switchValue name switches = none ↔ ∀ switch ∈ switches, switch.name ≠ name := by
  rw [switchValue, Option.map_eq_none_iff, List.find?_eq_none]
  simp

theorem not_endsSwitches {arg : Text} (h : overridesProxy arg = false) : endsSwitches arg = false :=
  (Bool.or_eq_false_iff.mp h).1

/-- A fixed proxy is used where nothing has precedence over it. -/
theorem ProxySettings.of_fixed {args : List Text} {server : Text}
    (h : ∀ arg ∈ args, overridesProxy arg = false)
    (hserver : switchValue (text "proxy-server") (args.filterMap readSwitch) = some server) :
    ProxySettings.of (switchesOf args) = .fixed server
      ((switchValue (text "proxy-bypass-list") (args.filterMap readSwitch)).getD []) := by
  have hnone : ∀ name ∈ OVERRIDING_SWITCHES,
      switchValue name (args.filterMap readSwitch) = none := by
    intro name hname
    rw [switchValue_eq_none]
    rintro switch hswitch rfl
    obtain ⟨arg, hmem, hread⟩ := List.mem_filterMap.mp hswitch
    have hfalse := h arg hmem
    simp [overridesProxy, hread, (overridingSwitches_any _).mpr hname] at hfalse
  rw [ProxySettings.of, switchesOf_eq fun arg hmem => not_endsSwitches (h arg hmem),
    hnone (text "no-proxy-server") (by decide), hnone (text "proxy-auto-detect") (by decide),
    hnone (text "proxy-pac-url") (by decide), hserver]
  rfl

/-- A switch with precedence hides a fixed proxy. -/
theorem ProxySettings.of_overridden {switches : List Switch} {switch : Switch}
    (h : switch ∈ switches) (hname : switch.name ∈ OVERRIDING_SWITCHES) (server bypass : Text) :
    ProxySettings.of switches ≠ .fixed server bypass := by
  have hsome : ∀ name, switch.name = name → switchValue name switches ≠ none := by
    intro name heq hnone
    exact switchValue_eq_none.mp hnone switch h heq
  unfold ProxySettings.of
  split
  · simp
  · rename_i hdirect
    split
    · simp
    · rename_i hauto
      rw [Option.not_isSome_iff_eq_none] at hdirect hauto
      split
      · simp
      · rename_i hpac
        simp only [OVERRIDING_SWITCHES, List.mem_cons, List.not_mem_nil, or_false] at hname
        rcases hname with hname | hname | hname
        · exact absurd hdirect (hsome _ hname)
        · exact absurd hauto (hsome _ hname)
        · exact absurd hpac (hsome _ hname)

end BrowserServe.Library
