import BrowserServe.Library.Base64
import BrowserServe.Library.Utf8
import Mathlib

namespace BrowserServe.Library
set_option autoImplicit true

/-- A request head: its request line, and its fields in their order. -/
structure PlainHead where
  method : List UInt8
  target : List UInt8
  version : List UInt8
  fields : List (List UInt8 × List UInt8)
  deriving DecidableEq

def fieldLine (field : List UInt8 × List UInt8) : List UInt8 := field.1 ++ 58 :: 32 :: field.2

/-- A field's name goes up to its first colon, and a space comes before its value. -/
def readField : List UInt8 → Option (List UInt8 × List UInt8)
  | [] => none
  | 58 :: 32 :: value => some ([], value)
  | b :: line => if b = 58 then none else (readField line).map fun field => (b :: field.1, field.2)

namespace PlainHead

/-- The lines of a head before its blank one. -/
def lines (head : PlainHead) : List (List UInt8) :=
  (head.method ++ 32 :: (head.target ++ 32 :: head.version)) :: head.fields.map fieldLine

/-- One head by its lines, with nothing after the blank one. -/
def ofLines : List (List UInt8) → Option PlainHead
  | [] => none
  | first :: lines =>
    match first.splitOn 32, lines.takeWhile (· ≠ []), lines.dropWhile (· ≠ []) with
    | [method, target, version], fields, [[], []] =>
      (fields.mapM readField).map fun fields => ⟨method, target, version, fields⟩
    | _, _, _ => none

/-- A head of which no part has what ends it. -/
structure Valid (head : PlainHead) : Prop where
  method : 32 ∉ head.method
  target : 32 ∉ head.target
  version : 32 ∉ head.version
  fields : ∀ field ∈ head.fields, 58 ∉ field.1

end PlainHead

theorem readField_fieldLine {name : List UInt8} (h : 58 ∉ name) (value : List UInt8) :
    readField (fieldLine (name, value)) = some (name, value) := by
  induction name with
  | nil => rfl
  | cons b name ih =>
    rw [List.mem_cons, not_or] at h
    obtain ⟨hb, hname⟩ := h
    have hline : fieldLine (b :: name, value) = b :: fieldLine (name, value) := rfl
    rw [hline, readField, if_neg (Ne.symm hb), ih hname]
    · rfl
    · intro _ heq _
      exact hb heq.symm

theorem mapM_readField {fields : List (List UInt8 × List UInt8)}
    (h : ∀ field ∈ fields, 58 ∉ field.1) :
    (fields.map fieldLine).mapM readField = some fields := by
  induction fields with
  | nil => rfl
  | cons field fields ih =>
    rw [List.forall_mem_cons] at h
    rw [List.map_cons, List.mapM_cons, readField_fieldLine h.1, ih h.2]
    rfl

theorem fieldLine_ne_nil (field : List UInt8 × List UInt8) : fieldLine field ≠ [] := by
  simp [fieldLine]

/-- A head reads back from its lines. -/
theorem PlainHead.ofLines_lines {head : PlainHead} (h : head.Valid) :
    ofLines (head.lines ++ [[], []]) = some head := by
  have hsplit : (head.method ++ 32 :: (head.target ++ 32 :: head.version)).splitOn 32 =
      [head.method, head.target, head.version] := by
    have hparts : ∀ part ∈ [head.method, head.target, head.version], 32 ∉ part := by
      simp only [List.forall_mem_cons, List.not_mem_nil, false_implies, implies_true, and_true]
      exact ⟨h.method, h.target, h.version⟩
    have hjoin : [32].intercalate [head.method, head.target, head.version] =
        head.method ++ 32 :: (head.target ++ 32 :: head.version) := by
      simp [List.intercalate]
    rw [← hjoin]
    exact List.splitOn_intercalate 32 hparts (List.cons_ne_nil _ _)
  have hfields : ∀ line ∈ head.fields.map fieldLine, decide (line ≠ []) = true := by
    intro line hline
    obtain ⟨field, _, rfl⟩ := List.mem_map.mp hline
    exact decide_eq_true (fieldLine_ne_nil field)
  have htake : (head.fields.map fieldLine ++ [[], []]).takeWhile (· ≠ []) =
      head.fields.map fieldLine := by
    rw [List.takeWhile_append_of_pos hfields]
    exact List.append_nil _
  have hdrop : (head.fields.map fieldLine ++ [[], []]).dropWhile (· ≠ []) = [[], []] := by
    rw [List.dropWhile_append_of_pos hfields]
    rfl
  rw [lines, List.cons_append, ofLines, hsplit, htake, hdrop]
  dsimp only
  rw [mapM_readField h.fields]
  rfl

/-- The characters of a token. -/
def isTokenChar (c : Char) : Bool :=
  c.isAlphanum || (text "!#$%&'*+-.^_").contains c || c.toNat = 96 || c = '|' || c = '~'

def IsToken (t : Text) : Prop := t ≠ [] ∧ t.all isTokenChar = true

theorem isTokenChar_bounds {c : Char} (h : isTokenChar c = true) :
    32 < c.toNat ∧ c.toNat < 128 ∧ c.toNat ≠ 58 := by
  have hrange : ∀ {low high : Char}, low.val ≤ c.val ∧ c.val ≤ high.val →
      low.toNat ≤ c.toNat ∧ c.toNat ≤ high.toNat := fun h =>
    ⟨UInt32.le_iff_toNat_le.mp h.1, UInt32.le_iff_toNat_le.mp h.2⟩
  simp only [isTokenChar, Bool.or_eq_true, decide_eq_true_iff, Char.isAlphanum, Char.isAlpha,
    Char.isUpper, Char.isLower, Char.isDigit, Bool.and_eq_true] at h
  rcases h with (((((hupper | hlower) | hdigit) | hother) | htick) | rfl) | rfl
  · have hbounds : 65 ≤ c.toNat ∧ c.toNat ≤ 90 := hrange hupper
    omega
  · have hbounds : 97 ≤ c.toNat ∧ c.toNat ≤ 122 := hrange hlower
    omega
  · have hbounds : 48 ≤ c.toNat ∧ c.toNat ≤ 57 := hrange hdigit
    omega
  · have hall : ((text "!#$%&'*+-.^_").all fun c =>
        32 < c.toNat ∧ c.toNat < 128 ∧ c.toNat ≠ 58) = true := by decide
    exact of_decide_eq_true (List.all_eq_true.mp hall c (List.contains_iff_mem.mp hother))
  · omega
  · decide
  · decide

theorem IsToken.byte {t : Text} (h : IsToken t) {b : UInt8} (hb : b.toNat ≤ 32 ∨ b.toNat = 58) :
    b ∉ asBytes t := by
  intro hmem
  obtain ⟨c, hc, heq⟩ := mem_asBytes (by omega) hmem
  have hbounds := isTokenChar_bounds (List.all_eq_true.mp h.2 c hc)
  omega

theorem mem_base64 {bytes : List UInt8} {c : Char} (h : c ∈ base64 bytes) : 42 < c.toNat := by
  have hall : ∀ n : Fin 64, 42 < (base64Char n).toNat := by decide +kernel
  have hchar : ∀ n < 64, 42 < (base64Char n).toNat := fun n hn => hall ⟨n, hn⟩
  have hpad : 42 < '='.toNat := by decide
  induction bytes using base64.induct with
  | case1 a b d bytes ih =>
    have ha := a.toNat_lt
    have hb := b.toNat_lt
    have hd := d.toNat_lt
    simp only [base64, List.mem_cons] at h
    rcases h with rfl | rfl | rfl | rfl | h
    · exact hchar _ (by omega)
    · exact hchar _ (by omega)
    · exact hchar _ (by omega)
    · exact hchar _ (by omega)
    · exact ih h
  | case2 a b =>
    have ha := a.toNat_lt
    have hb := b.toNat_lt
    simp only [base64, List.mem_cons, List.not_mem_nil, or_false] at h
    rcases h with rfl | rfl | rfl | rfl
    · exact hchar _ (by omega)
    · exact hchar _ (by omega)
    · exact hchar _ (by omega)
    · exact hpad
  | case3 a =>
    have ha := a.toNat_lt
    simp only [base64, List.mem_cons, List.not_mem_nil, or_false] at h
    rcases h with rfl | rfl | rfl | rfl
    · exact hchar _ (by omega)
    · exact hchar _ (by omega)
    · exact hpad
    · exact hpad
  | case4 => cases h

/-- What is trimmed is white space. -/
theorem trim_split (t : Text) : ∃ before after, t = before ++ trim t ++ after ∧
    ∀ c ∈ before ++ after, isWhitespace c = true := by
  refine ⟨t.takeWhile isWhitespace,
    ((t.dropWhile isWhitespace).reverse.takeWhile isWhitespace).reverse, ?_, ?_⟩
  · rw [trim, List.append_assoc, ← List.reverse_append, List.takeWhile_append_dropWhile,
      List.reverse_reverse, List.takeWhile_append_dropWhile]
  · intro c hc
    rw [List.mem_append, List.mem_reverse] at hc
    cases hc with
    | inl hc => exact List.all_eq_true.mp List.all_takeWhile c hc
    | inr hc => exact List.all_eq_true.mp List.all_takeWhile c hc

theorem dropWhile_blank {before t : Text} (hbefore : ∀ c ∈ before, isWhitespace c = true)
    (ht : ∀ c ∈ t, isWhitespace c = false) (hne : t ≠ []) (after : Text) :
    (before ++ (t ++ after)).dropWhile isWhitespace = t ++ after := by
  rw [List.dropWhile_append_of_pos hbefore]
  cases t with
  | nil => exact absurd rfl hne
  | cons c t => rw [List.cons_append, List.dropWhile_cons, ht c List.mem_cons_self]; rfl

/-- A text without white space is what trimming leaves of it. -/
theorem trim_blank {before t after : Text} (h : ∀ c ∈ before ++ after, isWhitespace c = true)
    (ht : ∀ c ∈ t, isWhitespace c = false) (hne : t ≠ []) : trim (before ++ t ++ after) = t := by
  have hbefore : ∀ c ∈ before, isWhitespace c = true := fun c hc => h c (List.mem_append_left _ hc)
  have hafter : ∀ c ∈ after.reverse, isWhitespace c = true := fun c hc =>
    h c (List.mem_append_right _ (List.mem_reverse.mp hc))
  have hreverse : ∀ c ∈ t.reverse, isWhitespace c = false := fun c hc =>
    ht c (List.mem_reverse.mp hc)
  have hend := dropWhile_blank hafter hreverse (List.reverse_ne_nil_iff.mpr hne) []
  rw [List.append_nil] at hend
  rw [trim, List.append_assoc, dropWhile_blank hbefore ht hne, List.reverse_append, hend,
    List.reverse_reverse]

theorem eqIgnoreAsciiCase_iff {s t : Text} :
    eqIgnoreAsciiCase s t = true ↔ toAsciiLowercase s = toAsciiLowercase t := beq_iff_eq

theorem eqIgnoreAsciiCase_lowercase {s t : Text} :
    eqIgnoreAsciiCase s (toAsciiLowercase t) = true ↔ eqIgnoreAsciiCase s t = true := by
  have hlower : toAsciiLowercase (toAsciiLowercase t) = toAsciiLowercase t := by
    simp [toAsciiLowercase]
  rw [eqIgnoreAsciiCase_iff, eqIgnoreAsciiCase_iff, hlower]

theorem toLower_bounds {c : Char} (hlow : 32 < c.toNat) (hhigh : c.toNat < 128) :
    32 < c.toLower.toNat ∧ c.toLower.toNat < 128 := by
  by_cases hupper : c.isUpper = true
  · have hletter : c.toNat ≤ 90 := by
      simp only [Char.isUpper, decide_eq_true_iff] at hupper
      exact UInt32.le_iff_toNat_le.mp hupper.2
    have hvalid : (c.toNat + 32).isValidChar := .inl (by omega)
    rw [Char.toLower_eq_of_isUpper hupper, Char.toNat_ofNat, if_pos hvalid]
    omega
  · rw [Char.toLower_eq_of_not_isUpper hupper]
    exact ⟨hlow, hhigh⟩

theorem isWhitespace_toLower {c : Char} (h : isWhitespace c = true) : c.toLower = c := by
  apply Char.toLower_eq_of_not_isUpper
  intro hupper
  simp only [Char.isUpper, decide_eq_true_iff] at hupper
  have hbounds : 65 ≤ c.toNat ∧ c.toNat ≤ 90 :=
    ⟨UInt32.le_iff_toNat_le.mp hupper.1, UInt32.le_iff_toNat_le.mp hupper.2⟩
  simp [isWhitespace] at h
  omega

/-- A token in other cases has no white space either. -/
theorem IsToken.not_isWhitespace {s t : Text} (h : IsToken s) (heq : eqIgnoreAsciiCase s t = true) :
    ∀ c ∈ t, isWhitespace c = false := by
  intro c hc
  rw [← Bool.not_eq_true]
  intro hblank
  have hlower : c.toLower ∈ toAsciiLowercase s := by
    rw [eqIgnoreAsciiCase_iff.mp heq]
    exact List.mem_map.mpr ⟨c, hc, rfl⟩
  rw [isWhitespace_toLower hblank] at hlower
  obtain ⟨d, hd, rfl⟩ := List.mem_map.mp hlower
  obtain ⟨hlow, hhigh, _⟩ := isTokenChar_bounds (List.all_eq_true.mp h.2 d hd)
  have hbounds := toLower_bounds hlow hhigh
  simp [isWhitespace] at hblank
  omega

theorem splitAtByte_ascii {before : Text} (h : ∀ c ∈ before, c.utf8Size = 1) (after : Text) :
    splitAtByte before.length (before ++ after) = some (before, after) := by
  induction before with
  | nil => rw [List.length_nil, splitAtByte.eq_def]; rfl
  | cons c before ih =>
    rw [List.forall_mem_cons] at h
    rw [List.length_cons, List.cons_append, splitAtByte, h.1, if_pos (Nat.le_add_left 1 _),
      Nat.add_sub_cancel, ih h.2]
    rfl

/-- A text that differs from an ASCII one in its case only is ASCII. -/
theorem utf8Size_of_eqIgnoreAsciiCase {s t : Text} (h : eqIgnoreAsciiCase s t = true)
    (ht : ∀ c ∈ t, 32 < c.toNat ∧ c.toNat < 128) : ∀ c ∈ s, c.utf8Size = 1 := by
  intro c hc
  have hlower : c.toLower ∈ toAsciiLowercase t := by
    rw [← eqIgnoreAsciiCase_iff.mp h]
    exact List.mem_map.mpr ⟨c, hc, rfl⟩
  obtain ⟨d, hd, hdc⟩ := List.mem_map.mp hlower
  have hbounds := toLower_bounds (ht d hd).1 (ht d hd).2
  rw [hdc] at hbounds
  have hc : c.toNat < 128 := by
    by_cases hupper : c.isUpper = true
    · simp only [Char.isUpper, decide_eq_true_iff] at hupper
      exact Nat.lt_of_le_of_lt (UInt32.le_iff_toNat_le.mp hupper.2) (by decide)
    · rw [Char.toLower_eq_of_not_isUpper hupper] at hbounds
      exact hbounds.2
  rw [Char.utf8Size_eq_one_iff]
  exact UInt32.le_iff_toNat_le.mpr (Nat.le_of_lt_succ hc)

theorem length_of_eqIgnoreAsciiCase {s t : Text} (h : eqIgnoreAsciiCase s t = true) :
    s.length = t.length := by
  have hlength := congrArg List.length (eqIgnoreAsciiCase_iff.mp h)
  rw [toAsciiLowercase, toAsciiLowercase, List.length_map, List.length_map] at hlength
  exact hlength

theorem not_isWhitespace_of_eqIgnoreAsciiCase {s t : Text} (h : eqIgnoreAsciiCase s t = true)
    (ht : t.all (fun c => 32 < c.toNat && c.toNat < 128) = true) :
    ∀ c ∈ s, isWhitespace c = false := by
  intro c hc
  rw [← Bool.not_eq_true]
  intro hblank
  have hlower : c.toLower ∈ toAsciiLowercase t := by
    rw [← eqIgnoreAsciiCase_iff.mp h]
    exact List.mem_map.mpr ⟨c, hc, rfl⟩
  rw [isWhitespace_toLower hblank] at hlower
  obtain ⟨d, hd, rfl⟩ := List.mem_map.mp hlower
  have hbounds := List.all_eq_true.mp ht d hd
  rw [Bool.and_eq_true, decide_eq_true_eq, decide_eq_true_eq] at hbounds
  have hlowerBounds := toLower_bounds hbounds.1 hbounds.2
  simp [isWhitespace] at hblank
  omega

theorem alphanum_bounds {c : Char} (h : c.isAlphanum = true) : 47 < c.toNat ∧ c.toNat < 123 := by
  simp only [Char.isAlphanum, Char.isAlpha, Char.isUpper, Char.isLower, Char.isDigit,
    Bool.or_eq_true,
    Bool.and_eq_true, decide_eq_true_eq, ge_iff_le, UInt32.le_iff_toNat_le] at h
  simp only [UInt32.reduceToNat, Char.reduceVal] at h
  have hval : c.toNat = c.val.toNat := rfl
  omega

theorem isLower_toLower {c : Char} (h : c.isUpper = true) : c.toLower.isLower = true := by
  simp only [Char.isUpper, decide_eq_true_iff] at h
  have hlow : 65 ≤ c.toNat := UInt32.le_iff_toNat_le.mp h.1
  have hhigh : c.toNat ≤ 90 := UInt32.le_iff_toNat_le.mp h.2
  have hvalid : (c.toNat + 32).isValidChar := .inl (by omega)
  have hvalue : c.toLower.toNat = c.toNat + 32 := by
    rw [Char.toLower_eq_of_isUpper (by simpa only [Char.isUpper, decide_eq_true_iff] using h),
      Char.toNat_ofNat, if_pos hvalid]
  rw [Char.isLower, Bool.and_eq_true, decide_eq_true_iff, decide_eq_true_iff]
  refine ⟨UInt32.le_iff_toNat_le.mpr ?_, UInt32.le_iff_toNat_le.mpr ?_⟩
  · change 97 ≤ c.toLower.toNat
    omega
  · change c.toLower.toNat ≤ 122
    omega

end BrowserServe.Library
