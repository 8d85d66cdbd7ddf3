import Mathlib.Data.List.TakeDrop
import Mathlib.Data.List.TakeWhile
import BrowserServe.Library.Framing
import BrowserServe.Library.IpAddr
import BrowserServe.Library.Utf8

namespace BrowserServe.Library
set_option autoImplicit true

/-- The byte of two hexadecimal digits. -/
def escapedByte (a b : Char) : Option UInt8 := do
  let high ← digitValue 16 a
  let low ← digitValue 16 b
  return UInt8.ofNat (16 * high + low)

def plusToSpace (t : Text) : Text := t.map fun c => if c = '+' then ' ' else c

/-- The bytes of a text in which an escape stands for its byte. -/
def percentDecoded : Text → List UInt8
  | '%' :: a :: b :: t =>
    match escapedByte a b with
    | some byte => byte :: percentDecoded t
    | none => String.utf8EncodeChar '%' ++ percentDecoded (a :: b :: t)
  | c :: t => String.utf8EncodeChar c ++ percentDecoded t
  | [] => []

def formDecode (t : Text) : Text := fromUtf8Lossy (percentDecoded (plusToSpace t))

/-- The pair that a part of a query is. -/
def formPair (part : Text) : Text × Text :=
  match splitOnce '=' part with
  | some (name, value) => (formDecode name, formDecode value)
  | none => (formDecode part, [])

/-- The pairs of an `application/x-www-form-urlencoded` query. -/
def formPairs (query : Text) : List (Text × Text) :=
  ((query.splitOn '&').filter (· ≠ [])).map formPair

/-- The query of a URL, which its fragment ends. -/
def urlQuery (url : Text) : Text :=
  ((splitOnce '?' (url.takeWhile (· ≠ '#'))).map Prod.snd).getD []

/-- An escape is somewhere in a text. -/
def Escaped (t : Text) : Prop := ∃ a b, (escapedByte a b).isSome = true ∧ ['%', a, b] <:+: t

theorem not_escaped_nil : ¬Escaped [] := by
  rintro ⟨a, b, _, h⟩
  cases List.infix_nil.mp h

theorem not_escaped_of_not_mem (h : '%' ∉ t) : ¬Escaped t := by
  rintro ⟨a, b, _, hpart⟩
  exact h (hpart.subset List.mem_cons_self)

theorem escaped_of_tail (c : Char) (h : Escaped t) : Escaped (c :: t) := by
  obtain ⟨a, b, hab, hpart⟩ := h
  exact ⟨a, b, hab, List.infix_cons hpart⟩

theorem escaped_head (h : (escapedByte a b).isSome = true) (t : Text) :
    Escaped ('%' :: a :: b :: t) :=
  ⟨a, b, h, (List.prefix_append ['%', a, b] t).isInfix⟩

/-- An escape is in the rest of a text or at its front. -/
theorem escaped_cons {c : Char} {t : Text} (h : Escaped (c :: t)) : Escaped t ∨
    ∃ a b rest, c = '%' ∧ t = a :: b :: rest ∧ (escapedByte a b).isSome = true := by
  obtain ⟨a, b, hab, hpart⟩ := h
  cases List.infix_cons_iff.mp hpart with
  | inr hpart => exact .inl ⟨a, b, hab, hpart⟩
  | inl hprefix =>
    obtain ⟨rest, hrest⟩ := hprefix
    cases hrest
    exact .inr ⟨a, b, rest, rfl, rfl, hab⟩

theorem escaped_cons_none {a b : Char} {t : Text} (h : escapedByte a b = none) :
    Escaped ('%' :: a :: b :: t) → Escaped (a :: b :: t) := by
  intro hescaped
  cases escaped_cons hescaped with
  | inl htail => exact htail
  | inr hfront =>
    obtain ⟨_, _, _, _, ht, hab⟩ := hfront
    cases ht
    rw [h] at hab
    cases hab

theorem escaped_cons_other {c : Char} {t : Text}
    (h : ∀ a b rest, c = '%' → t = a :: b :: rest → False) : Escaped (c :: t) → Escaped t := by
  intro hescaped
  cases escaped_cons hescaped with
  | inl htail => exact htail
  | inr hfront =>
    obtain ⟨a, b, rest, hc, ht, _⟩ := hfront
    exact (h a b rest hc ht).elim

theorem percentDecoded_of_not_escaped (t : Text) (h : ¬Escaped t) :
    percentDecoded t = asBytes t := by
  have hcons : ∀ (c : Char) (t : Text), asBytes (c :: t) = String.utf8EncodeChar c ++ asBytes t :=
    fun _ _ => List.flatMap_cons
  induction t using percentDecoded.induct with
  | case1 a b t byte hbyte ih =>
    have hab : (escapedByte a b).isSome = true := by rw [hbyte]; rfl
    exact absurd (escaped_head hab t) h
  | case2 a b t hnone ih =>
    rw [percentDecoded, hnone, hcons]
    exact congrArg _ (ih fun htail => h (escaped_of_tail '%' htail))
  | case3 c t hother ih =>
    rw [percentDecoded, hcons, ih fun htail => h (escaped_of_tail c htail)]
    exact hother
  | case4 => rfl

/-- A decoded text is no longer than it was, and shorter where it has an escape. -/
theorem percentDecoded_length (t : Text) (bs : List UInt8) :
    (fromUtf8Lossy (bs ++ percentDecoded t)).length ≤ bs.length + t.length ∧
      (Escaped t → (fromUtf8Lossy (bs ++ percentDecoded t)).length < bs.length + t.length) := by
  have hchar : ∀ (c : Char) (t : Text) (bs : List UInt8),
      (fromUtf8Lossy (bs ++ (String.utf8EncodeChar c ++ percentDecoded t))).length ≤
        bs.length + (fromUtf8Lossy ([] ++ percentDecoded t)).length + 1 := by
    intro c t bs
    have hbs := fromUtf8Lossy_length_le bs
    rw [fromUtf8Lossy_append_encode, List.length_append, List.length_cons, List.nil_append]
    omega
  induction t using percentDecoded.induct generalizing bs with
  | case1 a b t byte hbyte ih =>
    obtain ⟨hle, _⟩ := ih (bs ++ [byte])
    rw [List.append_assoc, List.singleton_append, List.length_append, List.length_singleton] at hle
    rw [percentDecoded, hbyte]
    simp only [List.length_cons]
    exact ⟨by omega, fun _ => by omega⟩
  | case2 a b t hnone ih =>
    obtain ⟨hle, hlt⟩ := ih []
    have hstep := hchar '%' (a :: b :: t) bs
    rw [percentDecoded, hnone]
    simp only [List.length_cons, List.length_nil] at hle hlt hstep ⊢
    refine ⟨by omega, fun hescaped => ?_⟩
    have hshorter := hlt (escaped_cons_none hnone hescaped)
    omega
  | case3 c t hother ih =>
    obtain ⟨hle, hlt⟩ := ih []
    have hstep := hchar c t bs
    have hdecoded : percentDecoded (c :: t) = String.utf8EncodeChar c ++ percentDecoded t := by
      rw [percentDecoded]
      exact hother
    rw [hdecoded]
    simp only [List.length_cons, List.length_nil] at hle hlt hstep ⊢
    refine ⟨by omega, fun hescaped => ?_⟩
    have hshorter := hlt (escaped_cons_other hother hescaped)
    omega
  | case4 =>
    rw [percentDecoded, List.append_nil]
    exact ⟨fromUtf8Lossy_length_le bs, fun h => absurd h not_escaped_nil⟩

theorem formDecode_length_le (t : Text) : (formDecode t).length ≤ t.length := by
  have hle := (percentDecoded_length (plusToSpace t) []).1
  rwa [List.nil_append, List.length_nil, Nat.zero_add, plusToSpace, List.length_map] at hle

theorem plusToSpace_eq_iff (t : Text) : plusToSpace t = t ↔ '+' ∉ t := by
  constructor
  · intro h hmem
    rw [← h, plusToSpace, List.mem_map] at hmem
    obtain ⟨c, _, hc⟩ := hmem
    split at hc
    · cases hc
    · rename_i hplus
      exact hplus hc
  · intro h
    refine (List.map_congr_left fun c hmem => if_neg ?_).trans (List.map_id t)
    rintro rfl
    exact h hmem

/-- What decodes to itself has neither a plus sign nor an escape. -/
theorem formDecode_eq_iff (t : Text) : formDecode t = t ↔ '+' ∉ t ∧ ¬Escaped t := by
  have hplain : ∀ t, ¬Escaped t → fromUtf8Lossy (percentDecoded t) = t := by
    intro t h
    rw [percentDecoded_of_not_escaped t h, fromUtf8Lossy_asBytes]
  constructor
  · intro h
    have hescaped : ¬Escaped (plusToSpace t) := by
      intro hescaped
      have hlt := (percentDecoded_length (plusToSpace t) []).2 hescaped
      have hlength := congrArg List.length h
      rw [formDecode] at hlength
      rw [List.nil_append, hlength, List.length_nil, Nat.zero_add, plusToSpace,
        List.length_map] at hlt
      exact Nat.lt_irrefl _ hlt
    have hplus : plusToSpace t = t := (hplain _ hescaped).symm.trans h
    rw [hplus] at hescaped
    exact ⟨(plusToSpace_eq_iff t).mp hplus, hescaped⟩
  · rintro ⟨hplus, hescaped⟩
    rw [formDecode, (plusToSpace_eq_iff t).mpr hplus, hplain t hescaped]

theorem splitOnce_append {c : Char} {before : Text} (h : c ∉ before) (after : Text) :
    splitOnce c (before ++ c :: after) = some (before, after) := by
  have hbefore : ∀ d ∈ before, (d != c) = true := by
    intro d hmem
    simpa using ne_of_mem_of_not_mem hmem h
  have hspan : (before ++ c :: after).span (· != c) = (before, c :: after) := by
    rw [List.span_eq_takeWhile_dropWhile, List.takeWhile_append_of_pos hbefore,
      List.dropWhile_append_of_pos hbefore]
    simp
  rw [splitOnce, hspan]

theorem splitOnce_eq_none {c : Char} {t : Text} (h : c ∉ t) : splitOnce c t = none := by
  have hall : ∀ d ∈ t, (d != c) = true := by
    intro d hmem
    simpa using ne_of_mem_of_not_mem hmem h
  have hspan : t.span (· != c) = (t, []) := by
    rw [List.span_eq_takeWhile_dropWhile, List.takeWhile_eq_self_iff.2 hall,
      List.dropWhile_eq_nil_iff.mpr hall]
  rw [splitOnce, hspan]

/-- What comes after the separator is no longer than the whole. -/
theorem splitOnce_length {c : Char} {t : Text} (h : splitOnce c t = some (before, after)) :
    after.length ≤ t.length := by
  by_cases hmem : c ∈ t
  · obtain ⟨front, back, rfl, hfront⟩ := List.eq_append_cons_of_mem hmem
    rw [splitOnce_append hfront] at h
    cases h
    simp only [List.length_append, List.length_cons]
    omega
  · rw [splitOnce_eq_none hmem] at h
    cases h

theorem length_le_of_mem_splitOn {α : Type} [DecidableEq α] (z : α) (bytes : List α) :
    ∀ part ∈ bytes.splitOn z, part.length ≤ bytes.length := by
  induction bytes with
  | nil =>
    intro part hmem
    cases List.mem_singleton.mp hmem
    exact Nat.le_refl 0
  | cons b bytes ih =>
    intro part hmem
    rw [splitOn_cons] at hmem
    split at hmem
    · cases List.mem_cons.mp hmem with
      | inl h =>
        rw [h]
        exact Nat.zero_le _
      | inr h => exact Nat.le_succ_of_le (ih part h)
    · cases hsplit : bytes.splitOn z with
      | nil => exact absurd hsplit (splitOn_ne_nil z bytes)
      | cons first parts =>
        rw [hsplit, List.modifyHead_cons] at hmem
        rw [hsplit] at ih
        cases List.mem_cons.mp hmem with
        | inl h =>
          rw [h]
          exact Nat.succ_le_succ (ih first List.mem_cons_self)
        | inr h => exact Nat.le_succ_of_le (ih part (List.mem_cons_of_mem _ h))

theorem formPair_length (pair : Text) : (formPair pair).2.length ≤ pair.length := by
  unfold formPair
  split
  · rename_i name value hsplit
    exact Nat.le_trans (formDecode_length_le value) (splitOnce_length hsplit)
  · exact Nat.zero_le _

theorem formPair_param {name : Text} (h : '=' ∉ name) (value : Text) :
    formPair (name ++ '=' :: value) = (formDecode name, formDecode value) := by
  rw [formPair, splitOnce_append h]

section
variable {name value : Text}

theorem formPairs_param (hname : '=' ∉ name) (hsep : '&' ∉ name) (h : '&' ∉ value) :
    formPairs (name ++ '=' :: value) = [(formDecode name, formDecode value)] := by
  have hparam : '&' ∉ name ++ '=' :: value := by simp [hsep, h]
  have hsplit : (name ++ '=' :: value).splitOn '&' = [name ++ '=' :: value] := by
    apply List.splitOnP_eq_singleton
    intro c hmem
    simpa using ne_of_mem_of_not_mem hmem hparam
  rw [formPairs, hsplit, List.filter_cons_of_pos (by simp), List.filter_nil, List.map_cons,
    List.map_nil, formPair_param hname]

/-- A value that is cut by a separator is not there as a whole. -/
theorem formPairs_cut (hname : '=' ∉ name) (hsep : '&' ∉ name) (h : '&' ∈ value) :
    ∀ pair ∈ formPairs (name ++ '=' :: value), pair.2.length < value.length := by
  obtain ⟨before, after, rfl, hbefore⟩ := List.eq_append_cons_of_mem h
  have hfirst : '&' ∉ name ++ '=' :: before := by simp [hsep, hbefore]
  have hsplit : (name ++ '=' :: (before ++ '&' :: after)).splitOn '&' =
      (name ++ '=' :: before) :: after.splitOn '&' := by
    rw [← List.cons_append, ← List.append_assoc]
    exact splitOn_cons_message '&' hfirst after
  intro pair hmem
  rw [formPairs, hsplit, List.mem_map] at hmem
  obtain ⟨part, hpart, rfl⟩ := hmem
  rw [List.length_append, List.length_cons]
  cases List.mem_cons.mp (List.mem_of_mem_filter hpart) with
  | inl hp =>
    have hle := formDecode_length_le before
    rw [hp, formPair_param hname]
    dsimp only
    omega
  | inr hp =>
    have hle := Nat.le_trans (formPair_length part) (length_le_of_mem_splitOn '&' after part hp)
    omega

theorem formPairs_length (hname : '=' ∉ name) (hsep : '&' ∉ name) :
    ∀ pair ∈ formPairs (name ++ '=' :: value), pair.2.length ≤ value.length := by
  by_cases h : '&' ∈ value
  · exact fun pair hmem => Nat.le_of_lt (formPairs_cut hname hsep h pair hmem)
  · intro pair hmem
    rw [formPairs_param hname hsep h, List.mem_singleton] at hmem
    rw [hmem]
    exact formDecode_length_le value

end

/-- The query of a URL with one. -/
theorem urlQuery_append {base : Text} (hquery : '?' ∉ base) (hfragment : '#' ∉ base)
    (query : Text) : urlQuery (base ++ '?' :: query) = query.takeWhile (· ≠ '#') := by
  have hbase : ∀ c ∈ base ++ ['?'], decide (c ≠ '#') = true := by
    intro c hmem
    rw [decide_eq_true_eq]
    rintro rfl
    simp [hfragment] at hmem
  have htake : (base ++ '?' :: query).takeWhile (· ≠ '#') =
      base ++ '?' :: query.takeWhile (· ≠ '#') := by
    rw [List.append_cons, List.takeWhile_append_of_pos hbase, ← List.append_cons]
  rw [urlQuery, htake, splitOnce_append hquery]
  rfl

theorem urlQuery_fragment {base : Text} (hquery : '?' ∉ base) (hfragment : '#' ∈ base)
    (rest : Text) : urlQuery (base ++ rest) = [] := by
  obtain ⟨before, after, rfl, hbefore⟩ := List.eq_append_cons_of_mem hfragment
  have hall : ∀ c ∈ before, decide (c ≠ '#') = true := by
    intro c hmem
    rw [decide_eq_true_eq]
    exact ne_of_mem_of_not_mem hmem hbefore
  have htake : (before ++ '#' :: after ++ rest).takeWhile (· ≠ '#') = before := by
    rw [List.append_assoc, List.takeWhile_append_of_pos hall]
    simp
  rw [urlQuery, htake, splitOnce_eq_none fun hmem => hquery (List.mem_append_left _ hmem)]
  rfl

end BrowserServe.Library
