import BrowserServe.Library.PercentEncoding
import BrowserServe.ProxyParse

namespace BrowserServe
open Library
set_option autoImplicit true

theorem hexByte_eq (a b : Char) : hexByte a b =
    (if a = '+' then some 0 else digitValue 16 a).bind fun high =>
      (digitValue 16 b).map fun low => UInt8.ofNat (16 * high + low) := by
  unfold hexByte
  cases digitValue 16 b with
  | none =>
    split
    · rfl
    · rfl
  | some low =>
    split
    · rfl
    · rfl

theorem hexByte_of_escapedByte (h : escapedByte a b = some byte) : hexByte a b = some byte := by
  have ha : a ≠ '+' := by
    rintro rfl
    unfold escapedByte at h
    obtain ⟨high, hhigh, _⟩ := Option.bind_eq_some_iff.mp h
    have hnone : digitValue 16 '+' = none := by decide
    rw [hnone] at hhigh
    cases hhigh
  rw [hexByte_eq, if_neg ha]
  unfold escapedByte at h
  cases hlow : digitValue 16 b with
  | none =>
    rw [hlow] at h
    exact h
  | some low =>
    rw [hlow] at h
    exact h

theorem percentBytes_plain {c : Char} (hc : c ≠ '%') (t : Text) :
    percentBytes (c :: t) = (percentBytes t).map (String.utf8EncodeChar c ++ ·) := by
  rw [percentBytes]
  · exact fun _ _ _ heq _ => hc heq
  · exact hc

theorem percentBytes_escaped (h : EscapedBytes bytes front) (t : Text) :
    percentBytes (front ++ t) = (percentBytes t).map (bytes ++ ·) := by
  induction h with
  | nil => simp
  | cons hbyte _ ih =>
    simp only [List.cons_append, percentBytes, hexByte_of_escapedByte hbyte, ih]
    cases percentBytes t with
    | none => rfl
    | some rest => rfl

/-- However it was escaped, a text is decoded to itself. -/
theorem percentDecode_escapedAs {reserved : Char → Bool} (hpercent : reserved '%' = true)
    (h : EscapedAs reserved t e) : percentDecode e = some t := by
  have hbytes : percentBytes e = some (asBytes t) := by
    induction h with
    | nil => rfl
    | plain hc _ ih =>
      rw [percentBytes_plain ?_, ih]
      · rfl
      · rintro rfl
        rw [hpercent] at hc
        cases hc
    | escaped hc _ ih =>
      rw [percentBytes_escaped hc, ih]
      rfl
  have hdecoded : String.fromUTF8? ⟨(asBytes t).toArray⟩ = some (String.ofList t) := by
    rw [fromUTF8?_eq_some_iff, String.toList_ofList]
  simp only [percentDecode, hbytes, bind, Option.bind, hdecoded, String.toList_ofList, pure]

theorem hexByte_cases (h : hexByte a b = some byte) : IsHexPair a b ∨ byte.toNat < 16 := by
  rw [hexByte_eq] at h
  obtain ⟨high, hhigh, h⟩ := Option.bind_eq_some_iff.mp h
  obtain ⟨low, hlow, rfl⟩ := Option.map_eq_some_iff.mp h
  split at hhigh
  · cases hhigh
    have hlt : low < 16 := of_decide_eq_true (Option.filter_eq_some_iff.mp hlow).2
    right
    rw [UInt8.toNat_ofNat']
    omega
  · exact .inl ⟨Option.isSome_of_mem hhigh, Option.isSome_of_mem hlow⟩

theorem not_percent_of_hexByte (h : hexByte a b = some byte) : a ≠ '%' ∧ b ≠ '%' := by
  have hnone : digitValue 16 '%' = none := by decide
  rw [hexByte_eq] at h
  obtain ⟨high, hhigh, h⟩ := Option.bind_eq_some_iff.mp h
  obtain ⟨low, hlow, _⟩ := Option.map_eq_some_iff.mp h
  constructor
  · rintro rfl
    rw [if_neg (by decide), hnone] at hhigh
    cases hhigh
  · rintro rfl
    rw [hnone] at hlow
    cases hlow

/-- What is read of a malformed escape is a control byte. -/
theorem percentBytes_malformed (h : percentBytes t = some bytes) (hbad : MalformedEscape t) :
    ∃ b ∈ bytes, b.toNat < 32 := by
  fun_induction percentBytes t generalizing bytes with
  | case1 => exact absurd hbad not_malformedEscape_nil
  | case2 a b t ih =>
    obtain ⟨byte, hbyte, h⟩ := Option.bind_eq_some_iff.mp h
    obtain ⟨rest, hrest, h⟩ := Option.bind_eq_some_iff.mp h
    cases h
    rcases hexByte_cases hbyte with hpair | hlow
    · have hrestBad : MalformedEscape t := by
        obtain ⟨ha, hb⟩ := not_percent_of_hexByte hbyte
        rcases malformedEscape_cons hbad with hbad | ⟨_, hnone⟩
        · have hbad := (malformedEscape_cons hbad).resolve_right fun h => ha h.1
          exact (malformedEscape_cons hbad).resolve_right fun h => hb h.1
        · exact absurd ⟨a, b, t, rfl, hpair⟩ hnone
      obtain ⟨c, hc, hlow⟩ := ih hrest hrestBad
      exact ⟨c, List.mem_cons_of_mem _ hc, hlow⟩
    · exact ⟨byte, List.mem_cons_self, by omega⟩
  | case3 => cases h
  | case4 c t _ hc ih =>
    obtain ⟨rest, hrest, rfl⟩ := Option.map_eq_some_iff.mp h
    have hbad := (malformedEscape_cons hbad).resolve_right fun h => hc h.1
    obtain ⟨b, hb, hlow⟩ := ih hrest hbad
    exact ⟨b, List.mem_append_right _ hb, hlow⟩

theorem percentDecode_malformed (h : percentDecode t = some decoded) (hbad : MalformedEscape t) :
    decoded.any isControl = true := by
  unfold percentDecode at h
  obtain ⟨bytes, hbytes, h⟩ := Option.bind_eq_some_iff.mp h
  obtain ⟨s, hs, h⟩ := Option.bind_eq_some_iff.mp h
  cases h
  obtain ⟨b, hb, hlow⟩ := percentBytes_malformed hbytes hbad
  rw [fromUTF8?_eq_some_iff.mp hs] at hb
  obtain ⟨c, hc, heq⟩ := mem_asBytes (by omega) hb
  refine List.any_eq_true.mpr ⟨c, hc, ?_⟩
  rw [isControl, Bool.or_eq_true, decide_eq_true_iff]
  exact .inl (by omega)

end BrowserServe
