import BrowserServe.Library.Authority
import BrowserServe.Library.FormUrl
import BrowserServe.Library.HttpHead

namespace BrowserServe.Library
set_option autoImplicit true

/-- Only the bytes of a text are read as this text. -/
theorem fromUTF8?_eq_some_iff {bytes : List UInt8} {s : String} :
    String.fromUTF8? ⟨bytes.toArray⟩ = some s ↔ bytes = asBytes s.toList := by
  have hbytes : (asBytes s.toList).toByteArray = s.toByteArray := by
    rw [← String.utf8Encode_toList, List.utf8Encode]
    rfl
  have harray (l : List UInt8) : (⟨l.toArray⟩ : ByteArray) = l.toByteArray := by
    apply ByteArray.ext
    apply Array.toList_inj.1
    rw [List.toList_data_toByteArray]
  rw [harray]
  constructor
  · intro h
    unfold String.fromUTF8? at h
    split at h
    · rename_i hvalid
      have hs : s.toByteArray = bytes.toByteArray := by
        rw [← Option.some.inj h]
        rfl
      rw [hs] at hbytes
      have hlist := congrArg (fun b : ByteArray => b.data.toList) hbytes
      simp only [List.toList_data_toByteArray] at hlist
      exact hlist.symm
    · cases h
  · rintro rfl
    rw [hbytes, String.fromUTF8?, dif_pos s.isValidUTF8]
    rfl

/-- Two hexadecimal digits. -/
def IsHexPair (a b : Char) : Prop :=
  (digitValue 16 a).isSome = true ∧ (digitValue 16 b).isSome = true

/-- Bytes written as escapes, with digits of either case. -/
inductive EscapedBytes : List UInt8 → Text → Prop
  | nil : EscapedBytes [] []
  | cons (hbyte : escapedByte a b = some byte) (h : EscapedBytes bytes t) :
      EscapedBytes (byte :: bytes) ('%' :: a :: b :: t)

/-- A text written with some of its characters escaped, the ones that must be among them. -/
inductive EscapedAs (reserved : Char → Bool) : Text → Text → Prop
  | nil : EscapedAs reserved [] []
  | plain (hc : reserved c = false) (h : EscapedAs reserved t e) :
      EscapedAs reserved (c :: t) (c :: e)
  | escaped (hc : EscapedBytes (String.utf8EncodeChar c) front) (h : EscapedAs reserved t e) :
      EscapedAs reserved (c :: t) (front ++ e)

/-- A percent sign somewhere that two hexadecimal digits do not follow. -/
def MalformedEscape (t : Text) : Prop :=
  ∃ before after, t = before ++ '%' :: after ∧ ¬∃ a b rest, after = a :: b :: rest ∧ IsHexPair a b

theorem not_malformedEscape_nil : ¬MalformedEscape [] := by
  rintro ⟨before, after, h, _⟩
  cases before with
  | nil => cases h
  | cons => cases h

theorem malformedEscape_cons {c : Char} {t : Text} (h : MalformedEscape (c :: t)) :
    MalformedEscape t ∨ c = '%' ∧ ¬∃ a b rest, t = a :: b :: rest ∧ IsHexPair a b := by
  obtain ⟨before, after, heq, hpair⟩ := h
  cases before with
  | nil =>
    cases heq
    exact .inr ⟨rfl, hpair⟩
  | cons d before =>
    cases heq
    exact .inl ⟨before, after, rfl, hpair⟩

/-- A malformed escape is on one side of a separator. -/
theorem MalformedEscape.of_append {c : Char} {s t : Text} (hc : c ≠ '%')
    (h : MalformedEscape (s ++ c :: t)) : MalformedEscape s ∨ MalformedEscape t := by
  induction s with
  | nil =>
    rcases malformedEscape_cons h with h | ⟨heq, _⟩
    · exact .inr h
    · exact absurd heq hc
  | cons d s ih =>
    rcases malformedEscape_cons h with h | ⟨rfl, hpair⟩
    · refine (ih h).imp_left fun ⟨before, after, heq, hpair⟩ => ⟨d :: before, after, ?_, hpair⟩
      rw [heq, List.cons_append]
    · refine .inl ⟨[], s, rfl, ?_⟩
      rintro ⟨a, b, rest, rfl, hab⟩
      exact hpair ⟨a, b, rest ++ c :: t, rfl, hab⟩

/-- What is escaped has no reserved character but the percent signs of its escapes. -/
theorem EscapedBytes.chars (h : EscapedBytes bytes t) :
    ∀ c ∈ t, c = '%' ∨ (digitValue 16 c).isSome = true := by
  induction h with
  | nil => exact nofun
  | cons hbyte _ ih =>
    obtain ⟨high, hhigh, hbyte⟩ := Option.bind_eq_some_iff.mp hbyte
    obtain ⟨low, hlow, _⟩ := Option.bind_eq_some_iff.mp hbyte
    rw [List.forall_mem_cons, List.forall_mem_cons, List.forall_mem_cons]
    exact ⟨.inl rfl, .inr (Option.isSome_of_mem hhigh), .inr (Option.isSome_of_mem hlow), ih⟩

theorem EscapedAs.not_mem {reserved : Char → Bool} {c : Char} (h : EscapedAs reserved t e)
    (hc : reserved c = true) (hpercent : c ≠ '%') (hdigit : digitValue 16 c = none) : c ∉ e := by
  induction h with
  | nil => exact List.not_mem_nil
  | plain hd _ ih =>
    refine List.not_mem_cons_of_ne_of_not_mem ?_ ih
    rintro rfl
    rw [hc] at hd
    cases hd
  | escaped hd _ ih =>
    intro hmem
    rcases List.mem_append.mp hmem with hmem | hmem
    · rcases hd.chars c hmem with h | h
      · exact hpercent h
      · rw [hdigit] at h
        cases h
    · exact ih hmem

/-- Trimming keeps what begins and ends with no white space, and trims the end of what follows. -/
theorem trim_core {before core tail : Text} {c d : Char}
    (hbefore : ∀ c ∈ before, isWhitespace c = true)
    (hhead : core.head? = some c) (hc : isWhitespace c = false) (hlast : core.getLast? = some d)
    (hd : isWhitespace d = false) :
    trim (before ++ (core ++ tail)) = core ++ (tail.reverse.dropWhile isWhitespace).reverse := by
  obtain ⟨rest, rfl⟩ := List.head?_eq_some_iff.mp hhead
  have hfirst : (before ++ (c :: rest ++ tail)).dropWhile isWhitespace = c :: rest ++ tail := by
    rw [List.dropWhile_append_of_pos hbefore, List.cons_append, List.dropWhile_cons, hc]
    rfl
  rw [← List.head?_reverse] at hlast
  obtain ⟨back, hback⟩ := List.head?_eq_some_iff.mp hlast
  have hkeep : (d :: back).dropWhile isWhitespace = d :: back := by
    rw [List.dropWhile_cons, hd]
    rfl
  have hend : (tail.reverse ++ (c :: rest).reverse).dropWhile isWhitespace =
      tail.reverse.dropWhile isWhitespace ++ (c :: rest).reverse := by
    rw [List.dropWhile_append, hback, hkeep]
    split
    · rename_i hempty
      rw [List.isEmpty_iff.mp hempty]
      rfl
    · rfl
  rw [trim, hfirst, List.reverse_append, hend, List.reverse_append, List.reverse_reverse]

end BrowserServe.Library
