import BrowserServe.Library.Text
import Mathlib.Tactic.Common

namespace BrowserServe.Library
set_option autoImplicit true

/-- The bytes that go on with a character, and that none begins with. -/
def isContinuation (b : UInt8) : Bool := 0x80 ≤ b && b ≤ 0xBF

theorem utf8Start_bounds (h : utf8Start b = some (width, low, high)) :
    0x80 ≤ low ∧ high ≤ 0xBF ∧ 0 < width := by
  unfold utf8Start at h
  split at h
  · cases h; decide
  split at h
  · cases h
  split at h
  · cases h; decide
  split at h
  · cases h
    split <;> split <;> decide
  split at h
  · cases h
    split <;> split <;> decide
  · cases h

theorem utf8Rest_length_le (n : Nat) (low high : UInt8) (bs : List UInt8) :
    (utf8Rest n low high bs).length ≤ bs.length := by
  induction bs generalizing n low high with
  | nil => cases n <;> simp [utf8Rest]
  | cons b bs ih =>
    cases n with
    | zero => simp [utf8Rest]
    | succ n =>
      rw [utf8Rest]
      split
      · exact Nat.succ_le_succ (ih n _ _)
      · exact Nat.zero_le _

theorem utf8Rest_append {rest : List UInt8}
    (hrest : ∀ b, rest.head? = some b → isContinuation b = false)
    (n : Nat) (low high : UInt8) (hlow : 0x80 ≤ low) (hhigh : high ≤ 0xBF) (bs : List UInt8) :
    utf8Rest n low high (bs ++ rest) = utf8Rest n low high bs := by
  induction bs generalizing n low high with
  | nil =>
    cases n with
    | zero => simp [utf8Rest]
    | succ n =>
      cases rest with
      | nil => rfl
      | cons b rest =>
        have hb := hrest b rfl
        have hnot : ¬(low ≤ b ∧ b ≤ high) := by
          rintro ⟨hlb, hbh⟩
          have hcont : isContinuation b = true := by
            simp only [isContinuation, Bool.and_eq_true, decide_eq_true_eq]
            exact ⟨UInt8.le_trans hlow hlb, UInt8.le_trans hbh hhigh⟩
          rw [hb] at hcont
          cases hcont
        rw [List.nil_append, utf8Rest, if_neg hnot]
        rfl
  | cons b bs ih =>
    cases n with
    | zero => simp [utf8Rest]
    | succ n =>
      rw [List.cons_append, utf8Rest, utf8Rest]
      split
      · rw [ih n 0x80 0xBF (by decide) (by decide)]
      · rfl

/-- What begins with the start of a character does not change what was before it. -/
theorem fromUtf8Lossy_append {rest : List UInt8}
    (hrest : ∀ b, rest.head? = some b → isContinuation b = false) (bs : List UInt8) :
    fromUtf8Lossy (bs ++ rest) = fromUtf8Lossy bs ++ fromUtf8Lossy rest := by
  induction bs using fromUtf8Lossy.induct with
  | case1 => rw [fromUtf8Lossy]; rfl
  | case2 b bs hstart ih =>
    rw [List.cons_append, fromUtf8Lossy, fromUtf8Lossy, hstart]
    simp only [ih, List.cons_append]
  | case3 b bs width low high hstart more ih =>
    obtain ⟨hlow, hhigh, _⟩ := utf8Start_bounds hstart
    have hmore : utf8Rest (width - 1) low high (bs ++ rest) = more :=
      utf8Rest_append hrest _ low high hlow hhigh bs
    have hlen : more.length ≤ bs.length := utf8Rest_length_le _ _ _ _
    rw [List.cons_append, fromUtf8Lossy, fromUtf8Lossy, hstart]
    simp only [hmore, List.drop_append_of_le_length hlen, ih, List.cons_append]
    rfl

theorem fromUtf8Lossy_length_le (bs : List UInt8) : (fromUtf8Lossy bs).length ≤ bs.length := by
  induction bs using fromUtf8Lossy.induct with
  | case1 => rw [fromUtf8Lossy]; exact Nat.le_refl 0
  | case2 b bs hstart ih =>
    rw [fromUtf8Lossy, hstart]
    exact Nat.succ_le_succ ih
  | case3 b bs width low high hstart more ih =>
    rw [fromUtf8Lossy, hstart]
    refine Nat.succ_le_succ (Nat.le_trans ih ?_)
    rw [List.length_drop]
    exact Nat.sub_le _ _

/-- The bytes of a character are read as it. -/
theorem fromUtf8Lossy_cons {b : UInt8} (more : List UInt8) {rest : List UInt8} {low high : UInt8}
    {c : Char}
    (hstart : utf8Start b = some (more.length + 1, low, high))
    (hmore : utf8Rest more.length low high (more ++ rest) = more)
    (hchar : more.foldl (fun n b => 64 * n + b.toNat % 64)
      (if more = [] then b.toNat else b.toNat % 2 ^ (6 - more.length)) = c.toNat) :
    fromUtf8Lossy (b :: (more ++ rest)) = c :: fromUtf8Lossy rest := by
  have hwidth : (more.length + 1 = 1) = (more = []) := by
    rw [Nat.add_eq_right, List.length_eq_zero_iff]
  have hsub : 7 - (more.length + 1) = 6 - more.length := by omega
  rw [fromUtf8Lossy, hstart]
  simp only [Nat.add_sub_cancel, hmore, if_true, hwidth, hsub, List.drop_left]
  rw [hchar, Char.ofNat_toNat]

/-- The byte with the last six bits of a number. -/
def continuation (n : Nat) : UInt8 := UInt8.ofNat (n % 64 + 128)

theorem continuation_bounds (n : Nat) : 0x80 ≤ continuation n ∧ continuation n ≤ 0xBF := by
  have hall : ∀ r < 64, 0x80 ≤ UInt8.ofNat (r + 128) ∧ UInt8.ofNat (r + 128) ≤ 0xBF := by decide
  exact hall (n % 64) (Nat.mod_lt n (by decide))

theorem continuation_mod (n : Nat) : (continuation n).toNat % 64 = n % 64 := by
  have hall : ∀ r < 64, (UInt8.ofNat (r + 128)).toNat % 64 = r := by decide
  exact hall (n % 64) (Nat.mod_lt n (by decide))

theorem le_continuation {n : Nat} (bound : Nat) (hbound : bound < 64) (h : bound ≤ n % 64) :
    UInt8.ofNat (bound + 128) ≤ continuation n := by
  rw [continuation, UInt8.le_iff_toNat_le, UInt8.toNat_ofNat', UInt8.toNat_ofNat']
  omega

theorem continuation_le {n : Nat} (bound : Nat) (hbound : bound < 64) (h : n % 64 ≤ bound) :
    continuation n ≤ UInt8.ofNat (bound + 128) := by
  rw [continuation, UInt8.le_iff_toNat_le, UInt8.toNat_ofNat', UInt8.toNat_ofNat']
  omega

theorem utf8Start_one {n : Nat} (h : n < 128) :
    utf8Start (UInt8.ofNat n) = some (1, 0x80, 0xBF) := by
  have hall : ∀ n < 128, utf8Start (UInt8.ofNat n) = some (1, 0x80, 0xBF) := by decide
  exact hall n h

theorem utf8Start_two {n : Nat} (hlow : 2 ≤ n) (hhigh : n < 32) :
    utf8Start (UInt8.ofNat (n + 192)) = some (2, 0x80, 0xBF) := by
  have hall : ∀ n < 32, 2 ≤ n → utf8Start (UInt8.ofNat (n + 192)) = some (2, 0x80, 0xBF) := by
    decide
  exact hall n hhigh hlow

theorem utf8Start_three {n : Nat} (h : n < 16) : utf8Start (UInt8.ofNat (n + 224)) =
    some (3, if n = 0 then 0xA0 else 0x80, if n = 13 then 0x9F else 0xBF) := by
  have hall : ∀ n < 16, utf8Start (UInt8.ofNat (n + 224)) =
      some (3, if n = 0 then 0xA0 else 0x80, if n = 13 then 0x9F else 0xBF) := by decide
  exact hall n h

theorem utf8Start_four {n : Nat} (h : n < 5) : utf8Start (UInt8.ofNat (n + 240)) =
    some (4, if n = 0 then 0x90 else 0x80, if n = 4 then 0x8F else 0xBF) := by
  have hall : ∀ n < 5, utf8Start (UInt8.ofNat (n + 240)) =
      some (4, if n = 0 then 0x90 else 0x80, if n = 4 then 0x8F else 0xBF) := by decide
  exact hall n h

/-- UTF-8 as shifts and remainders. -/
theorem utf8EncodeChar_eq (c : Char) : String.utf8EncodeChar c =
    if c.toNat ≤ 0x7f then [UInt8.ofNat c.toNat]
    else if c.toNat ≤ 0x7ff then [UInt8.ofNat (c.toNat / 64 % 32 + 192), continuation c.toNat]
    else if c.toNat ≤ 0xffff then [UInt8.ofNat (c.toNat / 4096 % 16 + 224),
      continuation (c.toNat / 64), continuation c.toNat]
    else [UInt8.ofNat (c.toNat / 262144 % 8 + 240), continuation (c.toNat / 4096),
      continuation (c.toNat / 64), continuation c.toNat] := rfl

theorem toNat_scalar (c : Char) :
    c.toNat < 0xD800 ∨ 0xDFFF < c.toNat ∧ c.toNat < 0x110000 := c.valid

theorem utf8Rest_cons {n : Nat} {low high b : UInt8} {bs : List UInt8} (hlow : low ≤ b)
    (hhigh : b ≤ high) : utf8Rest (n + 1) low high (b :: bs) = b :: utf8Rest n 0x80 0xBF bs := by
  rw [utf8Rest, if_pos ⟨hlow, hhigh⟩]

theorem fromUtf8Lossy_encode (c : Char) (rest : List UInt8) :
    fromUtf8Lossy (String.utf8EncodeChar c ++ rest) = c :: fromUtf8Lossy rest := by
  have hscalar := toNat_scalar c
  rw [utf8EncodeChar_eq]
  split
  · refine fromUtf8Lossy_cons [] (utf8Start_one (by omega)) ?_ ?_
    · simp [utf8Rest]
    · simp
      omega
  split
  · refine fromUtf8Lossy_cons [_] (utf8Start_two (by omega) (by omega)) ?_ ?_
    · obtain ⟨hlow, hhigh⟩ := continuation_bounds c.toNat
      exact utf8Rest_cons hlow hhigh
    · simp [continuation_mod]
      omega
  obtain ⟨hlow, hhigh⟩ := continuation_bounds c.toNat
  obtain ⟨hlow', hhigh'⟩ := continuation_bounds (c.toNat / 64)
  split
  · have hsecond : (if c.toNat / 4096 % 16 = 0 then 0xA0 else 0x80) ≤ continuation (c.toNat / 64) ∧
        continuation (c.toNat / 64) ≤ (if c.toNat / 4096 % 16 = 13 then 0x9F else 0xBF) := by
      constructor
      · split
        · exact le_continuation 32 (by decide) (by omega)
        · exact hlow'
      · split
        · exact continuation_le 31 (by decide) (by omega)
        · exact hhigh'
    refine fromUtf8Lossy_cons [_, _] (utf8Start_three (by omega)) ?_ ?_
    · refine (utf8Rest_cons hsecond.1 hsecond.2).trans ?_
      exact congrArg _ (utf8Rest_cons hlow hhigh)
    · simp [continuation_mod]
      omega
  · obtain ⟨hlow'', hhigh''⟩ := continuation_bounds (c.toNat / 4096)
    have hsecond : (if c.toNat / 262144 % 8 = 0 then 0x90 else 0x80) ≤
        continuation (c.toNat / 4096) ∧ continuation (c.toNat / 4096) ≤
        (if c.toNat / 262144 % 8 = 4 then 0x8F else 0xBF) := by
      constructor
      · split
        · exact le_continuation 16 (by decide) (by omega)
        · exact hlow''
      · split
        · exact continuation_le 15 (by decide) (by omega)
        · exact hhigh''
    refine fromUtf8Lossy_cons [_, _, _] (utf8Start_four (by omega)) ?_ ?_
    · refine (utf8Rest_cons hsecond.1 hsecond.2).trans (congrArg _ ?_)
      exact (utf8Rest_cons hlow' hhigh').trans (congrArg _ (utf8Rest_cons hlow hhigh))
    · simp [continuation_mod]
      omega

theorem utf8Start_continuation (h : isContinuation b = true) : utf8Start b = none := by
  simp only [isContinuation, Bool.and_eq_true, decide_eq_true_eq] at h
  have hlow : ¬b < 0x80 := UInt8.not_lt.mpr h.1
  have hhigh : b < 0xC2 := UInt8.lt_of_le_of_lt h.2 (by decide)
  rw [utf8Start, if_neg hlow, if_pos hhigh]

theorem utf8EncodeChar_head (c : Char) (rest : List UInt8) :
    ∀ b, (String.utf8EncodeChar c ++ rest).head? = some b → isContinuation b = false := by
  have hscalar := toNat_scalar c
  have hstarts : ∀ b, utf8Start b ≠ none → isContinuation b = false := by
    intro b hstart
    by_contra hcont
    exact hstart (utf8Start_continuation (by simpa using hcont))
  intro b hb
  refine hstarts b ?_
  rw [utf8EncodeChar_eq] at hb
  split at hb
  · cases hb
    rw [utf8Start_one (by omega)]
    exact Option.some_ne_none _
  split at hb
  · cases hb
    rw [utf8Start_two (by omega) (by omega)]
    exact Option.some_ne_none _
  split at hb
  · cases hb
    rw [utf8Start_three (by omega)]
    exact Option.some_ne_none _
  · cases hb
    rw [utf8Start_four (by omega)]
    exact Option.some_ne_none _

/-- A character in the middle is read as it, whatever is around it. -/
theorem fromUtf8Lossy_append_encode (bs : List UInt8) (c : Char) (rest : List UInt8) :
    fromUtf8Lossy (bs ++ (String.utf8EncodeChar c ++ rest)) =
      fromUtf8Lossy bs ++ c :: fromUtf8Lossy rest := by
  rw [fromUtf8Lossy_append (utf8EncodeChar_head c rest), fromUtf8Lossy_encode]

theorem fromUtf8Lossy_asBytes (t : Text) : fromUtf8Lossy (asBytes t) = t := by
  induction t with
  | nil => rw [asBytes, List.flatMap_nil, fromUtf8Lossy]
  | cons c t ih =>
    rw [asBytes, List.flatMap_cons, fromUtf8Lossy_encode]
    exact congrArg (List.cons c) ih

/-- A byte below 128 is the character it stands for. -/
theorem mem_asBytes {t : Text} {b : UInt8} (hb : b.toNat < 128) (h : b ∈ asBytes t) :
    ∃ c ∈ t, c.toNat = b.toNat := by
  obtain ⟨c, hc, hbyte⟩ := List.mem_flatMap.mp h
  refine ⟨c, hc, ?_⟩
  have hcontinue : ∀ n, b ≠ continuation n := by
    rintro n rfl
    have hlow := UInt8.le_iff_toNat_le.mp (continuation_bounds n).1
    exact absurd hb (Nat.not_lt.mpr hlow)
  have hlead : ∀ n, 128 ≤ n → n < 256 → b ≠ UInt8.ofNat n := by
    rintro n hlow hhigh rfl
    rw [UInt8.toNat_ofNat'] at hb
    omega
  rw [utf8EncodeChar_eq] at hbyte
  split at hbyte
  · rename_i hone
    rw [List.mem_singleton.mp hbyte, UInt8.toNat_ofNat']
    omega
  split at hbyte
  · simp only [List.mem_cons, List.not_mem_nil, or_false] at hbyte
    rcases hbyte with hbyte | hbyte
    · exact absurd hbyte (hlead _ (by omega) (by omega))
    · exact absurd hbyte (hcontinue _)
  split at hbyte
  · simp only [List.mem_cons, List.not_mem_nil, or_false] at hbyte
    rcases hbyte with hbyte | hbyte | hbyte
    · exact absurd hbyte (hlead _ (by omega) (by omega))
    · exact absurd hbyte (hcontinue _)
    · exact absurd hbyte (hcontinue _)
  · simp only [List.mem_cons, List.not_mem_nil, or_false] at hbyte
    rcases hbyte with hbyte | hbyte | hbyte | hbyte
    · exact absurd hbyte (hlead _ (by omega) (by omega))
    · exact absurd hbyte (hcontinue _)
    · exact absurd hbyte (hcontinue _)
    · exact absurd hbyte (hcontinue _)

theorem not_mem_asBytes {t : Text} {c : Char} (hc : c.toNat < 128) (h : c ∉ t) :
    UInt8.ofNat c.toNat ∉ asBytes t := by
  intro hmem
  have hvalue : (UInt8.ofNat c.toNat).toNat = c.toNat := by
    rw [UInt8.toNat_ofNat']
    omega
  obtain ⟨d, hd, heq⟩ := mem_asBytes (by rw [hvalue]; exact hc) hmem
  rw [hvalue] at heq
  exact h (Char.toNat_inj.mp heq ▸ hd)

end BrowserServe.Library
