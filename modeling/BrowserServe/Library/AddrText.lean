import BrowserServe.Library.Authority

namespace BrowserServe.Library
set_option autoImplicit true

theorem digitChar_digit {c : Char} (h : c.isDigit = true) :
    (c.toNat - '0'.toNat).digitChar = c := by
  have hbounds : 48 ≤ c.toNat ∧ c.toNat ≤ 57 := by
    simpa [Char.isDigit, UInt32.le_iff_toNat_le] using h
  obtain ⟨n, hn⟩ : ∃ n, c.toNat = 48 + n := ⟨c.toNat - 48, by omega⟩
  have hc : c = Char.ofNat (48 + n) := by rw [← hn, Char.ofNat_toNat]
  have hlt : n < 10 := by omega
  rw [hn]
  subst hc
  clear hn h hbounds
  have hall : ∀ n < 10, (48 + n - '0'.toNat).digitChar = Char.ofNat (48 + n) := by decide
  exact hall n hlt

theorem digit_lt {c : Char} (h : c.isDigit = true) : c.toNat - '0'.toNat < 10 := by
  have hbounds : 48 ≤ c.toNat ∧ c.toNat ≤ 57 := by
    simpa [Char.isDigit, UInt32.le_iff_toNat_le] using h
  have hzero : '0'.toNat = 48 := rfl
  omega

/-- A decimal text with no zero in front is that of its number. -/
theorem toDigits_ofDigitChars {digits : Text} (hne : digits ≠ [])
    (hdigits : ∀ c ∈ digits, c.isDigit = true)
    (hzero : digits.head? = some '0' → digits.length ≤ 1) :
    Nat.toDigits 10 (Nat.ofDigitChars 10 digits 0) = digits := by
  induction digits using List.reverseRecOn with
  | nil => exact absurd rfl hne
  | append_singleton front d ih =>
    have hd := hdigits d (List.mem_append_right front (List.mem_singleton_self d))
    rw [Nat.ofDigitChars_append, Nat.ofDigitChars_cons, Nat.ofDigitChars_nil]
    by_cases hfront : front = []
    · subst hfront
      rw [Nat.ofDigitChars_nil, Nat.mul_zero, Nat.zero_add, Nat.toDigits_of_lt_base (digit_lt hd),
        digitChar_digit hd]
      rfl
    · have hhead : front.head? ≠ some '0' := by
        intro hhead
        have hlong := hzero (by rw [List.head?_append_of_ne_nil _ hfront, hhead])
        have hpos := List.length_pos_of_ne_nil hfront
        rw [List.length_append, List.length_singleton] at hlong
        omega
      have hrest := ih hfront (fun c hc => hdigits c (List.mem_append_left [d] hc))
        fun h => absurd h hhead
      have hpos : 0 < Nat.ofDigitChars 10 front 0 := by
        apply Nat.pos_of_ne_zero
        intro hvalue
        rw [hvalue, Nat.toDigits_zero] at hrest
        rw [← hrest] at hhead
        exact hhead rfl
      rw [← Nat.toDigits_append_toDigits (by decide) hpos (digit_lt hd), hrest,
        Nat.toDigits_of_lt_base (digit_lt hd), digitChar_digit hd]

/-- Only zero is written with a zero in front. -/
theorem toDigits_head (h : (Nat.toDigits 10 n).head? = some '0') : n = 0 := by
  induction n using Nat.strongRecOn with
  | ind n ih =>
    by_cases hlt : n < 10
    · rw [Nat.toDigits_of_lt_base hlt, List.head?_cons, Option.some.injEq] at h
      have hall : ∀ n < 10, n.digitChar = '0' → n = 0 := by decide
      exact hall n hlt h
    · rw [Nat.toDigits_of_base_le (by decide) (by omega),
        List.head?_append_of_ne_nil _ Nat.toDigits_ne_nil] at h
      have hless := ih (n / 10) (by omega) h
      omega

theorem isDigit_of_digitValue {c : Char} : (digitValue 10 c).isSome = c.isDigit := by
  unfold digitValue
  cases hdigit : c.isDigit with
  | true =>
    have hlt := digit_lt hdigit
    simp only [if_true, Option.filter_some, decide_eq_true hlt, Option.isSome_some]
  | false =>
    simp only [Bool.false_eq_true, if_false]
    split
    · have hlarge : ¬c.toLower.toNat - 'a'.toNat + 10 < 10 := by omega
      simp only [Option.filter_some, decide_eq_false hlarge, Bool.false_eq_true, if_false,
        Option.isSome_none]
    · rfl

theorem digitValue_digit {c : Char} (h : c.isDigit = true) :
    (digitValue 10 c).getD 0 = c.toNat - '0'.toNat := by
  simp only [digitValue, h, if_true, Option.filter_some, decide_eq_true (digit_lt h),
    Option.getD_some]

theorem foldl_digitValue {digits : Text} (h : ∀ c ∈ digits, c.isDigit = true) (n : Nat) :
    digits.foldl (fun n c => 10 * n + (digitValue 10 c).getD 0) n =
      Nat.ofDigitChars 10 digits n := by
  induction digits generalizing n with
  | nil => rfl
  | cons c digits ih =>
    rw [List.foldl_cons, digitValue_digit (h c List.mem_cons_self),
      ih fun d hd => h d (List.mem_cons_of_mem c hd), Nat.ofDigitChars_cons]

/-- A number of an IPv4 address is written as its decimal text. -/
theorem readOctet_iff : readNumber 10 3 false 256 t = some (n, rest) ↔
    n < 256 ∧ t = Nat.toDigits 10 n ++ rest ∧ ∀ c, rest.head? = some c → c.isDigit = false := by
  have hspan : t.span (fun c => (digitValue 10 c).isSome) =
      (t.takeWhile Char.isDigit, t.dropWhile Char.isDigit) := by
    rw [List.span_eq_takeWhile_dropWhile]
    simp only [isDigit_of_digitValue]
  simp only [readNumber, hspan]
  constructor
  · intro h
    split at h
    · cases h
    · rename_i hshape
      split at h
      · rename_i hlt
        obtain ⟨rfl, rfl⟩ := Prod.mk.inj (Option.some.inj h)
        simp only [not_or, Bool.not_false, true_and, not_and, not_lt] at hshape
        have hdigits : ∀ c ∈ t.takeWhile Char.isDigit, c.isDigit = true :=
          fun c hc => List.mem_takeWhile_imp hc
        rw [foldl_digitValue hdigits] at hlt ⊢
        refine ⟨hlt, ?_, ?_⟩
        · rw [toDigits_ofDigitChars hshape.1 hdigits hshape.2.2, List.takeWhile_append_dropWhile]
        · intro c hc
          have hnot := List.head?_dropWhile_not Char.isDigit t
          rw [hc] at hnot
          exact hnot
      · cases h
  · rintro ⟨hlt, rfl, hrest⟩
    have hdigits : ∀ c ∈ Nat.toDigits 10 n, c.isDigit = true :=
      fun c hc => Nat.isDigit_of_mem_toDigits (by decide) (by decide) hc
    have hstop : rest.takeWhile Char.isDigit = [] ∧ rest.dropWhile Char.isDigit = rest := by
      cases rest with
      | nil => exact ⟨rfl, rfl⟩
      | cons c rest =>
        have hc := hrest c rfl
        exact ⟨List.takeWhile_cons_of_neg (by simp [hc]), List.dropWhile_cons_of_neg (by simp [hc])⟩
    have hlong : (Nat.toDigits 10 n).length ≤ 3 :=
      (Nat.length_toDigits_le_iff (by decide) (by decide)).mpr (by omega)
    rw [List.takeWhile_append_of_pos hdigits, hstop.1, List.dropWhile_append_of_pos hdigits,
      hstop.2,
      List.append_nil, if_neg, foldl_digitValue hdigits, Nat.ofDigitChars_ten_toDigits, if_pos hlt]
    rintro (hnil | hmore | ⟨_, hhead, hlonger⟩)
    · exact Nat.toDigits_ne_nil hnil
    · omega
    · rw [toDigits_head hhead] at hlonger
      exact absurd hlonger (by decide)

def ipv4Text (a b c d : Nat) : Text :=
  Nat.toDigits 10 a ++ '.' :: (Nat.toDigits 10 b ++ '.' :: (Nat.toDigits 10 c ++ '.' ::
    Nat.toDigits 10 d))

/-- An IPv4 address is read from the one text it is written as. -/
theorem readIpv4Addr_iff : readIpv4Addr t = some ((a, b, c, d), []) ↔
    (a < 256 ∧ b < 256 ∧ c < 256 ∧ d < 256) ∧ t = ipv4Text a b c d := by
  have hdot {t rest : Text} {n i : Nat} (hi : i ≠ 0) :
      readSeparator '.' i (readNumber 10 3 false 256) t = some (n, rest) ↔
        ∃ after, t = '.' :: after ∧ readNumber 10 3 false 256 after = some (n, rest) := by
    rw [readSeparator, if_neg hi, Option.bind_eq_some_iff]
    simp only [stripPrefix_eq_some_iff]
  constructor
  · intro h
    obtain ⟨⟨a, t₁⟩, ha, h⟩ := Option.bind_eq_some_iff.mp h
    obtain ⟨⟨b, t₂⟩, hb, h⟩ := Option.bind_eq_some_iff.mp h
    obtain ⟨⟨c, t₃⟩, hc, h⟩ := Option.bind_eq_some_iff.mp h
    obtain ⟨⟨d, t₄⟩, hd, h⟩ := Option.bind_eq_some_iff.mp h
    cases h
    obtain ⟨u₁, rfl, hb⟩ := (hdot (by decide)).mp hb
    obtain ⟨u₂, rfl, hc⟩ := (hdot (by decide)).mp hc
    obtain ⟨u₃, rfl, hd⟩ := (hdot (by decide)).mp hd
    obtain ⟨hlt, rfl, _⟩ := readOctet_iff.mp ha
    obtain ⟨hlt₁, rfl, _⟩ := readOctet_iff.mp hb
    obtain ⟨hlt₂, rfl, _⟩ := readOctet_iff.mp hc
    obtain ⟨hlt₃, rfl, _⟩ := readOctet_iff.mp hd
    refine ⟨⟨hlt, hlt₁, hlt₂, hlt₃⟩, ?_⟩
    rw [ipv4Text, List.append_nil]
  · rintro ⟨⟨ha, hb, hc, hd⟩, rfl⟩
    have hsep (rest : Text) : ∀ c, ('.' :: rest).head? = some c → c.isDigit = false := by
      intro c hc
      cases hc
      decide
    have hlast : ∀ c, ([] : Text).head? = some c → c.isDigit = false := by
      intro c hc
      cases hc
    have h₁ := readOctet_iff.mpr ⟨ha, rfl, hsep (Nat.toDigits 10 b ++ '.' ::
      (Nat.toDigits 10 c ++ '.' :: Nat.toDigits 10 d))⟩
    have h₂ := (hdot (i := 1) (by decide)).mpr ⟨_, rfl, readOctet_iff.mpr ⟨hb, rfl,
      hsep (Nat.toDigits 10 c ++ '.' :: Nat.toDigits 10 d)⟩⟩
    have h₃ := (hdot (i := 2) (by decide)).mpr ⟨_, rfl, readOctet_iff.mpr ⟨hc, rfl,
      hsep (Nat.toDigits 10 d)⟩⟩
    have h₄ := (hdot (i := 3) (by decide)).mpr ⟨_, rfl, readOctet_iff.mpr ⟨hd, rfl, hlast⟩⟩
    rw [List.append_nil] at h₄
    refine Option.bind_eq_some_iff.mpr ⟨_, h₁, ?_⟩
    refine Option.bind_eq_some_iff.mpr ⟨_, h₂, ?_⟩
    refine Option.bind_eq_some_iff.mpr ⟨_, h₃, ?_⟩
    exact Option.bind_eq_some_iff.mpr ⟨_, h₄, rfl⟩

/-- The digits and the colon that an IPv6 address is written with. -/
def IPV6_CHARS : Text := text "0123456789abcdef:"

def hexText (s : UInt16) : Text := Nat.toDigits 16 s.toNat

def zeroRun (segments : List UInt16) : Nat := (segments.takeWhile (· = 0)).length

/-- Where the first of the longest runs of two or more zeros is, and its length. -/
def longestZeros (segments : List UInt16) : Option (Nat × Nat) :=
  let run (i : Nat) := zeroRun (segments.drop i)
  let first := (List.range segments.length).find? fun i =>
    2 ≤ run i && (List.range segments.length).all (run · ≤ run i)
  first.map fun i => (i, run i)

/-- The canonical text of an IPv6 address, as the serialiser of URLs writes it. -/
def ipv6Text (segments : Vector UInt16 8) : Text :=
  let pieces := segments.toList.map hexText
  match longestZeros segments.toList with
  | none => [':'].intercalate pieces
  | some (i, n) =>
    [':'].intercalate (pieces.take i) ++ text "::" ++ [':'].intercalate (pieces.drop (i + n))

theorem mem_toDigits {c : Char} (h : c ∈ Nat.toDigits 16 n) : ∃ d < 16, c = d.digitChar := by
  induction n using Nat.strongRecOn with
  | ind n ih =>
    by_cases hlt : n < 16
    · rw [Nat.toDigits_of_lt_base hlt, List.mem_singleton] at h
      exact ⟨n, hlt, h⟩
    · rw [Nat.toDigits_of_base_le (by decide) (by omega)] at h
      rcases List.mem_append.mp h with h | h
      · exact ih (n / 16) (by omega) h
      · exact ⟨n % 16, Nat.mod_lt n (by decide), List.mem_singleton.mp h⟩

theorem hexText_chars {c : Char} (h : c ∈ hexText s) : c ∈ IPV6_CHARS ∧ c ≠ ':' := by
  obtain ⟨d, hd, rfl⟩ := mem_toDigits h
  have hall : ∀ d < 16, d.digitChar ∈ IPV6_CHARS ∧ d.digitChar ≠ ':' := by decide
  exact hall d hd

theorem hexText_ne_nil (s : UInt16) : hexText s ≠ [] := Nat.toDigits_ne_nil

theorem hexText_eq_one (h : hexText s = ['1']) : s = 1 := by
  have hlt : s.toNat < 16 := by
    have hlong : (Nat.toDigits 16 s.toNat).length ≤ 1 := by
      rw [← hexText, h]
      exact Nat.le_refl 1
    simpa using (Nat.length_toDigits_le_iff (by decide) (by decide)).mp hlong
  rw [hexText, Nat.toDigits_of_lt_base hlt, List.cons.injEq] at h
  have hall : ∀ n < 16, n.digitChar = '1' → n = 1 := by decide
  exact UInt16.toNat_inj.mp (hall _ hlt h.1)

theorem intercalate_chars {pieces : List Text} (h : ∀ piece ∈ pieces, ∃ s, piece = hexText s) :
    ∀ c ∈ [':'].intercalate pieces, c ∈ IPV6_CHARS := by
  induction pieces with
  | nil => exact fun c hc => absurd hc List.not_mem_nil
  | cons piece pieces ih =>
    obtain ⟨s, rfl⟩ := h _ List.mem_cons_self
    have hrest := ih fun other hother => h other (List.mem_cons_of_mem _ hother)
    intro c hc
    by_cases hnil : pieces = []
    · subst hnil
      rw [List.intercalate_singleton] at hc
      exact (hexText_chars hc).1
    · rw [List.intercalate_cons_of_ne_nil hnil] at hc
      rcases List.mem_append.mp hc with hc | hc
      · rcases List.mem_append.mp hc with hc | hc
        · exact (hexText_chars hc).1
        · rw [List.mem_singleton.mp hc]
          decide
      · exact hrest c hc

theorem ipv6Text_chars (segments : Vector UInt16 8) : ∀ c ∈ ipv6Text segments, c ∈ IPV6_CHARS := by
  have hpieces : ∀ piece ∈ segments.toList.map hexText, ∃ s, piece = hexText s := by
    intro piece hpiece
    obtain ⟨s, _, rfl⟩ := List.mem_map.mp hpiece
    exact ⟨s, rfl⟩
  unfold ipv6Text
  dsimp only
  split
  · exact intercalate_chars hpieces
  · intro c hc
    rcases List.mem_append.mp hc with hc | hc
    · rcases List.mem_append.mp hc with hc | hc
      · exact intercalate_chars (fun piece hmem => hpieces piece (List.mem_of_mem_take hmem)) c hc
      · have hcolon : c = ':' := by simpa [text] using hc
        rw [hcolon]
        decide
    · exact intercalate_chars (fun piece hmem => hpieces piece (List.mem_of_mem_drop hmem)) c hc

/-- Pieces are found again between the colons. -/
theorem splitOn_hexTexts {segments : List UInt16} (h : segments ≠ []) :
    ([':'].intercalate (segments.map hexText)).splitOn ':' = segments.map hexText := by
  apply List.splitOn_intercalate
  · intro piece hpiece
    obtain ⟨s, _, rfl⟩ := List.mem_map.mp hpiece
    exact fun hmem => (hexText_chars hmem).2 rfl
  · simpa using h

/-- What hexadecimal pieces are joined to does not start with a colon. -/
theorem intercalate_hexText (s : UInt16) (pieces : List Text) :
    ∃ c rest, [':'].intercalate (hexText s :: pieces) = c :: rest ∧ c ≠ ':' := by
  obtain ⟨c, digits, hdigits⟩ := List.exists_cons_of_ne_nil (hexText_ne_nil s)
  have hc : c ≠ ':' := (hexText_chars (hdigits ▸ List.mem_cons_self)).2
  by_cases hnil : pieces = []
  · exact ⟨c, digits, by rw [hnil, List.intercalate_singleton, hdigits], hc⟩
  · rw [List.intercalate_cons_of_ne_nil hnil, hdigits]
    exact ⟨c, _, rfl, hc⟩

/-- A text of zeros and a one at the end. -/
theorem eq_zeros_append (segments : List UInt16)
    (h : segments.drop (zeroRun segments) = [1]) :
    segments = List.replicate (zeroRun segments) 0 ++ [1] := by
  have hzeros : segments.takeWhile (· = 0) = List.replicate (zeroRun segments) 0 := by
    apply List.eq_replicate_of_mem
    intro s hs
    exact of_decide_eq_true (List.mem_takeWhile_imp (p := fun s => decide (s = 0)) hs)
  have htake : segments.take (zeroRun segments) = segments.takeWhile (· = 0) :=
    List.prefix_iff_eq_take.mp (List.takeWhile_prefix _) |>.symm
  conv => lhs; rw [← List.take_append_drop (zeroRun segments) segments]
  rw [htake, hzeros, h]

/-- Only the loopback address is written so. -/
theorem ipv6Text_eq_loopback (segments : Vector UInt16 8) :
    ipv6Text segments = text "::1" ↔ segments.toList = [0, 0, 0, 0, 0, 0, 0, 1] := by
  have hlength : segments.toList.length = 8 := segments.length_toList
  constructor
  · intro h
    have hpieces : (text "::1").splitOn ':' = [[], [], ['1']] := by decide
    unfold ipv6Text at h
    dsimp only at h
    split at h
    · have hne : segments.toList ≠ [] := by
        intro hnil
        rw [hnil] at hlength
        cases hlength
      have hsplit := splitOn_hexTexts hne
      rw [h, hpieces] at hsplit
      have hthree := congrArg List.length hsplit
      rw [List.length_map, hlength] at hthree
      cases hthree
    · rename_i i n hzeros
      obtain ⟨j, hfind, hpair⟩ := Option.map_eq_some_iff.mp hzeros
      obtain ⟨rfl, rfl⟩ := Prod.mk.inj hpair
      cases j with
      | succ j =>
        obtain ⟨s, rest, hsegments⟩ := List.exists_cons_of_length_pos (by rw [hlength]; decide)
        rw [hsegments, List.map_cons, List.take_succ_cons] at h
        obtain ⟨c, tail, hhead, hc⟩ := intercalate_hexText s ((rest.map hexText).take j)
        rw [hhead] at h
        exact absurd (List.cons.inj h).1 hc
      | zero =>
        simp only [List.drop_zero, Nat.zero_add, List.take_zero, List.intercalate_nil,
          List.nil_append] at h
        have hone : [':'].intercalate
            ((segments.toList.drop (zeroRun segments.toList)).map hexText) =
            ['1'] := by
          rw [List.map_drop]
          have hjoined : text "::" ++ _ = text "::" ++ ['1'] := h
          exact List.append_cancel_left hjoined
        have hrest : segments.toList.drop (zeroRun segments.toList) ≠ [] := by
          intro hnil
          rw [hnil] at hone
          cases hone
        have hsplit := splitOn_hexTexts hrest
        rw [hone] at hsplit
        have hlast : (['1'] : Text).splitOn ':' = [['1']] := by decide
        rw [hlast] at hsplit
        obtain ⟨s, hs, hsone⟩ := List.map_eq_singleton_iff.mp hsplit.symm
        rw [hexText_eq_one hsone] at hs
        have hall := eq_zeros_append _ hs
        have hcount := congrArg List.length hall
        rw [hlength, List.length_append, List.length_replicate, List.length_singleton] at hcount
        rw [hall, ← Nat.succ.inj hcount]
        rfl
  · intro h
    have hsegments : segments = #v[0, 0, 0, 0, 0, 0, 0, 1] := Vector.toList_inj.mp h
    rw [hsegments]
    decide +kernel

end BrowserServe.Library
