import BrowserServe.ProxyHead

namespace BrowserServe
open Library
set_option autoImplicit true

/-- The outcome of `read_head`: the head, a clean close, or why there is none. -/
def headOutcome (buf : List UInt8) (reader : Incoming UInt8) :
    Except (Stop IoError) (Option (List UInt8)) :=
  (readHead buf reader).1.map (Option.map Head.head)

/-- One stream, however it is cut into reads. -/
def Cuts (reader : Incoming UInt8) (bytes : List UInt8) (ending : Ending) : Prop :=
  reader.bytes = bytes ∧ reader.ending = ending

/-- A head is read the same in every cutting, up to its blank line and within the limit. -/
structure BoundedRead (buf bytes : List UInt8) (ending : Ending) : Prop where
  same : ∀ reader reader', Cuts reader bytes ending → Cuts reader' bytes ending →
    headOutcome buf reader = headOutcome buf reader'
  head : ∀ reader head after, Cuts reader bytes ending →
    readHead buf reader = (.ok (some head), after) →
      IsHead head.head ∧ head.head.length ≤ MAX_HEAD_BYTES ∧
        buf ++ bytes = head.head ++ (head.rest ++ after.bytes)
  refused : ∀ head tail reader, buf ++ bytes = head ++ tail → IsHead head →
    MAX_HEAD_BYTES < head.length → Cuts reader bytes ending →
      headOutcome buf reader = .error (.failed headTooLarge)

/-- A head that is read was in the buffer, or came with one more read below the limit; where there
is none, the limit was met or the stream is shorter. -/
theorem readHead_length (buf : List UInt8) (reader : Incoming UInt8) :
    (∃ head, (readHead buf reader).1 = .ok (some head) ∧ (head.head.length ≤ buf.length ∨
        buf.length < MAX_HEAD_BYTES ∧ head.head.length < MAX_HEAD_BYTES + 4096)) ∨
      (readHead buf reader).1 = .error (.failed headTooLarge) ∨
      (buf ++ reader.bytes).length < MAX_HEAD_BYTES := by
  induction hleft : MAX_HEAD_BYTES - buf.length using Nat.strongRecOn generalizing buf reader with
  | ind left ih =>
    rw [readHead]
    cases hend : findHeadEnd buf with
    | some e => exact .inl ⟨_, rfl, .inl (List.length_take_le' _ _)⟩
    | none =>
      by_cases hlong : MAX_HEAD_BYTES ≤ buf.length
      · simp only [if_pos hlong]
        exact .inr (.inl trivial)
      · simp only [if_neg hlong]
        have hgot := Incoming.read_got reader (show 0 < 4096 by decide)
        generalize Incoming.read 4096 reader = result at hgot
        cases hgot with
        | @data bs after hbytes hne hle hending =>
          cases bs with
          | nil => exact absurd rfl hne
          | cons b bs =>
            have hlength : (buf ++ b :: bs).length = buf.length + (b :: bs).length :=
              List.length_append
            have hpos : 0 < (b :: bs).length := Nat.succ_pos _
            rw [hbytes, ← List.append_assoc]
            rcases ih _ (by omega) (buf ++ b :: bs) after rfl with ⟨head, hhead, hbound⟩ | h
            · exact .inl ⟨head, hhead, .inr (by omega)⟩
            · exact .inr h
        | eof hbytes hending =>
          rw [hbytes, List.append_nil]
          exact .inr (.inr (Nat.lt_of_not_le hlong))
        | failed hbytes hending =>
          rw [hbytes, List.append_nil]
          exact .inr (.inr (Nat.lt_of_not_le hlong))
        | waiting hbytes hending =>
          rw [hbytes, List.append_nil]
          exact .inr (.inr (Nat.lt_of_not_le hlong))

/-- What `read_head` comes to where a stream ends within the limit, without a blank line. -/
def endedEarly (stream : List UInt8) : Ending → Except (Stop IoError) (Option (List UInt8))
  | .eof =>
    if stream = [] then .ok none
    else .error (.failed (.unexpectedEof "unexpected end of file"))
  | .failed e => .error (.failed e)
  | .silent => .error .waiting

/-- What a stream comes to where the size of its head decides. -/
def verdict (stream : List UInt8) (ending : Ending) : Except (Stop IoError) (Option (List UInt8)) :=
  match findHeadEnd stream with
  | some e =>
    if e ≤ MAX_HEAD_BYTES then .ok (some (stream.take e)) else .error (.failed headTooLarge)
  | none =>
    if MAX_HEAD_BYTES ≤ stream.length then .error (.failed headTooLarge)
    else endedEarly stream ending

/-- Heads that one more read brings within the buffer though they are over the limit. -/
def Overshoots (buf stream : List UInt8) : Prop :=
  ∃ e, findHeadEnd stream = some e ∧ MAX_HEAD_BYTES < e ∧ e < MAX_HEAD_BYTES + 4096 ∧
    buf.length < MAX_HEAD_BYTES

theorem verdict_of_head {stream : List UInt8} (h : findHeadEnd stream = some e) :
    verdict stream ending =
      if e ≤ MAX_HEAD_BYTES then .ok (some (stream.take e)) else .error (.failed headTooLarge) := by
  simp only [verdict, h]

theorem verdict_of_none {stream : List UInt8} (h : findHeadEnd stream = none) :
    verdict stream ending = if MAX_HEAD_BYTES ≤ stream.length then .error (.failed headTooLarge)
      else endedEarly stream ending := by
  simp only [verdict, h]

theorem verdict_of_long {stream start left : List UInt8} (hstream : stream = start ++ left)
    (hnone : findHeadEnd start = none) (hlong : MAX_HEAD_BYTES ≤ start.length) :
    verdict stream ending = .error (.failed headTooLarge) := by
  have hlength : start.length ≤ stream.length := by
    rw [hstream, List.length_append]
    exact Nat.le_add_right _ _
  cases hend : findHeadEnd stream with
  | none => rw [verdict_of_none hend, if_pos (Nat.le_trans hlong hlength)]
  | some e =>
    rw [verdict_of_head hend, if_neg]
    intro hle
    -- the first blank line would have been over within `start`
    have hpre : stream.take e <+: start := by
      refine List.prefix_of_prefix_length_le (List.take_prefix _ _) ⟨left, hstream.symm⟩ ?_
      exact Nat.le_trans (List.length_take_le _ _) (Nat.le_trans hle hlong)
    have hfound := endOf_of_isPrefix hend hpre
    rw [findHeadEnd] at hnone
    rw [hnone] at hfound
    cases hfound

/-- Unless its head is one that can overshoot, a stream has one outcome. -/
theorem headOutcome_eq {buf : List UInt8} {reader : Incoming UInt8}
    (hbuf : buf.length ≤ MAX_HEAD_BYTES) (h : ¬Overshoots buf (buf ++ reader.bytes)) :
    headOutcome buf reader = verdict (buf ++ reader.bytes) reader.ending := by
  have hread := (readHead_spec buf reader).1
  have hlength := readHead_length buf reader
  unfold headOutcome
  generalize buf ++ reader.bytes = stream at h hread hlength
  generalize (readHead buf reader).1 = result at hread hlength
  generalize (readHead buf reader).2.bytes = left at hread
  cases hread with
  | @head head rest _ hstream hhead =>
    have hfound : findHeadEnd stream = some head.length := by
      rw [hstream]
      exact findHeadEnd_of_isHead hhead _
    have hle : head.length ≤ MAX_HEAD_BYTES := by
      apply Nat.le_of_not_lt
      intro hlong
      rcases hlength with ⟨_, hhead, hbound⟩ | herror | hshort
      · cases hhead
        dsimp only at hbound
        exact h ⟨_, hfound, hlong, by omega, by omega⟩
      · cases herror
      · have hmore : head.length ≤ stream.length := endOf_bound hfound
        omega
    rw [verdict_of_head hfound, if_pos hle, hstream, List.take_left]
    rfl
  | tooLarge hstream hnone hlong =>
    rw [verdict_of_long hstream hnone hlong]
    rfl
  | closed hnil hending =>
    rw [hnil, hending]
    decide
  | midway hne hnone hending =>
    rcases hlength with ⟨_, hhead, _⟩ | herror | hshort
    · cases hhead
    · simp [headTooLarge, IoError.unexpectedEof] at herror
    · rw [verdict_of_none hnone, hending, if_neg (Nat.not_le_of_lt hshort), endedEarly, if_neg hne]
      rfl
  | failed hnone hending =>
    rcases hlength with ⟨_, hhead, _⟩ | herror | hshort
    · cases hhead
    · cases herror
      rw [verdict_of_none hnone, hending, endedEarly, ite_self]
      rfl
    · rw [verdict_of_none hnone, hending, if_neg (Nat.not_le_of_lt hshort)]
      rfl
  | waiting hnone hending =>
    rcases hlength with ⟨_, hhead, _⟩ | herror | hshort
    · cases hhead
    · cases herror
    · rw [verdict_of_none hnone, hending, if_neg (Nat.not_le_of_lt hshort)]
      rfl

section
variable {buf : List UInt8} (hnone : findHeadEnd buf = none) (hlength : buf.length < MAX_HEAD_BYTES)
include hnone hlength

theorem readHead_data {reader after : Incoming UInt8}
    (hread : Incoming.read 4096 reader = (.ok (b :: bs), after)) :
    readHead buf reader = readHead (buf ++ b :: bs) after := by
  rw [readHead, hnone]
  simp only [if_neg (Nat.not_le_of_lt hlength), hread]

theorem readHead_empty (segments : List (List UInt8)) (ending : Ending) :
    (readHead buf ⟨[] :: segments, ending⟩).1 = (readHead buf ⟨segments, ending⟩).1 := by
  rw [readHead, readHead, hnone]
  simp only [if_neg (Nat.not_le_of_lt hlength), Incoming.read, List.dropWhile_cons,
    List.isEmpty_nil,
    if_true]
  cases hdrop : segments.dropWhile List.isEmpty with
  | cons segment segments => rfl
  | nil =>
    cases ending with
    | eof =>
      dsimp only
      split
      · rfl
      · rfl
    | failed e => rfl
    | silent => rfl

end

/-- A segment that ends below the limit without a blank line goes into the buffer. -/
theorem readHead_segment (buf segment : List UInt8) (segments : List (List UInt8))
    (ending : Ending) (hnone : findHeadEnd (buf ++ segment) = none)
    (hlength : (buf ++ segment).length < MAX_HEAD_BYTES) :
    (readHead buf ⟨segment :: segments, ending⟩).1 =
      (readHead (buf ++ segment) ⟨segments, ending⟩).1 := by
  induction hsize : segment.length using Nat.strongRecOn generalizing buf segment with
  | ind size ih =>
    have hbuf : findHeadEnd buf = none := endOf_none_of_isPrefix hnone (List.prefix_append _ _)
    have hshort : buf.length < MAX_HEAD_BYTES := by
      rw [List.length_append] at hlength
      omega
    cases segment with
    | nil =>
      rw [readHead_empty hbuf hshort, List.append_nil]
    | cons b bs =>
      have hread : Incoming.read 4096 ⟨(b :: bs) :: segments, ending⟩ =
          (.ok (b :: bs.take 4095), ⟨bs.drop 4095 :: segments, ending⟩) := rfl
      have happend : buf ++ b :: bs.take 4095 ++ bs.drop 4095 = buf ++ b :: bs := by
        rw [List.append_assoc, List.cons_append, List.take_append_drop]
      rw [readHead_data hbuf hshort hread, ← happend]
      refine ih _ ?_ _ _ ?_ ?_ rfl
      · rw [← hsize, List.length_drop, List.length_cons]
        omega
      · rw [happend]
        exact hnone
      · rw [happend]
        exact hlength

/-- Cut right below the limit, a head that overshoots is read. -/
theorem readHead_overshoots {buf bytes : List UInt8} {ending : Ending}
    (h : Overshoots buf (buf ++ bytes)) :
    ∃ reader rest, Cuts reader bytes ending ∧ ∃ head, IsHead head ∧ MAX_HEAD_BYTES < head.length ∧
      (readHead buf reader).1 = .ok (some ⟨head, rest⟩) := by
  obtain ⟨e, hfound, hlong, hwithin, hbuf⟩ := h
  have hend : e ≤ (buf ++ bytes).length := endOf_bound hfound
  rw [List.length_append] at hend
  let first := bytes.take (MAX_HEAD_BYTES - 1 - buf.length)
  let rest := bytes.drop (MAX_HEAD_BYTES - 1 - buf.length)
  have hsplit : first ++ rest = bytes := List.take_append_drop _ _
  have hfirst : (buf ++ first).length = MAX_HEAD_BYTES - 1 := by
    rw [List.length_append, List.length_take_of_le (by omega)]
    omega
  have hshort : (buf ++ first).length < MAX_HEAD_BYTES := by omega
  have hnone : findHeadEnd (buf ++ first) = none := by
    cases hearly : findHeadEnd (buf ++ first) with
    | none => rfl
    | some e' =>
      have hsame := endOf_append hearly rest
      rw [List.append_assoc, hsplit] at hsame
      cases hfound.symm.trans hsame
      have hbound : e ≤ (buf ++ first).length := endOf_bound hearly
      omega
  have hrest : rest.length = bytes.length - (MAX_HEAD_BYTES - 1 - buf.length) := List.length_drop
  obtain ⟨b, bs, hcons⟩ :=
    List.exists_cons_of_ne_nil (List.ne_nil_of_length_pos (l := rest) (by omega))
  have hread : Incoming.read 4096 ⟨[rest], ending⟩ =
      (.ok (b :: bs.take 4095), ⟨[bs.drop 4095], ending⟩) := by
    rw [hcons]
    rfl
  have hcome : findHeadEnd (buf ++ first ++ b :: bs.take 4095) = some e := by
    apply endOf_of_isPrefix hfound
    have hpre : buf ++ first ++ b :: bs.take 4095 <+: buf ++ bytes := by
      rw [← hsplit, hcons, ← List.append_assoc]
      exact (List.prefix_append_right_inj _).mpr
        (List.cons_prefix_cons.mpr ⟨rfl, List.take_prefix _ _⟩)
    refine List.prefix_of_prefix_length_le (List.take_prefix _ _) hpre ?_
    rw [hcons, List.length_cons] at hrest
    rw [List.length_append, List.length_cons, hfirst]
    simp only [List.length_take]
    rw [List.length_append]
    omega
  refine ⟨⟨[first, rest], ending⟩, (buf ++ first ++ b :: bs.take 4095).drop e, ⟨?_, rfl⟩,
    (buf ++ first ++ b :: bs.take 4095).take e, endOf_take hcome, ?_, ?_⟩
  · rw [Incoming.bytes, List.flatten_cons, List.flatten_cons, List.flatten_nil, List.append_nil,
      hsplit]
  · rw [List.length_take_of_le (endOf_bound hcome)]
    exact hlong
  · rw [readHead_segment buf first [rest] ending hnone hshort, readHead_data hnone hshort hread,
      readHead, hcome]

theorem not_boundedRead {buf bytes : List UInt8} {ending : Ending}
    (h : Overshoots buf (buf ++ bytes)) : ¬BoundedRead buf bytes ending := by
  intro hbounded
  obtain ⟨reader, rest, hcuts, head, hhead, hlong, hread⟩ := readHead_overshoots h
  have hbound := hbounded.head reader ⟨head, rest⟩ _ hcuts (Prod.ext hread rfl)
  exact Nat.not_le_of_lt hlong hbound.2.1

/-- A stream is read the same in every cutting, its head within the limit, unless the head is one
that the last read before the limit can take whole. -/
theorem readHead_bounded_iff {buf bytes : List UInt8} {ending : Ending}
    (hbuf : buf.length ≤ MAX_HEAD_BYTES) :
    BoundedRead buf bytes ending ↔ ¬Overshoots buf (buf ++ bytes) := by
  constructor
  · exact fun h hover => not_boundedRead hover h
  · intro h
    have houtcome : ∀ reader, Cuts reader bytes ending →
        headOutcome buf reader = verdict (buf ++ bytes) ending := by
      rintro reader ⟨rfl, rfl⟩
      exact headOutcome_eq hbuf h
    have hrefused : ∀ head tail reader, buf ++ bytes = head ++ tail → IsHead head →
        MAX_HEAD_BYTES < head.length → Cuts reader bytes ending →
          headOutcome buf reader = .error (.failed headTooLarge) := by
      intro head tail reader hstream hhead hlong hcuts
      have hfound := findHeadEnd_of_isHead hhead tail
      rw [← hstream] at hfound
      rw [houtcome reader hcuts, verdict_of_head hfound, if_neg (Nat.not_le_of_lt hlong)]
    refine ⟨?_, ?_, hrefused⟩
    · intro reader reader' hcuts hcuts'
      rw [houtcome reader hcuts, houtcome reader' hcuts']
    · intro reader head after hcuts hread
      obtain ⟨hsplit, hhead⟩ := readHead_split hread
      rw [hcuts.1] at hsplit
      refine ⟨hhead, Nat.le_of_not_lt fun hlong => ?_, hsplit⟩
      have herror := hrefused head.head _ reader hsplit hhead hlong hcuts
      rw [headOutcome, hread] at herror
      cases herror

theorem readHead_bounded_short : BoundedRead [] (71 :: (crlf ++ crlf)) .eof := by
  refine (readHead_bounded_iff (by decide)).mpr ?_
  rintro ⟨e, hfound, hlong, _⟩
  have hend : findHeadEnd (71 :: (crlf ++ crlf)) = some 5 := by decide
  cases hend.symm.trans hfound
  exact absurd hlong (by decide)

theorem isHead_line {line : List UInt8} (h : 13 ∉ line) : IsHead (line ++ (crlf ++ crlf)) := by
  have hfirst : memmem (crlf ++ crlf) (line ++ (crlf ++ crlf)) = some line.length := by
    refine memmem_eq_some_iff.mpr ⟨by simp, by simp only [List.drop_left, List.prefix_rfl], ?_⟩
    intro j hj hpre
    rw [List.drop_append_of_le_length (Nat.le_of_lt hj), List.drop_eq_getElem_cons hj] at hpre
    obtain ⟨heq, _⟩ := List.cons_prefix_cons.mp hpre
    exact h (heq ▸ List.getElem_mem hj)
  rw [IsHead, findHeadEnd, endOf, hfirst, Option.map_some]
  simp only [List.length_append]

/-- A head of one byte over the limit is read in some cutting. -/
theorem long_head_read :
    let head := List.replicate 32765 97 ++ (crlf ++ crlf)
    IsHead head ∧ head.length = MAX_HEAD_BYTES + 1 ∧ ¬BoundedRead [] head .eof := by
  intro head
  have hhead : IsHead head := isHead_line fun h => absurd (List.eq_of_mem_replicate h) (by decide)
  have hlength : head.length = MAX_HEAD_BYTES + 1 := by
    rw [List.length_append, List.length_replicate]
    rfl
  refine ⟨hhead, hlength, not_boundedRead ⟨head.length, hhead, ?_, ?_, by decide⟩⟩
  · rw [hlength]
    exact Nat.lt_succ_self _
  · rw [hlength]
    exact Nat.add_lt_add_left (by decide) _

end BrowserServe
