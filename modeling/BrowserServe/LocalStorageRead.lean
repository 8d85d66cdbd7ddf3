import BrowserServe.LocalStorage
import BrowserServe.Library.Text
import Mathlib.Data.Finset.Basic
import Mathlib.Data.List.Forall2
import Mathlib.Data.List.Sort
import Mathlib.Data.String.Basic

namespace BrowserServe
open Library
set_option autoImplicit true

/-- A text as the browser writes it in Latin-1, when all of its characters fit. -/
def latin1 (s : String) : List UInt8 := 1 :: s.toList.map fun c => UInt8.ofNat c.toNat

def utf16EncodeChar (c : Char) : List Nat :=
  if c.toNat < 0x10000 then [c.toNat]
  else [0xD800 + (c.toNat - 0x10000) / 0x400, 0xDC00 + (c.toNat - 0x10000) % 0x400]

def littleEndian (unit : Nat) : List UInt8 := [.ofNat (unit % 256), .ofNat (unit / 256)]

/-- A text as the browser writes it in UTF-16LE. -/
def utf16Le (s : String) : List UInt8 :=
  0 :: (s.toList.flatMap utf16EncodeChar).flatMap littleEndian

/-- The two ways in which the browser stores a text. -/
inductive Encodes (s : String) : List UInt8 → Prop
  | latin1 (h : ∀ c ∈ s.toList, c.toNat < 256) : Encodes s (latin1 s)
  | utf16 : Encodes s (utf16Le s)

theorem utf16EncodeChar_lt {c : Char} : ∀ unit ∈ utf16EncodeChar c, unit < 2 ^ 16 := by
  intro unit hunit
  have hvalid := c.valid
  have hlt : c.toNat < 0x110000 := by
    cases hvalid with
    | inl h => exact Nat.lt_trans h (by decide)
    | inr h => exact h.2
  unfold utf16EncodeChar at hunit
  split at hunit
  · rw [List.mem_singleton.1 hunit]
    assumption
  · simp only [List.mem_cons, List.not_mem_nil, or_false] at hunit
    omega

theorem utf16Units_littleEndian (units : List Nat) (h : ∀ unit ∈ units, unit < 2 ^ 16) :
    utf16Units (units.flatMap littleEndian) = units := by
  induction units with
  | nil => rfl
  | cons unit units ih =>
    have hunit := h unit List.mem_cons_self
    have htail := ih fun other hother => h other (List.mem_cons_of_mem _ hother)
    rw [List.flatMap_cons, littleEndian]
    simp only [List.cons_append, List.nil_append, utf16Units, htail, UInt8.toNat_ofNat']
    congr 1
    omega

theorem length_littleEndian (units : List Nat) :
    (units.flatMap littleEndian).length % 2 = 0 := by
  induction units with
  | nil => rfl
  | cons unit units ih =>
    rw [List.flatMap_cons, List.length_append]
    simp only [littleEndian, List.length_cons, List.length_nil]
    omega

theorem fromUtf16_char (c : Char) (units : List Nat) :
    fromUtf16 (utf16EncodeChar c ++ units) = (fromUtf16 units).map (c :: ·) := by
  unfold utf16EncodeChar
  split
  · rename_i hlow
    have hplain : c.toNat < 0xD800 ∨ 0xE000 ≤ c.toNat := by
      cases c.valid with
      | inl h => exact .inl h
      | inr h => exact .inr h.1
    rw [List.singleton_append, fromUtf16.eq_def]
    simp only [if_pos hplain, Char.ofNat_toNat]
  · rename_i hhigh
    have hlt : c.toNat < 0x110000 := by
      cases c.valid with
      | inl h => exact Nat.lt_trans h (by decide)
      | inr h => exact h.2
    have hfirst : ¬ (0xD800 + (c.toNat - 0x10000) / 0x400 < 0xD800 ∨
        0xE000 ≤ 0xD800 + (c.toNat - 0x10000) / 0x400) := by omega
    have hpair : 0xD800 + (c.toNat - 0x10000) / 0x400 < 0xDC00 ∧
        0xDC00 ≤ 0xDC00 + (c.toNat - 0x10000) % 0x400 ∧
        0xDC00 + (c.toNat - 0x10000) % 0x400 < 0xE000 := by omega
    have hvalue : 0x10000 + (0xD800 + (c.toNat - 0x10000) / 0x400 - 0xD800) * 0x400 +
        (0xDC00 + (c.toNat - 0x10000) % 0x400 - 0xDC00) = c.toNat := by omega
    rw [List.cons_append, List.singleton_append, fromUtf16.eq_def]
    simp only [if_neg hfirst, if_pos hpair, hvalue, Char.ofNat_toNat]

theorem fromUtf16_encode (t : List Char) : fromUtf16 (t.flatMap utf16EncodeChar) = some t := by
  induction t with
  | nil => rfl
  | cons c t ih =>
    rw [List.flatMap_cons, fromUtf16_char, ih]
    rfl

/-- Whichever way a text was stored, it is read back. -/
theorem Encodes.decodeString {s : String} (h : Encodes s bytes) :
    decodeString bytes = some s := by
  cases h with
  | latin1 hfits =>
    have hchars : (s.toList.map fun c => UInt8.ofNat c.toNat).map (fun b => Char.ofNat b.toNat) =
        s.toList := by
      rw [List.map_map]
      apply (List.map_congr_left _).trans (List.map_id _)
      intro c hc
      have hlt := hfits c hc
      simp [Nat.mod_eq_of_lt hlt]
    simp only [BrowserServe.decodeString, BrowserServe.latin1, hchars]
    simp
  | utf16 =>
    have hlength := length_littleEndian (s.toList.flatMap utf16EncodeChar)
    have hunits : utf16Units ((s.toList.flatMap utf16EncodeChar).flatMap littleEndian) =
        s.toList.flatMap utf16EncodeChar := by
      apply utf16Units_littleEndian
      intro unit hunit
      obtain ⟨c, _, hc⟩ := List.mem_flatMap.1 hunit
      exact utf16EncodeChar_lt unit hc
    simp only [BrowserServe.decodeString, utf16Le, if_true, if_pos hlength, hunits,
      fromUtf16_encode, Option.map_some, String.ofList_toList]

theorem utf8_asBytes (s : String) : utf8 (asBytes s.toList) = some s := by
  have harray : (⟨(asBytes s.toList).toArray⟩ : ByteArray) = s.toByteArray := by
    rw [← String.utf8Encode_toList, List.utf8Encode]
    apply ByteArray.ext
    apply Array.toList_inj.1
    rw [List.toList_data_toByteArray]
    rfl
  unfold utf8
  rw [harray, String.fromUTF8?, dif_pos s.isValidUTF8]
  rfl

/-- Only the NUL character has a NUL byte in it. -/
theorem zero_mem_utf8EncodeChar {c : Char} (h : 0 ∈ String.utf8EncodeChar c) : c = '\x00' := by
  have hbyte : ∀ n, UInt8.ofNat n = 0 → n % 256 = 0 := by
    intro n hn
    simpa using congrArg UInt8.toNat hn
  have hnat : c.val.toNat = 0 := by
    unfold String.utf8EncodeChar at h
    simp only at h
    split at h
    · simp only [List.mem_singleton] at h
      have hmod := hbyte _ h.symm
      omega
    · split at h
      · simp only [List.mem_cons, List.not_mem_nil, or_false] at h
        have hmod := h.imp (fun e => hbyte _ e.symm) fun e => hbyte _ e.symm
        omega
      · split at h
        · simp only [List.mem_cons, List.not_mem_nil, or_false] at h
          have hmod := h.imp (fun e => hbyte _ e.symm) fun e =>
            e.imp (fun e => hbyte _ e.symm) fun e => hbyte _ e.symm
          omega
        · simp only [List.mem_cons, List.not_mem_nil, or_false] at h
          have hmod := h.imp (fun e => hbyte _ e.symm) fun e =>
            e.imp (fun e => hbyte _ e.symm) fun e =>
              e.imp (fun e => hbyte _ e.symm) fun e => hbyte _ e.symm
          omega
  exact Char.toNat_inj.1 hnat

theorem zero_not_mem_asBytes {t : Text} (h : '\x00' ∉ t) : 0 ∉ asBytes t := by
  intro hzero
  obtain ⟨c, hc, hbyte⟩ := List.mem_flatMap.1 hzero
  exact h (zero_mem_utf8EncodeChar hbyte ▸ hc)

/-- An origin that a page itself has, without a site it is partitioned under. -/
structure FirstParty (origin : String) : Prop where
  unpartitioned : '^' ∉ origin.toList
  noNul : '\x00' ∉ origin.toList

/-- A record of the LevelDB store, with the pair it holds. -/
inductive LevelDbRecord : Option (String × StorageEntry) → List UInt8 × List UInt8 → Prop
  | version (value : List UInt8) : LevelDbRecord none (asBytes (text "VERSION"), value)
  | metadata (rest value : List UInt8) :
      LevelDbRecord none (asBytes (text "META:") ++ rest, value)
  | partitioned {storageKey : String} (hkey : '^' ∈ storageKey.toList)
      (hnul : '\x00' ∉ storageKey.toList) (rest value : List UInt8) :
      LevelDbRecord none (95 :: (asBytes storageKey.toList ++ 0 :: rest), value)
  | data {origin : String} (horigin : FirstParty origin) (hname : Encodes name key)
      (hvalue : Encodes value raw) :
      LevelDbRecord (some (origin, ⟨name, value⟩)) (95 :: (asBytes origin.toList ++ 0 :: key), raw)

/-- What a compression type makes of a value, given decompressors that undo it. -/
inductive Compressed (codecs : Codecs) (raw : List UInt8) : Int → List UInt8 → Prop
  | plain : Compressed codecs raw 0 raw
  | zstd (h : codecs.zstd value = some raw) : Compressed codecs raw 1 value
  | snappy (h : codecs.snappy value = some raw) : Compressed codecs raw 2 value

/-- A row of the SQLite store, with the pair it holds. -/
inductive SqliteRecord (codecs : Codecs) : Option (String × StorageEntry) → SqliteRow → Prop
  | partitioned {storageKey : String} (hkey : '^' ∈ storageKey.toList) (key : List UInt8)
      (compression : Int) (value : List UInt8) :
      SqliteRecord codecs none ⟨asBytes storageKey.toList, key, compression, value⟩
  | data {origin : String} (horigin : FirstParty origin) (hname : Encodes name key)
      (hvalue : Encodes value raw) (hcompressed : Compressed codecs raw compression bytes) :
      SqliteRecord codecs (some (origin, ⟨name, value⟩))
        ⟨asBytes (origin.toList ++ ['/']), key, compression, bytes⟩

/-- What a record of the browser's adds. -/
def pushStored (stored : Option (String × StorageEntry)) (byOrigin : List OriginState) :
    List OriginState :=
  match stored with
  | none => byOrigin
  | some (origin, entry) => pushEntry origin entry byOrigin

theorem decompress_compressed (h : Compressed codecs raw compression bytes) :
    decompress codecs compression bytes = some raw := by
  cases h with
  | plain => rfl
  | zstd h => exact h
  | snappy h => exact h

/-- The text before the first NUL byte, and what comes after it. -/
theorem cut_at_zero {front : List UInt8} (back : List UInt8) (h : 0 ∉ front) :
    (front ++ 0 :: back).takeWhile (· ≠ 0) = front ∧
      ((front ++ 0 :: back).dropWhile (· ≠ 0)).drop 1 = back := by
  induction front with
  | nil => exact ⟨rfl, rfl⟩
  | cons b front ih =>
    have hb : b ≠ 0 := fun hb => h (hb ▸ List.mem_cons_self)
    obtain ⟨htake, hdrop⟩ := ih fun hmem => h (List.mem_cons_of_mem _ hmem)
    constructor
    · rw [List.cons_append, List.takeWhile_cons_of_pos (by simpa using hb), htake]
    · rw [List.cons_append, List.dropWhile_cons_of_pos (by simpa using hb), hdrop]

theorem parseDataKey_eq {origin : String} (hnul : '\x00' ∉ origin.toList) (key : List UInt8) :
    parseDataKey (95 :: (asBytes origin.toList ++ 0 :: key)) =
      if '^' ∈ origin.toList then none
      else (decodeString key).map fun name => (origin, name) := by
  obtain ⟨htake, hdrop⟩ := cut_at_zero key (zero_not_mem_asBytes hnul)
  have hzero : 0 ∈ asBytes origin.toList ++ 0 :: key := by simp
  simp only [parseDataKey, if_pos hzero, htake, hdrop, utf8_asBytes, Option.bind_some]

theorem pushRecord_eq {record : List UInt8 × List UInt8} (h : LevelDbRecord stored record)
    (byOrigin : List OriginState) :
    pushRecord (some record) byOrigin = pushStored stored byOrigin := by
  cases h with
  | version value => rfl
  | metadata rest value => rfl
  | partitioned hkey hnul rest value =>
    simp only [pushRecord, parseDataKey_eq hnul, if_pos hkey, pushStored]
  | data horigin hname hvalue =>
    simp only [pushRecord, parseDataKey_eq horigin.noNul, if_neg horigin.unpartitioned,
      hname.decodeString, hvalue.decodeString, Option.map_some, pushStored]

theorem originFromStorageKey_partitioned {storageKey : String}
    (h : '^' ∈ storageKey.toList) :
    originFromStorageKey (asBytes storageKey.toList) = none := by
  simp only [originFromStorageKey, utf8_asBytes, Option.bind_some, if_pos h]

theorem originFromStorageKey_slash {origin : String} (h : FirstParty origin) :
    originFromStorageKey (asBytes (origin.toList ++ ['/'])) = some origin := by
  have hkey : utf8 (asBytes (origin.toList ++ ['/'])) =
      some (String.ofList (origin.toList ++ ['/'])) := by
    have hread := utf8_asBytes (String.ofList (origin.toList ++ ['/']))
    rwa [String.toList_ofList] at hread
  have hplain : '^' ∉ origin.toList ++ ['/'] := by simpa using h.unpartitioned
  simp only [originFromStorageKey, hkey, Option.bind_some, String.toList_ofList, if_neg hplain]
  simp

theorem SqliteRow.push_eq {row : SqliteRow} (h : SqliteRecord codecs stored row)
    (byOrigin : List OriginState) :
    row.push codecs byOrigin = pushStored stored byOrigin := by
  cases h with
  | partitioned hkey key compression value =>
    simp only [SqliteRow.push, originFromStorageKey_partitioned hkey, pushStored]
  | data horigin hname hvalue hcompressed =>
    simp only [SqliteRow.push, originFromStorageKey_slash horigin,
      decompress_compressed hcompressed, hname.decodeString, hvalue.decodeString, pushStored]

/-- The entries of an origin, of which there may be none. -/
def entriesOf (origins : List OriginState) (origin : String) : List StorageEntry :=
  ((origins.find? (·.origin = origin)).map OriginState.localStorage).getD []

/-- Each origin once and in order, with at least one entry. -/
structure Grouped (origins : List OriginState) : Prop where
  sorted : origins.Pairwise fun a b => a.origin < b.origin
  nonempty : ∀ state ∈ origins, state.localStorage ≠ []

theorem entriesOf_cons (state : OriginState) (rest : List OriginState) (origin : String) :
    entriesOf (state :: rest) origin =
      if state.origin = origin then state.localStorage else entriesOf rest origin := by
  unfold entriesOf
  by_cases h : state.origin = origin
  · simp [h]
  · simp [h]

theorem entriesOf_eq_nil {origins : List OriginState} {origin : String}
    (h : ∀ state ∈ origins, state.origin ≠ origin) : entriesOf origins origin = [] := by
  induction origins with
  | nil => rfl
  | cons state rest ih =>
    rw [entriesOf_cons, if_neg (h state List.mem_cons_self)]
    exact ih fun other hother => h other (List.mem_cons_of_mem _ hother)

theorem pushEntry_origins {origin : String} {entry : StorageEntry} {origins : List OriginState} :
    ∀ state ∈ pushEntry origin entry origins,
      state.origin = origin ∨ ∃ old ∈ origins, old.origin = state.origin := by
  induction origins with
  | nil =>
    intro state hstate
    rw [List.mem_singleton.1 hstate]
    exact .inl rfl
  | cons first rest ih =>
    intro state hstate
    unfold pushEntry at hstate
    split at hstate
    · cases List.mem_cons.1 hstate with
      | inl hself =>
        rw [hself]
        exact .inr ⟨first, List.mem_cons_self, rfl⟩
      | inr hrest => exact .inr ⟨state, List.mem_cons_of_mem _ hrest, rfl⟩
    · split at hstate
      · cases List.mem_cons.1 hstate with
        | inl hself =>
          rw [hself]
          exact .inl rfl
        | inr hold => exact .inr ⟨state, hold, rfl⟩
      · cases List.mem_cons.1 hstate with
        | inl hself =>
          rw [hself]
          exact .inr ⟨first, List.mem_cons_self, rfl⟩
        | inr hrest =>
          obtain hnew | ⟨old, hold, heq⟩ := ih state hrest
          · exact .inl hnew
          · exact .inr ⟨old, List.mem_cons_of_mem _ hold, heq⟩

theorem Grouped.push {origins : List OriginState} (h : Grouped origins) (origin : String)
    (entry : StorageEntry) :
    Grouped (pushEntry origin entry origins) ∧
      ∀ other, entriesOf (pushEntry origin entry origins) other =
        if origin = other then entriesOf origins other ++ [entry] else entriesOf origins other := by
  induction origins with
  | nil =>
    refine ⟨⟨List.pairwise_singleton _ _, ?_⟩, ?_⟩
    · intro state hstate
      rw [List.mem_singleton.1 hstate]
      nofun
    · intro other
      rw [pushEntry, entriesOf_cons]
      rfl
  | cons state rest ih =>
    obtain ⟨hhead, hsorted⟩ := List.pairwise_cons.1 h.sorted
    have hrest : Grouped rest :=
      ⟨hsorted, fun old hold => h.nonempty old (List.mem_cons_of_mem _ hold)⟩
    unfold pushEntry
    split
    · rename_i hself
      refine ⟨⟨List.pairwise_cons.2 ⟨hhead, hsorted⟩, ?_⟩, ?_⟩
      · intro old hold
        cases List.mem_cons.1 hold with
        | inl heq =>
          rw [heq]
          simp
        | inr hmem => exact hrest.nonempty old hmem
      · intro other
        rw [entriesOf_cons, entriesOf_cons, hself]
        by_cases hother : state.origin = other
        · rw [if_pos hother, if_pos hother, if_pos hother]
        · rw [if_neg hother, if_neg hother, if_neg hother]
    · rename_i hne
      split
      · rename_i hlt
        have hall : ∀ old ∈ state :: rest, origin < old.origin := by
          intro old hold
          cases List.mem_cons.1 hold with
          | inl heq => exact heq ▸ hlt
          | inr hmem => exact hlt.trans (hhead old hmem)
        refine ⟨⟨List.pairwise_cons.2 ⟨hall, h.sorted⟩, ?_⟩, ?_⟩
        · intro old hold
          cases List.mem_cons.1 hold with
          | inl heq =>
            rw [heq]
            nofun
          | inr hmem => exact h.nonempty old hmem
        · intro other
          rw [entriesOf_cons]
          by_cases hother : origin = other
          · have hnone : entriesOf (state :: rest) other = [] := by
              apply entriesOf_eq_nil
              intro old hold heq
              have hlt := hall old hold
              rw [heq, hother] at hlt
              exact lt_irrefl _ hlt
            rw [if_pos hother, if_pos hother, hnone]
            rfl
          · rw [if_neg hother, if_neg hother]
      · rename_i hnlt
        obtain ⟨hgrouped, hentries⟩ := ih hrest
        have hlt : state.origin < origin := lt_of_le_of_ne (not_lt.1 hnlt) (Ne.symm hne)
        refine ⟨⟨List.pairwise_cons.2 ⟨?_, hgrouped.sorted⟩, ?_⟩, ?_⟩
        · intro old hold
          obtain heq | ⟨former, hformer, heq⟩ := pushEntry_origins old hold
          · rw [heq]
            exact hlt
          · rw [← heq]
            exact hhead former hformer
        · intro old hold
          cases List.mem_cons.1 hold with
          | inl heq =>
            rw [heq]
            exact h.nonempty state List.mem_cons_self
          | inr hmem => exact hgrouped.nonempty old hmem
        · intro other
          rw [entriesOf_cons, entriesOf_cons, hentries]
          by_cases hstate : state.origin = other
          · rw [if_pos hstate, if_pos hstate, if_neg]
            rw [← hstate]
            exact hne
          · rw [if_neg hstate, if_neg hstate]

/-- The stored pairs of an origin, in the order they are met in. -/
def storedOf (stored : List (Option (String × StorageEntry))) (origin : String) :
    List StorageEntry :=
  stored.filterMap fun record =>
    record.bind fun pair => if pair.1 = origin then some pair.2 else none

theorem pushStored_foldl {origins : List OriginState} (h : Grouped origins)
    (stored : List (Option (String × StorageEntry))) :
    Grouped (stored.foldl (fun byOrigin record => pushStored record byOrigin) origins) ∧
      ∀ origin, entriesOf (stored.foldl (fun byOrigin record => pushStored record byOrigin) origins)
        origin = entriesOf origins origin ++ storedOf stored origin := by
  induction stored generalizing origins with
  | nil => exact ⟨h, fun origin => by simp [storedOf]⟩
  | cons record stored ih =>
    cases record with
    | none =>
      obtain ⟨hgrouped, hentries⟩ := ih h
      refine ⟨hgrouped, ?_⟩
      intro origin
      rw [List.foldl_cons, pushStored, hentries]
      simp [storedOf]
    | some pair =>
      obtain ⟨hpushed, hpush⟩ := h.push pair.1 pair.2
      obtain ⟨hgrouped, hentries⟩ := ih hpushed
      refine ⟨hgrouped, ?_⟩
      intro origin
      rw [List.foldl_cons]
      show entriesOf (stored.foldl _ (pushEntry pair.1 pair.2 origins)) origin = _
      rw [hentries, hpush]
      by_cases horigin : pair.1 = origin
      · simp [storedOf, horigin]
      · simp [storedOf, horigin]

/-- A store whose records are the stored pairs, each in one of its records, and any others. -/
structure Stored (Record : Option (String × StorageEntry) → α → Prop)
    (pairs : Finset (String × StorageEntry)) (records : List α) : Prop where
  intro ::
  held : ∃ stored, List.Forall₂ Record stored records ∧ (stored.filterMap id).Nodup ∧
    ∀ pair, pair ∈ stored.filterMap id ↔ pair ∈ pairs

/-- What was read of a store: every origin's pairs, each of them once, and nothing else. -/
structure Recovers (pairs : Finset (String × StorageEntry)) (origins : List OriginState) :
    Prop where
  grouped : Grouped origins
  once : ∀ origin, (entriesOf origins origin).Nodup
  mem_iff : ∀ origin entry, entry ∈ entriesOf origins origin ↔ (origin, entry) ∈ pairs

theorem mem_storedOf {stored : List (Option (String × StorageEntry))} {origin : String}
    {entry : StorageEntry} :
    entry ∈ storedOf stored origin ↔ (origin, entry) ∈ stored.filterMap id := by
  simp only [storedOf, List.mem_filterMap, id]
  constructor
  · rintro ⟨record, hrecord, hsome⟩
    obtain ⟨pair, rfl, hpair⟩ := Option.bind_eq_some_iff.1 hsome
    split at hpair
    · rename_i horigin
      cases hpair
      cases horigin
      exact ⟨some pair, hrecord, rfl⟩
    · cases hpair
  · rintro ⟨record, hrecord, rfl⟩
    exact ⟨some (origin, entry), hrecord, by simp⟩

theorem storedOf_nodup {stored : List (Option (String × StorageEntry))} (origin : String)
    (h : (stored.filterMap id).Nodup) : (storedOf stored origin).Nodup := by
  induction stored with
  | nil => exact List.nodup_nil
  | cons record stored ih =>
    cases record with
    | none => exact ih h
    | some pair =>
      obtain ⟨hfresh, hrest⟩ := List.nodup_cons.1 h
      by_cases horigin : pair.1 = origin
      · have hcons : storedOf (some pair :: stored) origin = pair.2 :: storedOf stored origin := by
          simp [storedOf, horigin]
        rw [hcons, List.nodup_cons]
        refine ⟨?_, ih hrest⟩
        intro hmem
        apply hfresh
        rw [← horigin] at hmem
        exact mem_storedOf.1 hmem
      · have hcons : storedOf (some pair :: stored) origin = storedOf stored origin := by
          simp [storedOf, horigin]
        rw [hcons]
        exact ih hrest

/-- Grouping the pairs of a store by origin recovers them. -/
theorem recovers_foldl {stored : List (Option (String × StorageEntry))}
    (hnodup : (stored.filterMap id).Nodup)
    (hpairs : ∀ pair, pair ∈ stored.filterMap id ↔ pair ∈ pairs) :
    Recovers pairs (stored.foldl (fun byOrigin record => pushStored record byOrigin) []) := by
  obtain ⟨hgrouped, hentries⟩ :=
    pushStored_foldl ⟨List.Pairwise.nil, fun _ h => absurd h List.not_mem_nil⟩ stored
  have hstored : ∀ origin, entriesOf
      (stored.foldl (fun byOrigin record => pushStored record byOrigin) []) origin =
        storedOf stored origin := hentries
  refine ⟨hgrouped, ?_, ?_⟩
  · intro origin
    rw [hstored]
    exact storedOf_nodup origin hnodup
  · intro origin entry
    rw [hstored, mem_storedOf]
    exact hpairs (origin, entry)

theorem foldl_pushRecord {records : List (List UInt8 × List UInt8)}
    (h : List.Forall₂ LevelDbRecord stored records) (origins : List OriginState) :
    (records.map some).foldl (fun byOrigin record => pushRecord record byOrigin) origins =
      stored.foldl (fun byOrigin record => pushStored record byOrigin) origins := by
  induction h generalizing origins with
  | nil => rfl
  | cons hrecord _ ih =>
    rw [List.map_cons, List.foldl_cons, List.foldl_cons, pushRecord_eq hrecord]
    exact ih _

theorem foldlM_push {rows : List SqliteRow} (h : List.Forall₂ (SqliteRecord codecs) stored rows)
    (origins : List OriginState) :
    (rows.map Except.ok).foldlM
        (fun byOrigin (row : Except String SqliteRow) => row.map fun row =>
          row.push codecs byOrigin)
        origins =
      .ok (stored.foldl (fun byOrigin record => pushStored record byOrigin) origins) := by
  induction h generalizing origins with
  | nil => rfl
  | cons hrow _ ih =>
    rw [List.map_cons, List.foldlM_cons, Except.map, SqliteRow.push_eq hrow, List.foldl_cons]
    exact ih _

theorem readLocalStorage_recovers {records : List (List UInt8 × List UInt8)}
    (h : Stored LevelDbRecord pairs records) :
    Recovers pairs (readLocalStorage (some (.ok (records.map some)))) := by
  obtain ⟨stored, hrecords, hnodup, hpairs⟩ := h.held
  rw [readLocalStorage, foldl_pushRecord hrecords]
  exact recovers_foldl hnodup hpairs

theorem readSqlite_recovers {rows : List SqliteRow} (h : Stored (SqliteRecord codecs) pairs rows) :
    ∃ origins, readSqlite codecs (.ok (rows.map .ok)) = .ok origins ∧ Recovers pairs origins := by
  obtain ⟨stored, hrows, hnodup, hpairs⟩ := h.held
  exact ⟨_, foldlM_push hrows [], recovers_foldl hnodup hpairs⟩

theorem mem_origins {origins : List OriginState} (h : Grouped origins) {origin : String} :
    origin ∈ origins.map OriginState.origin ↔ entriesOf origins origin ≠ [] := by
  constructor
  · intro hmem hnone
    obtain ⟨state, hstate, rfl⟩ := List.mem_map.1 hmem
    unfold entriesOf at hnone
    cases hfind : origins.find? (·.origin = state.origin) with
    | none => simpa using List.find?_eq_none.1 hfind state hstate
    | some found =>
      rw [hfind] at hnone
      exact h.nonempty found (List.mem_of_find?_eq_some hfind) hnone
  · intro hsome
    by_contra hmem
    apply hsome
    apply entriesOf_eq_nil
    intro state hstate heq
    exact hmem (List.mem_map.2 ⟨state, hstate, heq⟩)

/-- Two readings of the same pairs name the same origins, with the same entries. -/
theorem Recovers.agree (ha : Recovers pairs a) (hb : Recovers pairs b) :
    a.map OriginState.origin = b.map OriginState.origin ∧
      ∀ origin, (entriesOf a origin).Perm (entriesOf b origin) := by
  have hmem : ∀ origin entry, entry ∈ entriesOf a origin ↔ entry ∈ entriesOf b origin := by
    intro origin entry
    rw [ha.mem_iff, hb.mem_iff]
  constructor
  · have hsorted : ∀ {origins : List OriginState}, Grouped origins →
        (origins.map OriginState.origin).Pairwise (· < ·) := by
      intro origins h
      exact List.pairwise_map.2 h.sorted
    apply List.Pairwise.eq_of_mem_iff (hsorted ha.grouped) (hsorted hb.grouped)
    intro origin
    rw [mem_origins ha.grouped, mem_origins hb.grouped]
    simp only [ne_eq, List.eq_nil_iff_forall_not_mem, hmem]
  · intro origin
    rw [List.perm_ext_iff_of_nodup (ha.once origin) (hb.once origin)]
    exact hmem origin

/-- Either reader recovers exactly the pairs the browser stored, so that the two agree. -/
theorem localStorage_readers_recover {records : List (List UInt8 × List UInt8)}
    {rows : List SqliteRow} {pairs : Finset (String × StorageEntry)}
    (hrecords : Stored LevelDbRecord pairs records)
    (hrows : Stored (SqliteRecord codecs) pairs rows) :
    ∃ origins, readSqlite codecs (.ok (rows.map .ok)) = .ok origins ∧
      Recovers pairs origins ∧
      Recovers pairs (readLocalStorage (some (.ok (records.map some)))) ∧
      origins.map OriginState.origin =
        (readLocalStorage (some (.ok (records.map some)))).map OriginState.origin ∧
      ∀ origin, (entriesOf origins origin).Perm
        (entriesOf (readLocalStorage (some (.ok (records.map some)))) origin) := by
  obtain ⟨origins, hread, hsqlite⟩ := readSqlite_recovers hrows
  have hleveldb := readLocalStorage_recovers hrecords
  obtain ⟨hnames, hentries⟩ := hsqlite.agree hleveldb
  exact ⟨origins, hread, hsqlite, hleveldb, hnames, hentries⟩

/-- A decompressor that knows one block, which holds the text `v` in Latin-1. -/
def oneBlock : Codecs where
  zstd _ := none
  snappy value := if value = [2, 4, 1, 118] then some [1, 118] else none

def twoPairs : Finset (String × StorageEntry) :=
  {("https://a.com", ⟨"k", "v"⟩), ("https://a.com", ⟨"", "\x00€"⟩)}

def twoPairRows : List SqliteRow :=
  [⟨asBytes (text "https://a.com/"), latin1 "k", 2, [2, 4, 1, 118]⟩,
    ⟨asBytes (text "https://a.com/^0https://b.com"), latin1 "p", 0, latin1 "q"⟩,
    ⟨asBytes (text "https://a.com/"), utf16Le "", 0, utf16Le "\x00€"⟩]

def twoPairRecords : List (List UInt8 × List UInt8) :=
  [(asBytes (text "META:") ++ [104], [8]), (asBytes (text "VERSION"), [49]),
    (95 :: (asBytes (text "https://a.com/^0https://b.com") ++ 0 :: latin1 "p"), latin1 "q"),
    (95 :: (asBytes (text "https://a.com") ++ 0 :: latin1 ""), utf16Le "\x00€"),
    (95 :: (asBytes (text "https://a.com") ++ 0 :: utf16Le "k"), latin1 "v")]

theorem twoPairRows_stored : Stored (SqliteRecord oneBlock) twoPairs twoPairRows := by
  have hplain : FirstParty "https://a.com" := ⟨by decide, by decide⟩
  have hsnappy : Compressed oneBlock (latin1 "v") 2 [2, 4, 1, 118] := .snappy (by decide)
  have hname : Encodes "k" (latin1 "k") := .latin1 (by simp)
  have hvalue : Encodes "v" (latin1 "v") := .latin1 (by simp)
  have hkey : '^' ∈ "https://a.com/^0https://b.com".toList := by decide
  refine ⟨[some ("https://a.com", ⟨"k", "v"⟩), none, some ("https://a.com", ⟨"", "\x00€"⟩)],
    ?_, by decide, by simp [twoPairs]⟩
  apply List.Forall₂.cons (.data hplain hname hvalue hsnappy)
  apply List.Forall₂.cons (.partitioned hkey (latin1 "p") 0 (latin1 "q"))
  exact .cons (.data hplain .utf16 .utf16 .plain) .nil

theorem twoPairRecords_stored : Stored LevelDbRecord twoPairs twoPairRecords := by
  have hplain : FirstParty "https://a.com" := ⟨by decide, by decide⟩
  have hname : Encodes "" (latin1 "") := .latin1 (by simp)
  have hvalue : Encodes "v" (latin1 "v") := .latin1 (by simp)
  have hkey : '^' ∈ "https://a.com/^0https://b.com".toList := by decide
  have hnul : '\x00' ∉ "https://a.com/^0https://b.com".toList := by decide
  refine ⟨[none, none, none, some ("https://a.com", ⟨"", "\x00€"⟩),
    some ("https://a.com", ⟨"k", "v"⟩)], ?_, by decide, by simp [twoPairs, or_comm]⟩
  apply List.Forall₂.cons (.metadata [104] [8])
  apply List.Forall₂.cons (.version [49])
  apply List.Forall₂.cons (.partitioned hkey hnul (latin1 "p") (latin1 "q"))
  apply List.Forall₂.cons (.data hplain hname .utf16)
  exact .cons (.data hplain .utf16 hvalue) .nil

theorem localStorage_readers_recover_two_pairs :
    ∃ origins, readSqlite oneBlock (.ok (twoPairRows.map .ok)) = .ok origins ∧
      Recovers twoPairs origins ∧
      Recovers twoPairs (readLocalStorage (some (.ok (twoPairRecords.map some)))) ∧
      origins.map OriginState.origin =
        (readLocalStorage (some (.ok (twoPairRecords.map some)))).map OriginState.origin ∧
      ∀ origin, (entriesOf origins origin).Perm
        (entriesOf (readLocalStorage (some (.ok (twoPairRecords.map some)))) origin) :=
  localStorage_readers_recover twoPairRecords_stored twoPairRows_stored

end BrowserServe
