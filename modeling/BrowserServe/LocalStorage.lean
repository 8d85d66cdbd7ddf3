import Mathlib.Data.List.Basic

namespace BrowserServe
set_option autoImplicit true

structure StorageEntry where
  name : String
  value : String
  deriving DecidableEq

structure OriginState where
  origin : String
  localStorage : List StorageEntry
  deriving DecidableEq

/-- One row of the SQLite store's join of `maps` and `map_entries`. -/
structure SqliteRow where
  storageKey : List UInt8
  key : List UInt8
  compression : Int
  value : List UInt8
  deriving DecidableEq

/-- The two decompressors, which are libraries. -/
structure Codecs where
  zstd : List UInt8 → Option (List UInt8)
  snappy : List UInt8 → Option (List UInt8)

def decompress (codecs : Codecs) (compression : Int) (value : List UInt8) :
    Option (List UInt8) :=
  if compression = 0 then some value
  else if compression = 1 then codecs.zstd value
  else if compression = 2 then codecs.snappy value
  else none

def utf8 (bytes : List UInt8) : Option String := String.fromUTF8? ⟨bytes.toArray⟩

/-- The units of UTF-16LE bytes; a last odd byte is left out. -/
def utf16Units : List UInt8 → List Nat
  | low :: high :: rest => (low.toNat + 256 * high.toNat) :: utf16Units rest
  | _ => []

def fromUtf16 : List Nat → Option (List Char)
  | [] => some []
  | unit :: rest =>
    if unit < 0xD800 ∨ 0xE000 ≤ unit then (fromUtf16 rest).map (Char.ofNat unit :: ·)
    else
      match rest with
      | [] => none
      | low :: rest =>
        if unit < 0xDC00 ∧ 0xDC00 ≤ low ∧ low < 0xE000 then
          (fromUtf16 rest).map
            (Char.ofNat (0x10000 + (unit - 0xD800) * 0x400 + (low - 0xDC00)) :: ·)
        else none

def decodeString : List UInt8 → Option String
  | [] => none
  | encoding :: bytes =>
    if encoding = 0 then
      if bytes.length % 2 = 0 then (fromUtf16 (utf16Units bytes)).map String.ofList else none
    else if encoding = 1 then
      some (String.ofList (bytes.map fun b => Char.ofNat b.toNat))
    else none

def originFromStorageKey (storageKey : List UInt8) : Option String :=
  (utf8 storageKey).bind fun serialized =>
    if '^' ∈ serialized.toList then none
    else if serialized.toList.getLast? = some '/' then
      some (String.ofList serialized.toList.dropLast)
    else some serialized

/-- The key of a data record: `_<origin>`, a NUL byte and the encoded name. -/
def parseDataKey (key : List UInt8) : Option (String × String) :=
  match key with
  | 95 :: rest =>
    if 0 ∈ rest then
      (utf8 (rest.takeWhile (· ≠ 0))).bind fun origin =>
        if '^' ∈ origin.toList then none
        else (decodeString ((rest.dropWhile (· ≠ 0)).drop 1)).map fun name => (origin, name)
    else none
  | _ => none

/-- `by_origin.entry(origin).or_default().push(entry)`: a `BTreeMap` keeps its origins in
order. -/
def pushEntry (origin : String) (entry : StorageEntry) : List OriginState → List OriginState
  | [] => [⟨origin, [entry]⟩]
  | state :: rest =>
    if origin = state.origin then
      { state with localStorage := state.localStorage ++ [entry] } :: rest
    else if origin < state.origin then ⟨origin, [entry]⟩ :: state :: rest
    else state :: pushEntry origin entry rest

/-- What a row adds, when its key and its value can be decoded. -/
def SqliteRow.push (codecs : Codecs) (row : SqliteRow) (byOrigin : List OriginState) :
    List OriginState :=
  match originFromStorageKey row.storageKey, decompress codecs row.compression row.value with
  | some origin, some raw =>
    match decodeString row.key, decodeString raw with
    | some name, some decoded => pushEntry origin ⟨name, decoded⟩ byOrigin
    | _, _ => byOrigin
  | _, _ => byOrigin

/-- `read_sqlite` over what opening and querying the store came to and the rows it gave. -/
def readSqlite (codecs : Codecs) (store : Except String (List (Except String SqliteRow))) :
    Except String (List OriginState) := do
  let rows ← store
  rows.foldlM (fun byOrigin row => row.map fun row => row.push codecs byOrigin) []

def readLocalStorageSqlite (codecs : Codecs)
    (store : Except String (List (Except String SqliteRow))) : List OriginState :=
  match readSqlite codecs store with
  | .ok origins => origins
  | .error _ => []

/-- What a record of the LevelDB store adds. -/
def pushRecord (record : Option (List UInt8 × List UInt8)) (byOrigin : List OriginState) :
    List OriginState :=
  match record with
  | none => byOrigin
  | some (key, value) =>
    match parseDataKey key, decodeString value with
    | some (origin, name), some decoded => pushEntry origin ⟨name, decoded⟩ byOrigin
    | _, _ => byOrigin

/-- The LevelDB store of a profile: no directory, one that cannot be opened or iterated, or
the records its iterator gives. -/
abbrev LevelDbDir : Type := Option (Except String (List (Option (List UInt8 × List UInt8))))

def readLocalStorage : LevelDbDir → List OriginState
  | some (.ok records) => records.foldl (fun byOrigin record => pushRecord record byOrigin) []
  | _ => []

/-- The localStorage stores of a profile's `Default` directory. -/
structure DefaultDir where
  sqlite : Option (Except String (List (Except String SqliteRow)))
  leveldb : LevelDbDir

def readProfileLocalStorage (codecs : Codecs) (dir : DefaultDir) : List OriginState :=
  match dir.sqlite with
  | some store => readLocalStorageSqlite codecs store
  | none => readLocalStorage dir.leveldb

/-- The origins of a profile, or the error that kept its store from being read; a store that
does not exist has none. -/
def DefaultDir.read (codecs : Codecs) (dir : DefaultDir) : Except String (List OriginState) :=
  match dir.sqlite, dir.leveldb with
  | some store, _ => readSqlite codecs store
  | none, some (.error e) => .error e
  | none, leveldb => .ok (readLocalStorage leveldb)

/-- The reader takes a store it cannot read for an empty one. -/
theorem readProfileLocalStorage_eq (codecs : Codecs) (dir : DefaultDir) :
    readProfileLocalStorage codecs dir = (dir.read codecs).toOption.getD [] := by
  cases hsqlite : dir.sqlite with
  | some store =>
    cases hread : readSqlite codecs store with
    | ok origins =>
      simp [readProfileLocalStorage, readLocalStorageSqlite, DefaultDir.read, hsqlite, hread,
        Except.toOption]
    | error e =>
      simp [readProfileLocalStorage, readLocalStorageSqlite, DefaultDir.read, hsqlite, hread,
        Except.toOption]
  | none =>
    cases hleveldb : dir.leveldb with
    | none => simp [readProfileLocalStorage, readLocalStorage, DefaultDir.read, hsqlite, hleveldb,
        Except.toOption]
    | some store =>
      cases store with
      | ok records =>
        simp [readProfileLocalStorage, DefaultDir.read, hsqlite, hleveldb, Except.toOption]
      | error e =>
        simp [readProfileLocalStorage, readLocalStorage, DefaultDir.read, hsqlite, hleveldb,
          Except.toOption]

end BrowserServe
