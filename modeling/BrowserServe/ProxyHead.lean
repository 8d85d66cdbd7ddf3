import BrowserServe.Library.Async
import BrowserServe.Library.Search
import BrowserServe.Library.Text

namespace BrowserServe
open Library
set_option autoImplicit true

/-- A request head as `httparse` takes it apart. -/
structure RawRequest where
  method : Option Text
  path : Option Text
  headers : List (Text × List UInt8)

/-- The `httparse` crate: a whole head with at most so many headers, or nothing when it is
refused or not complete. Of a response only its code is asked for. -/
structure Httparse where
  request : Nat → List UInt8 → Option RawRequest
  response : Nat → List UInt8 → Option (Option Nat)

def MAX_HEAD_BYTES : Nat := 32 * 1024
def MAX_HEADERS : Nat := 100

def crlf : List UInt8 := [13, 10]

structure Head where
  head : List UInt8
  rest : List UInt8
  deriving DecidableEq

def findHeadEnd (buf : List UInt8) : Option Nat := endOf (crlf ++ crlf) buf

def headTooLarge : IoError := ⟨"other error", "message head too large"⟩

def readHead (buf : List UInt8) : Async (Incoming UInt8) IoError (Option Head) := fun reader =>
  match findHeadEnd buf with
  | some e => (.ok (some ⟨buf.take e, buf.drop e⟩), reader)
  | none =>
    if MAX_HEAD_BYTES ≤ buf.length then (.error (.failed headTooLarge), reader)
    else
      match Incoming.read 4096 reader with
      | (.ok (b :: bs), reader) => readHead (buf ++ b :: bs) reader
      | (.ok [], reader) =>
        if buf = [] then (.ok none, reader)
        else (.error (.failed (.unexpectedEof "unexpected end of file")), reader)
      | (.error stop, reader) => (.error stop, reader)
termination_by MAX_HEAD_BYTES - buf.length
decreasing_by
  simp only [List.length_append, List.length_cons]
  omega

/-- What the relay was asked to do. -/
inductive Request where
  | connect (host : Text) (port : Nat)
  | forward (host : Text) (port : Nat) (method absolute originForm : Text)
      (headers : List (Text × List UInt8))
  deriving DecidableEq

/-- Why a request is not one: for a reason that is told, or because the task that looks at it
panics. -/
inductive RequestError where
  | reason (reason : String)
  | panicked
  deriving DecidableEq

def splitAuthority (s : Text) (defaultPort : Option Nat) : Option (Text × Nat) := do
  guard ¬ ('@' ∈ s ∨ s = [])
  let (host, port) ←
    match stripPrefix '[' s with
    | some inner => do
      let (host, after) ← splitOnce ']' inner
      pure (host, stripPrefix ':' after)
    | none =>
      match rsplitOnce ':' s with
      | some (h, p) => pure (h, some p)
      | none => pure (s, none)
  let port ←
    match port with
    | some p => (parseUnsigned 16 p).filter (· ≠ 0)
    | none => defaultPort
  guard (host ≠ [])
  return (host, port)

/-- `ok_or`. -/
def okOr (e : ε) : Option α → Except ε α
  | some a => .ok a
  | none => .error e

def parseRequest (httparse : Httparse) (head : List UInt8) : Except RequestError Request := do
  let req ← okOr (.reason "malformed request") (httparse.request MAX_HEADERS head)
  let method ← okOr (.reason "malformed request") req.method
  let target ← okOr (.reason "malformed request") req.path
  if eqIgnoreAsciiCase method (text "CONNECT") then
    let (host, port) ← okOr (.reason "bad CONNECT target") (splitAuthority target none)
    return .connect host port
  let rest ←
    if 7 < (asBytes target).length then do
      -- slicing off the first seven bytes panics inside a character
      let (scheme, rest) ← okOr .panicked (splitAtByte 7 target)
      if eqIgnoreAsciiCase scheme (text "http://") then pure rest
      else .error (.reason "only proxy requests are accepted")
    else .error (.reason "only proxy requests are accepted")
  let (authority, path) :=
    match rest.span fun c => c ≠ '/' ∧ c ≠ '?' with
    | (_, []) => (rest, ['/'])
    | (authority, path) => (authority, path)
  let (host, port) ← okOr (.reason "bad request target") (splitAuthority authority (some 80))
  let originForm := if path.head? = some '?' then '/' :: path else path
  return .forward host port method target originForm req.headers

/-- Headers that belong to one hop and never travel further, plus any header a client names in
`Connection:`. -/
def hopByHop (headers : List (Text × List UInt8)) : List Text :=
  ["connection", "keep-alive", "proxy-authorization", "proxy-authenticate", "proxy-connection",
    "te", "trailer", "upgrade"].map text ++
  headers.flatMap fun (name, value) =>
    if eqIgnoreAsciiCase name (text "connection") then
      (((fromUtf8Lossy value).splitOn ',').map fun token => toAsciiLowercase (trim token)).filter
        (· ≠ [])
    else []

def rewriteRequest (method target : Text) (headers : List (Text × List UInt8))
    (proxyAuth : Option Text) : List UInt8 :=
  let drop := hopByHop headers
  asBytes (method ++ [' '] ++ target ++ text " HTTP/1.1") ++ crlf ++
    (headers.filter fun (name, _) => !drop.any (eqIgnoreAsciiCase name)).flatMap
      (fun (name, value) => asBytes name ++ asBytes (text ": ") ++ value ++ crlf) ++
    (match proxyAuth with
      | some auth => asBytes (text "Proxy-Authorization: " ++ auth) ++ crlf
      | none => []) ++
    asBytes (text "Connection: close") ++ crlf ++ crlf

def responseStatus (httparse : Httparse) (head : List UInt8) : Option Nat :=
  (httparse.response MAX_HEADERS head).join

/-- Bytes that are one head: up to the first blank line. -/
def IsHead (head : List UInt8) : Prop := findHeadEnd head = some head.length

/-- What `read_head` makes of a stream that goes on with `after`, and the rest it leaves. -/
inductive HeadRead (stream : List UInt8) (ending : Ending) :
    Except (Stop IoError) (Option Head) → List UInt8 → Prop
  | head (hstream : stream = head ++ (rest ++ left)) (hhead : IsHead head) :
      HeadRead stream ending (.ok (some ⟨head, rest⟩)) left
  | tooLarge (hstream : stream = start ++ left) (hnone : findHeadEnd start = none)
      (hlong : MAX_HEAD_BYTES ≤ start.length) :
      HeadRead stream ending (.error (.failed headTooLarge)) left
  | closed (hstream : stream = []) (hending : ending = .eof) :
      HeadRead stream ending (.ok none) []
  | midway (hstream : stream ≠ []) (hnone : findHeadEnd stream = none) (hending : ending = .eof) :
      HeadRead stream ending (.error (.failed (.unexpectedEof "unexpected end of file"))) []
  | failed (hnone : findHeadEnd stream = none) (hending : ending = .failed e) :
      HeadRead stream ending (.error (.failed e)) []
  | waiting (hnone : findHeadEnd stream = none) (hending : ending = .silent) :
      HeadRead stream ending (.error .waiting) []

/-- Whatever the segments, `read_head` reads what the stream holds. -/
theorem readHead_spec (buf : List UInt8) (reader : Incoming UInt8) :
    HeadRead (buf ++ reader.bytes) reader.ending (readHead buf reader).1
        (readHead buf reader).2.bytes ∧
      (readHead buf reader).2.ending = reader.ending := by
  induction hleft : MAX_HEAD_BYTES - buf.length using Nat.strongRecOn generalizing buf reader with
  | ind left ih =>
    rw [readHead]
    cases hend : findHeadEnd buf with
    | some e =>
      refine ⟨.head ?_ (endOf_take hend), rfl⟩
      rw [← List.append_assoc, List.take_append_drop]
    | none =>
      by_cases hlong : MAX_HEAD_BYTES ≤ buf.length
      · simp only [if_pos hlong]
        exact ⟨.tooLarge rfl hend hlong, trivial⟩
      · simp only [if_neg hlong]
        have hgot := Incoming.read_got reader (show 0 < 4096 by decide)
        generalize Incoming.read 4096 reader = result at hgot
        cases hgot with
        | @data bs after hbytes hne hle hending =>
          cases bs with
          | nil => exact absurd rfl hne
          | cons b bs =>
            have hless : MAX_HEAD_BYTES - (buf ++ b :: bs).length < left := by
              simp only [List.length_append, List.length_cons]
              omega
            obtain ⟨hread, hkeep⟩ := ih _ hless (buf ++ b :: bs) after rfl
            rw [hbytes, ← List.append_assoc, ← hending]
            exact ⟨hread, hkeep⟩
        | eof hbytes hending =>
          rw [hbytes, List.append_nil]
          by_cases hbuf : buf = []
          · simp only [if_pos hbuf, hbytes]
            exact ⟨.closed hbuf hending, trivial⟩
          · simp only [if_neg hbuf, hbytes]
            exact ⟨.midway hbuf hend hending, trivial⟩
        | failed hbytes hending =>
          rw [hbytes, List.append_nil]
          exact ⟨.failed hend hending, rfl⟩
        | waiting hbytes hending =>
          rw [hbytes, List.append_nil]
          exact ⟨.waiting hend hending, rfl⟩

theorem readHead_reads {buf : List UInt8} {reader after : Incoming UInt8}
    (h : readHead buf reader = (r, after)) :
    HeadRead (buf ++ reader.bytes) reader.ending r after.bytes ∧ after.ending = reader.ending := by
  have hspec := readHead_spec buf reader
  rw [h] at hspec
  exact hspec

theorem readHead_split {buf : List UInt8} {reader after : Incoming UInt8}
    (h : readHead buf reader = (.ok (some head), after)) :
    buf ++ reader.bytes = head.head ++ (head.rest ++ after.bytes) ∧ IsHead head.head := by
  obtain ⟨hspec, _⟩ := readHead_reads h
  generalize buf ++ reader.bytes = stream at hspec
  cases hspec with
  | head hsplit hhead => exact ⟨hsplit, hhead⟩

theorem findHeadEnd_of_isHead {head : List UInt8} (h : IsHead head) (tail : List UInt8) :
    findHeadEnd (head ++ tail) = some head.length :=
  endOf_append h tail

/-- A head within the limit is read from every stream that begins with it. -/
theorem HeadRead.of_isHead {head : List UInt8} (h : HeadRead (head ++ tail) ending r left)
    (hhead : IsHead head) (hle : head.length ≤ MAX_HEAD_BYTES) :
    ∃ rest, r = .ok (some ⟨head, rest⟩) ∧ tail = rest ++ left := by
  have hfound := findHeadEnd_of_isHead hhead tail
  generalize hstream : head ++ tail = stream at h hfound
  cases h with
  | @head found rest _ hsplit hfoundHead =>
    obtain ⟨rfl, rfl⟩ := endOf_unique hhead hfoundHead (hstream.trans hsplit)
    exact ⟨rest, rfl, rfl⟩
  | @tooLarge start _ hsplit hnone hlong =>
    have hpre : head <+: start :=
      List.prefix_of_prefix_length_le ⟨tail, hstream⟩ ⟨left, hsplit.symm⟩
        (Nat.le_trans hle hlong)
    obtain ⟨more, rfl⟩ := hpre
    rw [findHeadEnd_of_isHead hhead more] at hnone
    cases hnone
  | closed hnil =>
    rw [hnil] at hfound
    cases hfound
  | midway _ hnone =>
    rw [hnone] at hfound
    cases hfound
  | failed hnone =>
    rw [hnone] at hfound
    cases hfound
  | waiting hnone =>
    rw [hnone] at hfound
    cases hfound

/-- The code in a status line, empty lines before it skipped. -/
def statusCode (bytes : List UInt8) : Option Nat :=
  match bytes.dropWhile fun b => b = 13 ∨ b = 10 with
  | 72 :: 84 :: 84 :: 80 :: 47 :: 49 :: 46 :: _ :: 32 :: a :: b :: c :: _ =>
    if [a, b, c].all fun d => 48 ≤ d ∧ d ≤ 57 then
      some (100 * (a.toNat - 48) + 10 * (b.toNat - 48) + (c.toNat - 48))
    else none
  | _ => none

/-- The code `httparse` gives a response is the one in its status line. -/
def Httparse.Documented (httparse : Httparse) : Prop :=
  ∀ max head code, httparse.response max head = some (some code) → statusCode head = some code

def linesOf : List UInt8 → List (List UInt8)
  | 13 :: 10 :: bytes => [] :: linesOf bytes
  | b :: bytes =>
    match linesOf bytes with
    | line :: lines => (b :: line) :: lines
    | [] => [[b]]
  | [] => [[]]

/-- `httparse` on heads in their plain form: lines that end with CRLF, single spaces in the
first one, a colon after each name. -/
def Httparse.plain : Httparse where
  request max head :=
    let headers := ((linesOf head).drop 1).takeWhile (· ≠ [])
    match ((linesOf head).headD []).splitOn 32 with
    | [method, target, _] =>
      if headers.length ≤ max ∧ findHeadEnd head ≠ none then
        some {
          method := some (fromUtf8Lossy method)
          path := some (fromUtf8Lossy target)
          headers := headers.map fun line =>
            (fromUtf8Lossy (line.takeWhile (· ≠ 58)),
              ((line.dropWhile (· ≠ 58)).drop 1).dropWhile (· = 32)) }
      else none
    | _ => none
  response max head :=
    if (((linesOf head).drop 1).takeWhile (· ≠ [])).length ≤ max ∧ findHeadEnd head ≠ none then
      (statusCode head).map some
    else none

theorem Httparse.plain_documented : Httparse.plain.Documented := by
  intro max head code h
  simp only [Httparse.plain] at h
  split at h
  · obtain ⟨_, hcode, heq⟩ := Option.map_eq_some_iff.1 h
    cases heq
    exact hcode
  · cases h

theorem statusCode_of_isPrefix {bytes more : List UInt8} (h : statusCode bytes = some code) :
    statusCode (bytes ++ more) = some code := by
  unfold statusCode at h ⊢
  rw [List.dropWhile_append]
  split at h
  · next heq =>
    rw [heq]
    exact h
  · cases h

end BrowserServe
