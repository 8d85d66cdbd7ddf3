import BrowserServe.ProfileCodec
import Mathlib.Algebra.Order.Field.Rat
import Mathlib.Algebra.GroupWithZero.Basic

namespace BrowserServe
open Library
set_option autoImplicit true

structure CookieParam where
  name : String
  value : String
  domain : String
  path : String
  expires : Option Decimal
  secure : Bool
  httpOnly : Bool
  sameSite : Option SameSite
  priority : Option String
  sourceScheme : Option String
  sourcePort : Option Int
  partitionKey : Option PartitionKey
  deriving DecidableEq

def CookieParam.fields (param : CookieParam) : List (String × Value) :=
  [("name", .str param.name), ("value", .str param.value), ("domain", .str param.domain),
    ("path", .str param.path)] ++
  (skipNone "expires" Decimal.encode param.expires ++
  ([("secure", .bool param.secure), ("httpOnly", .bool param.httpOnly)] ++
  (skipNone "sameSite" SameSite.encode param.sameSite ++
  (skipNone "priority" .str param.priority ++
  (skipNone "sourceScheme" .str param.sourceScheme ++
  (skipNone "sourcePort" .int param.sourcePort ++
  skipNone "partitionKey" PartitionKey.encode param.partitionKey))))))

def CookieParam.encode (param : CookieParam) : Value := .obj param.fields

structure DropCounts where
  sameSiteNoneInsecure : UInt32
  expired : UInt32
  opaquePartition : UInt32
  invalidPrefix : UInt32
  oversized : UInt32
  deriving DecidableEq

def DropCounts.default : DropCounts := ⟨0, 0, 0, 0, 0⟩

def DropCounts.total (counts : DropCounts) : UInt32 :=
  counts.sameSiteNoneInsecure + counts.expired + counts.opaquePartition + counts.invalidPrefix +
    counts.oversized

def MAX_COOKIE_BYTES : Nat := 4096

inductive DropReason where
  | sameSiteNoneInsecure
  | expired
  | opaquePartition
  | invalidPrefix
  | oversized
  deriving DecidableEq

def countDrop (counts : DropCounts) : DropReason → DropCounts
  | .sameSiteNoneInsecure =>
    { counts with sameSiteNoneInsecure := counts.sameSiteNoneInsecure + 1 }
  | .expired => { counts with expired := counts.expired + 1 }
  | .opaquePartition => { counts with opaquePartition := counts.opaquePartition + 1 }
  | .invalidPrefix => { counts with invalidPrefix := counts.invalidPrefix + 1 }
  | .oversized => { counts with oversized := counts.oversized + 1 }

def prefixOk (cookie : Cookie) : Bool :=
  match stripPrefixText (text "__Host-") cookie.name.toList with
  | some rest =>
    !rest.isEmpty && cookie.secure && cookie.path = "/" && cookie.domain.toList.head? ≠ some '.'
  | none =>
    match stripPrefixText (text "__Secure-") cookie.name.toList with
    | some rest => !rest.isEmpty && cookie.secure
    | none => true

/-- The number that a decimal stands for. -/
def Decimal.toRat (d : Decimal) : Rat := d.mantissa * 10 ^ d.exponent

def toParam (cookie : Cookie) (nowSecs : Rat) : Except DropReason CookieParam :=
  if cookie.partitionKeyOpaque then .error .opaquePartition
  else if cookie.sameSite = some .none && !cookie.secure then .error .sameSiteNoneInsecure
  else
    let isSession : Bool := cookie.expires.toRat < 0
    if !isSession && cookie.expires.toRat < nowSecs then .error .expired
    else if !prefixOk cookie then .error .invalidPrefix
    else if MAX_COOKIE_BYTES < cookie.name.utf8ByteSize + cookie.value.utf8ByteSize then
      .error .oversized
    else .ok
      { name := cookie.name
        value := cookie.value
        domain := cookie.domain
        path := cookie.path
        expires := if isSession then none else some cookie.expires
        secure := cookie.secure
        httpOnly := cookie.httpOnly
        sameSite := cookie.sameSite
        priority := cookie.priority
        sourceScheme := cookie.sourceScheme
        sourcePort := cookie.sourcePort
        partitionKey := cookie.partitionKey }

/-- The body of the loop of `sanitize`. -/
def sanitizeOne (nowSecs : Rat) (acc : List CookieParam × DropCounts) (cookie : Cookie) :
    List CookieParam × DropCounts :=
  match toParam cookie nowSecs with
  | .ok param => (acc.1 ++ [param], acc.2)
  | .error reason => (acc.1, countDrop acc.2 reason)

def sanitize (cookies : List Cookie) (nowSecs : Rat) : List CookieParam × DropCounts :=
  cookies.foldl (sanitizeOne nowSecs) ([], .default)

structure CookieApplyReport where
  applied : Nat
  dropped : DropCounts
  deriving DecidableEq

/-- The parameters of the `Storage.setCookies` that `apply_cookies` sends, if it sends one. -/
def setCookies (params : List CookieParam) : Option Value :=
  if params.isEmpty then none else some (.obj [("cookies", .arr (params.map CookieParam.encode))])

/-- `apply_cookies` over what its send came to and what the pipe gives after it. -/
def applyCookies (client : CdpClient) (cookies : List Cookie) (nowSecs : Rat)
    (sent : Except PipeError Unit) (inbound : List (Except PipeError Value)) :
    Except ProfileCdpError CookieApplyReport :=
  let (params, dropped) := sanitize cookies nowSecs
  match setCookies params with
  | none => .ok ⟨params.length, dropped⟩
  | some _ =>
    match client.call "Storage.setCookies" sent inbound with
    | .error e => .error (.cdp e)
    | .ok _ => .ok ⟨params.length, dropped⟩

/-- What a name's prefix asks of the cookie. -/
structure Cookie.PrefixKept (cookie : Cookie) : Prop where
  host : ∀ rest, cookie.name.toList = text "__Host-" ++ rest →
    rest ≠ [] ∧ cookie.secure = true ∧ cookie.path = "/" ∧ cookie.domain.toList.head? ≠ some '.'
  secure : ∀ rest, cookie.name.toList = text "__Secure-" ++ rest →
    rest ≠ [] ∧ cookie.secure = true

/-- A cookie that can be injected again as it was. -/
structure Cookie.Keepable (nowSecs : Rat) (cookie : Cookie) : Prop where
  serializable : cookie.partitionKeyOpaque = false
  sameSite : cookie.sameSite = some .none → cookie.secure = true
  unexpired : 0 ≤ cookie.expires.toRat → nowSecs ≤ cookie.expires.toRat
  prefixKept : cookie.PrefixKept
  size : cookie.name.utf8ByteSize + cookie.value.utf8ByteSize ≤ MAX_COOKIE_BYTES

/-- A reason to drop a cookie applies to it. -/
def DropReason.Applies (nowSecs : Rat) (cookie : Cookie) : DropReason → Prop
  | .sameSiteNoneInsecure => cookie.sameSite = some .none ∧ cookie.secure = false
  | .expired => 0 ≤ cookie.expires.toRat ∧ cookie.expires.toRat < nowSecs
  | .opaquePartition => cookie.partitionKeyOpaque = true
  | .invalidPrefix => ¬ cookie.PrefixKept
  | .oversized => MAX_COOKIE_BYTES < cookie.name.utf8ByteSize + cookie.value.utf8ByteSize

theorem DropReason.Applies.not_keepable {cookie : Cookie} {reason : DropReason}
    (h : reason.Applies nowSecs cookie) : ¬ cookie.Keepable nowSecs := by
  intro hkeep
  cases reason with
  | sameSiteNoneInsecure =>
    have hsecure := hkeep.sameSite h.1
    rw [h.2] at hsecure
    cases hsecure
  | expired => exact absurd (hkeep.unexpired h.1) (not_le.2 h.2)
  | opaquePartition =>
    have hopaque : cookie.partitionKeyOpaque = true := h
    rw [hkeep.serializable] at hopaque
    cases hopaque
  | invalidPrefix => exact h hkeep.prefixKept
  | oversized => exact absurd hkeep.size (not_le.2 h)

/-- No name begins with both prefixes. -/
theorem not_both_prefixes {t a b : Text} (h : t = text "__Host-" ++ a) :
    t ≠ text "__Secure-" ++ b := by
  rw [h]
  simp [text]

theorem prefixOk_iff (cookie : Cookie) : prefixOk cookie = true ↔ cookie.PrefixKept := by
  cases hhost : stripPrefixText (text "__Host-") cookie.name.toList with
  | some rest =>
    have hname := stripPrefixText_eq_some.1 hhost
    have hok : prefixOk cookie = true ↔ rest ≠ [] ∧ cookie.secure = true ∧ cookie.path = "/" ∧
        cookie.domain.toList.head? ≠ some '.' := by
      simp [prefixOk, hhost, and_assoc]
    rw [hok]
    constructor
    · intro h
      refine ⟨?_, ?_⟩
      · intro rest' hname'
        rw [List.append_cancel_left (hname'.symm.trans hname)]
        exact h
      · intro rest' hname'
        exact absurd hname' (not_both_prefixes hname)
    · intro h
      exact h.host rest hname
  | none =>
    have hnot : ∀ rest, cookie.name.toList ≠ text "__Host-" ++ rest := by
      intro rest hname
      rw [stripPrefixText_eq_some.2 hname] at hhost
      cases hhost
    cases hsecure : stripPrefixText (text "__Secure-") cookie.name.toList with
    | some rest =>
      have hname := stripPrefixText_eq_some.1 hsecure
      have hok : prefixOk cookie = true ↔ rest ≠ [] ∧ cookie.secure = true := by
        simp [prefixOk, hhost, hsecure]
      rw [hok]
      constructor
      · intro h
        refine ⟨fun rest' hname' => absurd hname' (hnot rest'), ?_⟩
        intro rest' hname'
        rw [List.append_cancel_left (hname'.symm.trans hname)]
        exact h
      · intro h
        exact h.secure rest hname
    | none =>
      have hok : prefixOk cookie = true := by simp [prefixOk, hhost, hsecure]
      refine ⟨fun _ => ⟨fun rest hname => absurd hname (hnot rest), ?_⟩, fun _ => hok⟩
      intro rest hname
      rw [stripPrefixText_eq_some.2 hname] at hsecure
      cases hsecure

/-- The parameters of a cookie that is kept. -/
def Cookie.param (cookie : Cookie) : CookieParam where
  name := cookie.name
  value := cookie.value
  domain := cookie.domain
  path := cookie.path
  expires := if cookie.expires.toRat < 0 then none else some cookie.expires
  secure := cookie.secure
  httpOnly := cookie.httpOnly
  sameSite := cookie.sameSite
  priority := cookie.priority
  sourceScheme := cookie.sourceScheme
  sourcePort := cookie.sourcePort
  partitionKey := cookie.partitionKey

/-- A cookie is kept as it is, or dropped for a reason that applies to it. -/
theorem toParam_cases (cookie : Cookie) (nowSecs : Rat) :
    (cookie.Keepable nowSecs ∧ toParam cookie nowSecs = .ok cookie.param) ∨
      ∃ reason, reason.Applies nowSecs cookie ∧ toParam cookie nowSecs = .error reason := by
  unfold toParam
  split
  · rename_i hopaque
    exact .inr ⟨.opaquePartition, hopaque, rfl⟩
  · rename_i hopaque
    split
    · rename_i hsite
      have hsite : cookie.sameSite = some .none ∧ cookie.secure = false := by simpa using hsite
      exact .inr ⟨.sameSiteNoneInsecure, hsite, rfl⟩
    · rename_i hsite
      simp only
      split
      · rename_i hexpired
        have hexpired : 0 ≤ cookie.expires.toRat ∧ cookie.expires.toRat < nowSecs := by
          simpa using hexpired
        exact .inr ⟨.expired, hexpired, rfl⟩
      · rename_i hexpired
        split
        · rename_i hprefix
          refine .inr ⟨.invalidPrefix, ?_, rfl⟩
          intro hkept
          rw [(prefixOk_iff cookie).2 hkept] at hprefix
          cases hprefix
        · rename_i hprefix
          split
          · rename_i hsize
            exact .inr ⟨.oversized, hsize, rfl⟩
          · rename_i hsize
            refine .inl ⟨⟨?_, ?_, ?_, ?_, not_lt.1 hsize⟩, ?_⟩
            · simpa using hopaque
            · simpa using hsite
            · simpa using hexpired
            · exact (prefixOk_iff cookie).1 (by simpa using hprefix)
            · simp [Cookie.param]

theorem keepable_iff (cookie : Cookie) (nowSecs : Rat) :
    cookie.Keepable nowSecs ↔ toParam cookie nowSecs = .ok cookie.param := by
  obtain ⟨hkeep, hok⟩ | ⟨reason, happlies, herror⟩ := toParam_cases cookie nowSecs
  · exact iff_of_true hkeep hok
  · rw [herror]
    exact iff_of_false happlies.not_keepable nofun

instance (cookie : Cookie) (nowSecs : Rat) : Decidable (cookie.Keepable nowSecs) :=
  decidable_of_iff _ (keepable_iff cookie nowSecs).symm

/-- The reason a cookie is dropped for. -/
def Cookie.dropReason (nowSecs : Rat) (cookie : Cookie) : DropReason :=
  match toParam cookie nowSecs with
  | .error reason => reason
  | .ok _ => .oversized

theorem toParam_dropped {cookie : Cookie} (h : ¬ cookie.Keepable nowSecs) :
    (cookie.dropReason nowSecs).Applies nowSecs cookie ∧
      toParam cookie nowSecs = .error (cookie.dropReason nowSecs) := by
  obtain ⟨hkeep, _⟩ | ⟨reason, happlies, herror⟩ := toParam_cases cookie nowSecs
  · exact absurd hkeep h
  · have hreason : cookie.dropReason nowSecs = reason := by
      unfold Cookie.dropReason
      rw [herror]
    rw [hreason]
    exact ⟨happlies, herror⟩

def DropCounts.count (counts : DropCounts) : DropReason → UInt32
  | .sameSiteNoneInsecure => counts.sameSiteNoneInsecure
  | .expired => counts.expired
  | .opaquePartition => counts.opaquePartition
  | .invalidPrefix => counts.invalidPrefix
  | .oversized => counts.oversized

theorem count_countDrop (counts : DropCounts) (reason r : DropReason) :
    (countDrop counts reason).count r =
      if reason = r then counts.count r + 1 else counts.count r := by
  cases reason <;> cases r <;> rfl

theorem sanitize_foldl_params (cookies : List Cookie) (nowSecs : Rat)
    (acc : List CookieParam × DropCounts) :
    (cookies.foldl (sanitizeOne nowSecs) acc).1 =
      acc.1 ++ (cookies.filter (·.Keepable nowSecs)).map Cookie.param := by
  induction cookies generalizing acc with
  | nil => simp
  | cons cookie cookies ih =>
    rw [List.foldl_cons, ih]
    by_cases hkeep : cookie.Keepable nowSecs
    · simp [sanitizeOne, (keepable_iff cookie nowSecs).1 hkeep, hkeep]
    · simp [sanitizeOne, (toParam_dropped hkeep).2, hkeep]

theorem sanitize_foldl_count (cookies : List Cookie) (nowSecs : Rat)
    (acc : List CookieParam × DropCounts) (r : DropReason) :
    ((cookies.foldl (sanitizeOne nowSecs) acc).2.count r).toNat =
      ((acc.2.count r).toNat + (cookies.filter (¬ ·.Keepable nowSecs)).countP
        (·.dropReason nowSecs = r)) % 2 ^ 32 := by
  induction cookies generalizing acc with
  | nil => simp [Nat.mod_eq_of_lt (UInt32.toNat_lt _)]
  | cons cookie cookies ih =>
    rw [List.foldl_cons, ih]
    by_cases hkeep : cookie.Keepable nowSecs
    · simp [sanitizeOne, (keepable_iff cookie nowSecs).1 hkeep, hkeep]
    · by_cases hreason : cookie.dropReason nowSecs = r
      · simp [sanitizeOne, (toParam_dropped hkeep).2, hkeep, count_countDrop, hreason]
        omega
      · simp [sanitizeOne, (toParam_dropped hkeep).2, hkeep, count_countDrop, hreason]

/-- Every dropped cookie is in exactly one of the five counts. -/
theorem countP_reasons (cookies : List Cookie) (reason : Cookie → DropReason) :
    cookies.countP (reason · = .sameSiteNoneInsecure) + cookies.countP (reason · = .expired) +
      cookies.countP (reason · = .opaquePartition) + cookies.countP (reason · = .invalidPrefix) +
      cookies.countP (reason · = .oversized) = cookies.length := by
  induction cookies with
  | nil => rfl
  | cons cookie cookies ih =>
    simp only [List.countP_cons, List.length_cons]
    cases reason cookie <;> simp <;> omega

/-- What `sanitize` makes of fewer cookies than its counters can count. -/
structure Sanitized (nowSecs : Rat) (cookies : List Cookie) (params : List CookieParam)
    (dropped : DropCounts) : Prop where
  params_eq : params = (cookies.filter (·.Keepable nowSecs)).map Cookie.param
  count_eq : ∀ r, (dropped.count r).toNat =
    (cookies.filter (¬ ·.Keepable nowSecs)).countP (·.dropReason nowSecs = r)
  total_eq : params.length + dropped.total.toNat = cookies.length

theorem sanitize_spec {cookies : List Cookie} (h : cookies.length < 2 ^ 32) (nowSecs : Rat) :
    Sanitized nowSecs cookies (sanitize cookies nowSecs).1 (sanitize cookies nowSecs).2 := by
  have hparams := sanitize_foldl_params cookies nowSecs ([], .default)
  generalize hdropped : cookies.filter (¬ ·.Keepable nowSecs) = dropped
  have hlength : (cookies.filter (·.Keepable nowSecs)).length + dropped.length =
      cookies.length := by
    rw [← hdropped, cookies.length_eq_length_filter_add (·.Keepable nowSecs)]
    simp only [decide_not]
  have hcount : ∀ r, ((sanitize cookies nowSecs).2.count r).toNat =
      dropped.countP (·.dropReason nowSecs = r) := by
    intro r
    have hfold := sanitize_foldl_count cookies nowSecs ([], .default) r
    have hle := dropped.countP_le_length (p := (·.dropReason nowSecs = r))
    have hzero : (DropCounts.default.count r).toNat = 0 := by cases r <;> rfl
    rw [hdropped, hzero, Nat.zero_add, Nat.mod_eq_of_lt (by omega)] at hfold
    exact hfold
  refine ⟨hparams, ?_, ?_⟩
  · rw [hdropped]
    exact hcount
  · have hsum := countP_reasons dropped (·.dropReason nowSecs)
    have hsame := hcount .sameSiteNoneInsecure
    have hexpired := hcount .expired
    have hopaque := hcount .opaquePartition
    have hprefix := hcount .invalidPrefix
    have hsize := hcount .oversized
    simp only [DropCounts.count] at hsame hexpired hopaque hprefix hsize
    have hkept : (sanitize cookies nowSecs).1.length =
        (cookies.filter (·.Keepable nowSecs)).length := by
      rw [sanitize, hparams]
      simp
    simp only [DropCounts.total, UInt32.toNat_add, hkept, hsame, hexpired, hopaque, hprefix, hsize]
    omega

/-- What is sent for a captured cookie: the fields it had, and its expiry unless that was
negative. -/
structure Reinjected (captured sent : List (String × Value)) : Prop where
  name : sent.lookup "name" = captured.lookup "name"
  value : sent.lookup "value" = captured.lookup "value"
  domain : sent.lookup "domain" = captured.lookup "domain"
  path : sent.lookup "path" = captured.lookup "path"
  secure : sent.lookup "secure" = some ((captured.lookup "secure").getD (.bool false))
  httpOnly : sent.lookup "httpOnly" = some ((captured.lookup "httpOnly").getD (.bool false))
  sameSite : (sent.lookup "sameSite").bind SameSite.decode =
    (captured.lookup "sameSite").bind SameSite.decode
  priority : (sent.lookup "priority").bind Value.asStr =
    (captured.lookup "priority").bind Value.asStr
  sourceScheme : (sent.lookup "sourceScheme").bind Value.asStr =
    (captured.lookup "sourceScheme").bind Value.asStr
  sourcePort : (sent.lookup "sourcePort").bind Value.asI64 =
    (captured.lookup "sourcePort").bind Value.asI64
  partitionKey : (sent.lookup "partitionKey").bind PartitionKey.decode =
    (captured.lookup "partitionKey").bind PartitionKey.decode
  expires : (sent.lookup "expires").bind Value.asF64 =
    ((captured.lookup "expires").bind Value.asF64).filter (0 ≤ ·.toRat)

theorem requiredField_asStr (h : requiredField Value.asStr fields name = some s) :
    fields.lookup name = some (.str s) := by
  obtain ⟨v, hlookup, hv⟩ := Option.bind_eq_some_iff.1 h
  cases v with
  | str t =>
    cases hv
    exact hlookup
  | _ => cases hv

theorem defaultedField_asBool (h : defaultedField Value.asBool false fields name = some b) :
    (fields.lookup name).getD (.bool false) = .bool b := by
  unfold defaultedField at h
  cases hlookup : fields.lookup name with
  | none =>
    rw [hlookup] at h
    cases h
    rfl
  | some v =>
    rw [hlookup] at h
    cases v with
    | bool b' =>
      cases h
      rfl
    | _ => cases h

theorem sessionExpiry_neg : sessionExpiry.toRat < 0 := by
  simp [sessionExpiry, Decimal.toRat]

/-- An expiry is passed on exactly when it is not negative. -/
theorem defaultedField_expires
    (h : defaultedField Value.asF64 sessionExpiry fields "expires" = some expires) :
    ((fields.lookup "expires").bind Value.asF64).filter (0 ≤ ·.toRat) =
      if expires.toRat < 0 then none else some expires := by
  unfold defaultedField at h
  cases hlookup : fields.lookup "expires" with
  | none =>
    rw [hlookup] at h
    cases h
    rw [if_pos sessionExpiry_neg]
    rfl
  | some v =>
    rw [hlookup] at h
    simp only at h
    rw [Option.bind_some, h, Option.filter_some]
    by_cases hneg : expires.toRat < 0
    · rw [if_pos hneg, if_neg (by simpa using hneg)]
    · rw [if_neg hneg, if_pos (by simpa using hneg)]

/-- What was written under a name reads back. -/
theorem bind_decode_encode (encode : α → Value) {decode : Value → Option α}
    {fields : List (String × Value)} {field : Option α}
    (hlookup : fields.lookup name = field.map encode)
    (h : ∀ a ∈ field, decode (encode a) = some a) :
    (fields.lookup name).bind decode = field := by
  rw [hlookup]
  cases field with
  | none => rfl
  | some a => exact h a rfl

theorem Cookie.ReadFrom.reinjected {cookie : Cookie} {fields : List (String × Value)}
    (h : cookie.ReadFrom fields) : Reinjected fields cookie.param.fields where
  name := (requiredField_asStr h.name).symm
  value := (requiredField_asStr h.value).symm
  domain := (requiredField_asStr h.domain).symm
  path := (requiredField_asStr h.path).symm
  secure := by
    rw [defaultedField_asBool h.secure]
    simp [CookieParam.fields, Cookie.param, List.lookup_append, List.lookup_cons]
  httpOnly := by
    rw [defaultedField_asBool h.httpOnly]
    simp [CookieParam.fields, Cookie.param, List.lookup_append, List.lookup_cons]
  sameSite := by
    rw [optionalField_eq_some rfl h.sameSite]
    apply bind_decode_encode SameSite.encode
    · simp [CookieParam.fields, Cookie.param, List.lookup_append, List.lookup_cons]
    · intro site _
      exact site.decode_encode
  priority := by
    rw [optionalField_eq_some rfl h.priority]
    apply bind_decode_encode Value.str
    · simp [CookieParam.fields, Cookie.param, List.lookup_append, List.lookup_cons]
    · intro _ _
      rfl
  sourceScheme := by
    rw [optionalField_eq_some rfl h.sourceScheme]
    apply bind_decode_encode Value.str
    · simp [CookieParam.fields, Cookie.param, List.lookup_append, List.lookup_cons]
    · intro _ _
      rfl
  sourcePort := by
    rw [optionalField_eq_some rfl h.sourcePort]
    apply bind_decode_encode Value.int
    · simp [CookieParam.fields, Cookie.param, List.lookup_append, List.lookup_cons]
    · exact sourcePort_decode h.fits
  partitionKey := by
    rw [optionalField_eq_some rfl h.partitionKey]
    apply bind_decode_encode PartitionKey.encode
    · simp [CookieParam.fields, Cookie.param, List.lookup_append, List.lookup_cons]
    · intro key _
      exact key.decode_encode
  expires := by
    rw [defaultedField_expires h.expires]
    apply bind_decode_encode Decimal.encode
    · simp [CookieParam.fields, Cookie.param, List.lookup_append, List.lookup_cons]
    · intro _ _
      rfl

/-- A captured cookie that can be injected again as it was. -/
def keeps (nowSecs : Rat) (captured : List (String × Value)) : Bool :=
  (Cookie.decode (.obj captured)).any (·.Keepable nowSecs)

theorem forall₂_decode {captured : List (List (String × Value))}
    (h : decodeCookies (.arr (captured.map .obj)) = some cookies) :
    List.Forall₂ (fun fields cookie => Cookie.decode (.obj fields) = some cookie)
      captured cookies := by
  replace h : (captured.map Value.obj).mapM Cookie.decode = some cookies := h
  induction captured generalizing cookies with
  | nil =>
    cases h
    exact .nil
  | cons fields captured ih =>
    simp only [List.map_cons, List.mapM_cons, Option.bind_eq_bind, Option.bind_eq_some_iff,
      Option.pure_def, Option.some.injEq] at h
    obtain ⟨cookie, hcookie, rest, hrest, rfl⟩ := h
    exact .cons hcookie (ih hrest)

theorem fits_of_forall₂ {captured : List (List (String × Value))}
    (h : List.Forall₂ (fun fields cookie => Cookie.decode (.obj fields) = some cookie)
      captured cookies) : ∀ cookie ∈ cookies, cookie.Fits := by
  induction h with
  | nil =>
    intro _ hc
    exact absurd hc List.not_mem_nil
  | cons hcookie _ ih =>
    intro cookie hc
    cases List.mem_cons.1 hc with
    | inl heq =>
      rw [heq]
      exact (Cookie.readFrom_of_decode hcookie).fits
    | inr htail => exact ih cookie htail

theorem forall₂_kept {captured : List (List (String × Value))} (nowSecs : Rat)
    (h : List.Forall₂ (fun fields cookie => Cookie.decode (.obj fields) = some cookie)
      captured cookies) :
    List.Forall₂ Reinjected (captured.filter (keeps nowSecs))
      ((cookies.filter (·.Keepable nowSecs)).map fun cookie => cookie.param.fields) := by
  induction h with
  | nil => exact .nil
  | @cons fields cookie captured cookies hcookie _ ih =>
    have hkeeps : keeps nowSecs fields = decide (cookie.Keepable nowSecs) := by
      simp [keeps, hcookie]
    by_cases hkeep : cookie.Keepable nowSecs
    · simp only [List.filter_cons, hkeeps, hkeep, decide_true, if_true, List.map_cons]
      exact .cons (Cookie.readFrom_of_decode hcookie).reinjected ih
    · simp only [List.filter_cons, hkeeps, hkeep, decide_false]
      exact ih

/-- Captured cookies, stored and injected again: those that can be injected as they were are,
in their order and with all they had, and each of the others is in the one counter of a reason
that applies to it. -/
structure SurvivesReinjection (nowSecs : Rat) (captured : List (List (String × Value)))
    (cookies stored : List Cookie) : Prop where
  stored_eq : stored = cookies
  sent : List.Forall₂ Reinjected (captured.filter (keeps nowSecs))
    ((sanitize stored nowSecs).1.map CookieParam.fields)
  dropped : ∃ reason : Cookie → DropReason,
    (∀ cookie, ¬ cookie.Keepable nowSecs → (reason cookie).Applies nowSecs cookie) ∧
    ∀ r, ((sanitize stored nowSecs).2.count r).toNat =
      (cookies.filter (¬ ·.Keepable nowSecs)).countP (reason · = r)
  total : (sanitize stored nowSecs).1.length + (sanitize stored nowSecs).2.total.toNat =
    captured.length
  reported : ∀ client sent inbound report,
    applyCookies client stored nowSecs sent inbound = .ok report →
      report = ⟨(sanitize stored nowSecs).1.length, (sanitize stored nowSecs).2⟩

theorem applyCookies_ok (h : applyCookies client cookies nowSecs sent inbound = .ok report) :
    report = ⟨(sanitize cookies nowSecs).1.length, (sanitize cookies nowSecs).2⟩ := by
  unfold applyCookies at h
  simp only at h
  split at h
  · exact (Except.ok.inj h).symm
  · split at h
    · cases h
    · exact (Except.ok.inj h).symm

theorem captured_cookies_survive {captured : List (List (String × Value))} {cookies : List Cookie}
    (hcount : captured.length < 2 ^ 32)
    (hdecode : decodeCookies (.arr (captured.map .obj)) = some cookies)
    (localStorage : List OriginState) (indexeddb : List ManifestEntry) (nowSecs : Rat) :
    ∃ stored, ProfilePayload.decode (ProfilePayload.encode ⟨cookies, localStorage, indexeddb⟩) =
        some stored ∧
      SurvivesReinjection nowSecs captured cookies stored.cookies := by
  have hall := forall₂_decode hdecode
  have hlength := hall.length_eq
  have hspec := sanitize_spec (hlength ▸ hcount) nowSecs
  refine ⟨_, ProfilePayload.decode_encode (fits_of_forall₂ hall), rfl, ?_, ?_, ?_, ?_⟩
  · rw [hspec.params_eq, List.map_map]
    exact forall₂_kept nowSecs hall
  · refine ⟨Cookie.dropReason nowSecs, ?_, hspec.count_eq⟩
    intro cookie hkeep
    exact (toParam_dropped hkeep).1
  · rw [hlength]
    exact hspec.total_eq
  · intro client sent inbound report h
    exact applyCookies_ok h

theorem captured_cookie_survives :
    ∃ stored, ProfilePayload.decode (ProfilePayload.encode
        ⟨[⟨"sid", "secret", "example.com", "/", sessionExpiry, true, false, some .none, none, none,
          some 443, none, false⟩], [], []⟩) = some stored ∧
      SurvivesReinjection 1000
        [[("name", .str "sid"), ("value", .str "secret"), ("domain", .str "example.com"),
          ("path", .str "/"), ("secure", .bool true), ("sameSite", .str "None"),
          ("sourcePort", .int 443)]]
        [⟨"sid", "secret", "example.com", "/", sessionExpiry, true, false, some .none, none, none,
          some 443, none, false⟩] stored.cookies :=
  captured_cookies_survive (by decide) rfl [] [] 1000

end BrowserServe
