import BrowserServe.Library.Base64
import BrowserServe.ProfileStore

namespace BrowserServe
open Library
set_option autoImplicit true

/-- A field with `skip_serializing_if = "Option::is_none"`. -/
def skipNone (name : String) (encode : α → Value) (field : Option α) : List (String × Value) :=
  field.toList.map fun a => (name, encode a)

/-- A field with `skip_serializing_if = "Not::not"`. -/
def skipFalse (name : String) (field : Bool) : List (String × Value) :=
  if field then [(name, .bool true)] else []

def SameSite.encode : SameSite → Value
  | .strict => .str "Strict"
  | .lax => .str "Lax"
  | .none => .str "None"

def PartitionKey.encode (key : PartitionKey) : Value :=
  .obj [("topLevelSite", .str key.topLevelSite),
    ("hasCrossSiteAncestor", .bool key.hasCrossSiteAncestor)]

def Decimal.encode (d : Decimal) : Value := .float d.mantissa d.exponent

def Cookie.fields (cookie : Cookie) : List (String × Value) :=
  [("name", .str cookie.name), ("value", .str cookie.value), ("domain", .str cookie.domain),
    ("path", .str cookie.path), ("expires", cookie.expires.encode),
    ("secure", .bool cookie.secure), ("httpOnly", .bool cookie.httpOnly)] ++
  (skipNone "sameSite" SameSite.encode cookie.sameSite ++
  (skipNone "priority" .str cookie.priority ++
  (skipNone "sourceScheme" .str cookie.sourceScheme ++
  (skipNone "sourcePort" .int cookie.sourcePort ++
  (skipNone "partitionKey" PartitionKey.encode cookie.partitionKey ++
  skipFalse "partitionKeyOpaque" cookie.partitionKeyOpaque)))))

def Cookie.encode (cookie : Cookie) : Value := .obj cookie.fields

def StorageEntry.encode (entry : StorageEntry) : Value :=
  .obj [("name", .str entry.name), ("value", .str entry.value)]

def OriginState.encode (state : OriginState) : Value :=
  .obj [("origin", .str state.origin),
    ("localStorage", .arr (state.localStorage.map StorageEntry.encode))]

def ManifestEntry.encode (entry : ManifestEntry) : Value :=
  .obj [("path", .str entry.path), ("bytes", .str (String.ofList (base64 entry.bytes)))]

def ProfilePayload.encode (payload : ProfilePayload) : Value :=
  .obj [("cookies", .arr (payload.cookies.map Cookie.encode)),
    ("localStorage", .arr (payload.localStorage.map OriginState.encode)),
    ("indexeddb", .arr (payload.indexeddb.map ManifestEntry.encode))]

def Value.asList (decode : Value → Option α) (v : Value) : Option (List α) :=
  v.asArray.bind (List.mapM decode)

def StorageEntry.decode (v : Value) : Option StorageEntry := do
  let fields ← v.structFields ["name", "value"]
  let name ← requiredField Value.asStr fields "name"
  let value ← requiredField Value.asStr fields "value"
  return ⟨name, value⟩

def OriginState.decode (v : Value) : Option OriginState := do
  let fields ← v.structFields ["origin", "localStorage"]
  let origin ← requiredField Value.asStr fields "origin"
  let localStorage ← requiredField (Value.asList StorageEntry.decode) fields "localStorage"
  return ⟨origin, localStorage⟩

/-- `base64_bytes::deserialize`. -/
def Value.asBytes (v : Value) : Option (List UInt8) :=
  v.asStr.bind fun encoded => fromBase64 encoded.toList

def ManifestEntry.decode (v : Value) : Option ManifestEntry := do
  let fields ← v.structFields ["path", "bytes"]
  let path ← requiredField Value.asStr fields "path"
  let bytes ← requiredField Value.asBytes fields "bytes"
  return ⟨path, bytes⟩

def ProfilePayload.decode (v : Value) : Option ProfilePayload := do
  let fields ← v.structFields ["cookies", "localStorage", "indexeddb"]
  let cookies ← defaultedField decodeCookies [] fields "cookies"
  let localStorage ← defaultedField (Value.asList OriginState.decode) [] fields "localStorage"
  let indexeddb ← defaultedField (Value.asList ManifestEntry.decode) [] fields "indexeddb"
  return ⟨cookies, localStorage, indexeddb⟩

theorem asList_arr_map (encode : α → Value) {decode : Value → Option α} (items : List α)
    (h : ∀ a ∈ items, decode (encode a) = some a) :
    Value.asList decode (.arr (items.map encode)) = some items := by
  show (items.map encode).mapM decode = some items
  induction items with
  | nil => rfl
  | cons a items ih =>
    have hhead := h a List.mem_cons_self
    have htail := ih fun b hb => h b (List.mem_cons_of_mem _ hb)
    rw [List.map_cons, List.mapM_cons, hhead, htail]
    rfl

@[simp] theorem lookup_skipNone (key name : String) (encode : α → Value) (field : Option α) :
    (skipNone name encode field).lookup key = if key = name then field.map encode else none := by
  cases field with
  | none => simp [skipNone]
  | some a =>
    by_cases hkey : key = name
    · simp [skipNone, hkey]
    · simp [skipNone, List.lookup_cons, hkey, beq_false_of_ne hkey]

@[simp] theorem lookup_skipFalse (key name : String) (field : Bool) :
    (skipFalse name field).lookup key =
      if key = name ∧ field = true then some (.bool true) else none := by
  cases field with
  | false => simp [skipFalse]
  | true =>
    by_cases hkey : key = name
    · simp [skipFalse, hkey]
    · simp [skipFalse, List.lookup_cons, hkey, beq_false_of_ne hkey]

/-- An optional field that was left out or written reads back as it was. -/
theorem optionalField_skipNone (encode : α → Value) {decode : Value → Option α}
    {fields : List (String × Value)} {name : String} {field : Option α}
    (hlookup : fields.lookup name = field.map encode)
    (hnull : ∀ a, encode a ≠ .null) (h : ∀ a ∈ field, decode (encode a) = some a) :
    optionalField decode fields name = some field := by
  unfold optionalField defaultedField
  rw [hlookup]
  cases field with
  | none => rfl
  | some a =>
    have hdecode := h a rfl
    simp only [Option.map_some]
    split
    · rename_i hn
      exact absurd hn (hnull a)
    · rw [hdecode]
      rfl

theorem SameSite.decode_encode (site : SameSite) : decode site.encode = some site := by
  cases site with
  | strict => rfl
  | lax => rfl
  | none => rfl

theorem PartitionKey.decode_encode (key : PartitionKey) : decode key.encode = some key := rfl

theorem StorageEntry.decode_encode (entry : StorageEntry) : decode entry.encode = some entry := rfl

theorem OriginState.decode_encode (state : OriginState) : decode state.encode = some state := by
  have hentries := asList_arr_map StorageEntry.encode state.localStorage
    fun entry _ => entry.decode_encode
  simp [decode, encode, Value.structFields, requiredField, Value.asStr, List.lookup_cons, hentries]

theorem ManifestEntry.decode_encode (entry : ManifestEntry) : decode entry.encode = some entry := by
  have hbytes : Value.asBytes (.str (String.ofList (base64 entry.bytes))) = some entry.bytes := by
    simp [Value.asBytes, Value.asStr, fromBase64_base64]
  simp [decode, encode, Value.structFields, requiredField, Value.asStr, List.lookup_cons, hbytes]

/-- The cookies that the store can hold: a source port is an `i64`. -/
def Cookie.Fits (cookie : Cookie) : Prop := ∀ port ∈ cookie.sourcePort, port < 2 ^ 63

theorem sourcePort_decode {cookie : Cookie} (h : cookie.Fits) :
    ∀ port ∈ cookie.sourcePort, Value.asI64 (.int port) = some port := by
  intro port hport
  exact if_pos (h port hport)

/-- A cookie's optional fields read back, whichever of them were left out. -/
theorem Cookie.optionalField_fields {cookie : Cookie} (h : cookie.Fits) :
    optionalField SameSite.decode cookie.fields "sameSite" = some cookie.sameSite ∧
      optionalField Value.asStr cookie.fields "priority" = some cookie.priority ∧
      optionalField Value.asStr cookie.fields "sourceScheme" = some cookie.sourceScheme ∧
      optionalField Value.asI64 cookie.fields "sourcePort" = some cookie.sourcePort ∧
      optionalField PartitionKey.decode cookie.fields "partitionKey" =
        some cookie.partitionKey := by
  refine ⟨?_, ?_, ?_, ?_, ?_⟩
  · apply optionalField_skipNone SameSite.encode
    · simp [fields, List.lookup_append, List.lookup_cons]
    · intro site hnull
      cases site with
      | strict => cases hnull
      | lax => cases hnull
      | none => cases hnull
    · intro site _
      exact site.decode_encode
  · apply optionalField_skipNone Value.str
    · simp [fields, List.lookup_append, List.lookup_cons]
    · intro _ hnull
      cases hnull
    · intro _ _
      rfl
  · apply optionalField_skipNone Value.str
    · simp [fields, List.lookup_append, List.lookup_cons]
    · intro _ hnull
      cases hnull
    · intro _ _
      rfl
  · apply optionalField_skipNone Value.int
    · simp [fields, List.lookup_append, List.lookup_cons]
    · intro _ hnull
      cases hnull
    · exact sourcePort_decode h
  · apply optionalField_skipNone PartitionKey.encode
    · simp [fields, List.lookup_append, List.lookup_cons]
    · intro _ hnull
      cases hnull
    · intro key _
      exact key.decode_encode

/-- What each field of a cookie was read from. -/
structure Cookie.ReadFrom (cookie : Cookie) (fields : List (String × Value)) : Prop where
  name : requiredField Value.asStr fields "name" = some cookie.name
  value : requiredField Value.asStr fields "value" = some cookie.value
  domain : requiredField Value.asStr fields "domain" = some cookie.domain
  path : requiredField Value.asStr fields "path" = some cookie.path
  expires : defaultedField Value.asF64 sessionExpiry fields "expires" = some cookie.expires
  secure : defaultedField Value.asBool false fields "secure" = some cookie.secure
  httpOnly : defaultedField Value.asBool false fields "httpOnly" = some cookie.httpOnly
  sameSite : optionalField SameSite.decode fields "sameSite" = some cookie.sameSite
  priority : optionalField Value.asStr fields "priority" = some cookie.priority
  sourceScheme : optionalField Value.asStr fields "sourceScheme" = some cookie.sourceScheme
  sourcePort : optionalField Value.asI64 fields "sourcePort" = some cookie.sourcePort
  partitionKey : optionalField PartitionKey.decode fields "partitionKey" =
    some cookie.partitionKey
  partitionKeyOpaque : defaultedField Value.asBool false fields "partitionKeyOpaque" =
    some cookie.partitionKeyOpaque

theorem Cookie.readFrom_of_decode {fields : List (String × Value)}
    (h : decode (.obj fields) = some cookie) : cookie.ReadFrom fields := by
  obtain ⟨_, hname, h⟩ := Option.bind_eq_some_iff.1 h
  obtain ⟨_, hvalue, h⟩ := Option.bind_eq_some_iff.1 h
  obtain ⟨_, hdomain, h⟩ := Option.bind_eq_some_iff.1 h
  obtain ⟨_, hpath, h⟩ := Option.bind_eq_some_iff.1 h
  obtain ⟨_, hexpires, h⟩ := Option.bind_eq_some_iff.1 h
  obtain ⟨_, hsecure, h⟩ := Option.bind_eq_some_iff.1 h
  obtain ⟨_, hhttp, h⟩ := Option.bind_eq_some_iff.1 h
  obtain ⟨_, hsite, h⟩ := Option.bind_eq_some_iff.1 h
  obtain ⟨_, hpriority, h⟩ := Option.bind_eq_some_iff.1 h
  obtain ⟨_, hscheme, h⟩ := Option.bind_eq_some_iff.1 h
  obtain ⟨_, hport, h⟩ := Option.bind_eq_some_iff.1 h
  obtain ⟨_, hkey, h⟩ := Option.bind_eq_some_iff.1 h
  obtain ⟨_, hopaque, h⟩ := Option.bind_eq_some_iff.1 h
  cases h
  exact ⟨hname, hvalue, hdomain, hpath, hexpires, hsecure, hhttp, hsite, hpriority, hscheme,
    hport, hkey, hopaque⟩

theorem Cookie.decode_of_readFrom {fields : List (String × Value)} (h : cookie.ReadFrom fields) :
    decode (.obj fields) = some cookie := by
  unfold decode
  apply Option.bind_eq_some_iff.2 ⟨fields, rfl, _⟩
  apply Option.bind_eq_some_iff.2 ⟨_, h.name, _⟩
  apply Option.bind_eq_some_iff.2 ⟨_, h.value, _⟩
  apply Option.bind_eq_some_iff.2 ⟨_, h.domain, _⟩
  apply Option.bind_eq_some_iff.2 ⟨_, h.path, _⟩
  apply Option.bind_eq_some_iff.2 ⟨_, h.expires, _⟩
  apply Option.bind_eq_some_iff.2 ⟨_, h.secure, _⟩
  apply Option.bind_eq_some_iff.2 ⟨_, h.httpOnly, _⟩
  apply Option.bind_eq_some_iff.2 ⟨_, h.sameSite, _⟩
  apply Option.bind_eq_some_iff.2 ⟨_, h.priority, _⟩
  apply Option.bind_eq_some_iff.2 ⟨_, h.sourceScheme, _⟩
  apply Option.bind_eq_some_iff.2 ⟨_, h.sourcePort, _⟩
  apply Option.bind_eq_some_iff.2 ⟨_, h.partitionKey, _⟩
  exact Option.bind_eq_some_iff.2 ⟨_, h.partitionKeyOpaque, rfl⟩

theorem Cookie.readFrom_fields {cookie : Cookie} (h : cookie.Fits) :
    cookie.ReadFrom cookie.fields := by
  obtain ⟨hsite, hpriority, hscheme, hport, hkey⟩ := optionalField_fields h
  refine ⟨rfl, rfl, rfl, rfl, rfl, rfl, rfl, hsite, hpriority, hscheme, hport, hkey, ?_⟩
  have hlookup : cookie.fields.lookup "partitionKeyOpaque" =
      if cookie.partitionKeyOpaque = true then some (.bool true) else none := by
    simp [fields, List.lookup_append, List.lookup_cons]
  unfold defaultedField
  rw [hlookup]
  cases cookie.partitionKeyOpaque with
  | false => rfl
  | true => rfl

theorem Cookie.decode_encode {cookie : Cookie} (h : cookie.Fits) :
    decode cookie.encode = some cookie := decode_of_readFrom (readFrom_fields h)

theorem ProfilePayload.decode_encode {payload : ProfilePayload}
    (h : ∀ cookie ∈ payload.cookies, cookie.Fits) : decode payload.encode = some payload := by
  have hcookies : decodeCookies (.arr (payload.cookies.map Cookie.encode)) = some payload.cookies :=
    asList_arr_map Cookie.encode payload.cookies fun cookie hc => Cookie.decode_encode (h cookie hc)
  have horigins := asList_arr_map OriginState.encode payload.localStorage
    fun state _ => state.decode_encode
  have hentries := asList_arr_map ManifestEntry.encode payload.indexeddb
    fun entry _ => entry.decode_encode
  simp [decode, encode, Value.structFields, defaultedField, List.lookup_cons, hcookies, horigins,
    hentries]

/-- A field of an `Option` type holds what its value is read as, or nothing. -/
theorem optionalField_eq_some {decode : Value → Option α} (hnull : decode .null = none)
    (h : optionalField decode fields name = some field) :
    (fields.lookup name).bind decode = field := by
  unfold optionalField defaultedField at h
  cases hlookup : fields.lookup name with
  | none =>
    rw [hlookup] at h
    exact Option.some.inj h
  | some v =>
    rw [hlookup] at h
    simp only at h
    split at h
    · rw [Option.bind_some, hnull]
      exact Option.some.inj h
    · obtain ⟨a, hdecode, rfl⟩ := Option.map_eq_some_iff.1 h
      exact hdecode

/-- A cookie that was read from JSON fits the store. -/
theorem Cookie.ReadFrom.fits {cookie : Cookie} {fields : List (String × Value)}
    (h : cookie.ReadFrom fields) : cookie.Fits := by
  intro port hport
  have hread := optionalField_eq_some rfl h.sourcePort
  rw [hport] at hread
  obtain ⟨v, _, hv⟩ := Option.bind_eq_some_iff.1 hread
  cases v with
  | int n =>
    have hlt : n < 2 ^ 63 ∧ n = port := by simpa [Value.asI64] using hv
    exact hlt.2 ▸ hlt.1
  | _ => cases hv

end BrowserServe
