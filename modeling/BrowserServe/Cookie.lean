import BrowserServe.CdpClient

namespace BrowserServe
set_option autoImplicit true

structure PartitionKey where
  topLevelSite : String
  hasCrossSiteAncestor : Bool
  deriving DecidableEq

inductive SameSite where
  | strict
  | lax
  | none
  deriving DecidableEq

/-- A number of a JSON document as the decimal it is written as. -/
structure Decimal where
  mantissa : Int
  exponent : Int
  deriving DecidableEq

structure Cookie where
  name : String
  value : String
  domain : String
  path : String
  expires : Decimal
  secure : Bool
  httpOnly : Bool
  sameSite : Option SameSite
  priority : Option String
  sourceScheme : Option String
  sourcePort : Option Int
  partitionKey : Option PartitionKey
  partitionKeyOpaque : Bool
  deriving DecidableEq

def sessionExpiry : Decimal := ⟨-1, 0⟩

def Value.asF64 : Value → Option Decimal
  | .int n => some ⟨n, 0⟩
  | .float mantissa exponent => some ⟨mantissa, exponent⟩
  | _ => none

/-- The fields of a struct, which may also come as an array in the order of its fields. -/
def Value.structFields (names : List String) : Value → Option (List (String × Value))
  | .obj fields => some fields
  | .arr items => if items.length ≤ names.length then some (names.zip items) else none
  | _ => none

def requiredField (decode : Value → Option α) (fields : List (String × Value)) (name : String) :
    Option α :=
  (fields.lookup name).bind decode

/-- A field with `serde(default)`. -/
def defaultedField (decode : Value → Option α) (default : α) (fields : List (String × Value))
    (name : String) : Option α :=
  match fields.lookup name with
  | none => some default
  | some field => decode field

/-- A field of an `Option` type. -/
def optionalField (decode : Value → Option α) : List (String × Value) → String →
    Option (Option α) :=
  defaultedField (fun field => match field with
    | .null => some none
    | field => (decode field).map some) none

/-- The name of a variant without data. -/
def Value.variant : Value → Option String
  | .str name => some name
  | .obj [(name, .null)] => some name
  | _ => none

def SameSite.decode (v : Value) : Option SameSite :=
  match v.variant with
  | some "Strict" => some .strict
  | some "Lax" => some .lax
  | some "None" => some .none
  | _ => Option.none

def PartitionKey.decode (v : Value) : Option PartitionKey := do
  let fields ← v.structFields ["topLevelSite", "hasCrossSiteAncestor"]
  let topLevelSite ← requiredField Value.asStr fields "topLevelSite"
  let hasCrossSiteAncestor ← requiredField Value.asBool fields "hasCrossSiteAncestor"
  return ⟨topLevelSite, hasCrossSiteAncestor⟩

def Cookie.decode (v : Value) : Option Cookie := do
  let fields ← v.structFields ["name", "value", "domain", "path", "expires", "secure", "httpOnly",
    "sameSite", "priority", "sourceScheme", "sourcePort", "partitionKey", "partitionKeyOpaque"]
  let name ← requiredField Value.asStr fields "name"
  let value ← requiredField Value.asStr fields "value"
  let domain ← requiredField Value.asStr fields "domain"
  let path ← requiredField Value.asStr fields "path"
  let expires ← defaultedField Value.asF64 sessionExpiry fields "expires"
  let secure ← defaultedField Value.asBool false fields "secure"
  let httpOnly ← defaultedField Value.asBool false fields "httpOnly"
  let sameSite ← optionalField SameSite.decode fields "sameSite"
  let priority ← optionalField Value.asStr fields "priority"
  let sourceScheme ← optionalField Value.asStr fields "sourceScheme"
  let sourcePort ← optionalField Value.asI64 fields "sourcePort"
  let partitionKey ← optionalField PartitionKey.decode fields "partitionKey"
  let partitionKeyOpaque ← defaultedField Value.asBool false fields "partitionKeyOpaque"
  return ⟨name, value, domain, path, expires, secure, httpOnly, sameSite, priority,
    sourceScheme, sourcePort, partitionKey, partitionKeyOpaque⟩

def decodeCookies (v : Value) : Option (List Cookie) := v.asArray.bind (List.mapM Cookie.decode)

inductive ProfileCdpError where
  | cdp (error : CdpError)
  | decode
  | unexpected (what : String)
  deriving DecidableEq

/-- `capture_cookies` over what its send came to and what the pipe gives after it. -/
def captureCookies (client : CdpClient) (sent : Except PipeError Unit)
    (inbound : List (Except PipeError Value)) : Except ProfileCdpError (List Cookie) :=
  match client.call "Storage.getCookies" sent inbound with
  | .error e => .error (.cdp e)
  | .ok result =>
    match decodeCookies ((result.get "cookies").getD (.arr [])) with
    | some cookies => .ok cookies
    | none => .error .decode

end BrowserServe
