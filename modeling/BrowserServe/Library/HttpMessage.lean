import BrowserServe.Library.HttpHead

namespace BrowserServe.Library
set_option autoImplicit true

/-- The values of the fields with a name, in their order. -/
def fieldValues (name : Text) (fields : List (Text × List UInt8)) : List (List UInt8) :=
  (fields.filter fun field => eqIgnoreAsciiCase field.1 name).map Prod.snd

def isFieldSpace (b : UInt8) : Bool := b = 32 || b = 9

/-- A decimal number, with blanks around it. -/
def decimalValue (value : List UInt8) : Option Nat :=
  let digits := ((value.dropWhile isFieldSpace).reverse.dropWhile isFieldSpace).reverse
  if digits ≠ [] ∧ digits.all fun d => 48 ≤ d ∧ d ≤ 57 then
    some (digits.foldl (fun n d => 10 * n + (d.toNat - 48)) 0)
  else none

/-- How long the body after a request head is: as long as `Content-Length` says, empty where nothing
is said of it. -/
def bodyLength (fields : List (Text × List UInt8)) : Option Nat :=
  match fieldValues (text "transfer-encoding") fields,
    fieldValues (text "content-length") fields with
  | [], [] => some 0
  | [], value :: values => if values.all (· == value) then decimalValue value else none
  | _ :: _, _ => none

def PlainHead.bodyLength (head : PlainHead) : Option Nat :=
  Library.bodyLength (head.fields.map fun field => (fromUtf8Lossy field.1, field.2))

theorem fieldValues_append (name : Text) (fields more : List (Text × List UInt8)) :
    fieldValues name (fields ++ more) = fieldValues name fields ++ fieldValues name more := by
  rw [fieldValues, List.filter_append, List.map_append]
  rfl

theorem fieldValues_of_keep {fields : List (Text × List UInt8)} {p : Text × List UInt8 → Bool}
    (h : ∀ field ∈ fields, eqIgnoreAsciiCase field.1 name = true → p field = true) :
    fieldValues name (fields.filter p) = fieldValues name fields := by
  rw [fieldValues, List.filter_filter, fieldValues]
  congr 1
  apply List.filter_congr
  intro field hfield
  rw [Bool.and_eq_left_iff_imp]
  exact h field hfield

theorem fieldValues_of_drop {fields : List (Text × List UInt8)} {p : Text × List UInt8 → Bool}
    (h : ∀ field ∈ fields, eqIgnoreAsciiCase field.1 name = true → p field = false) :
    fieldValues name (fields.filter p) = [] := by
  rw [fieldValues, List.map_eq_nil_iff, List.filter_eq_nil_iff]
  intro field hfield hname
  obtain ⟨hmem, hkept⟩ := List.mem_filter.1 hfield
  rw [h field hmem hname] at hkept
  cases hkept

/-- A head of which the length of the body is known does not cut it up in another way. -/
theorem fieldValues_of_bodyLength (h : bodyLength fields = some length) :
    fieldValues (text "transfer-encoding") fields = [] := by
  unfold bodyLength at h
  split at h
  · assumption
  · assumption
  · cases h

theorem bodyLength_congr {fields more : List (Text × List UInt8)}
    (h : fieldValues (text "transfer-encoding") fields =
        fieldValues (text "transfer-encoding") more)
    (h' : fieldValues (text "content-length") fields = fieldValues (text "content-length") more) :
    bodyLength fields = bodyLength more := by
  rw [bodyLength, h, h', bodyLength]

/-- Without a length a body is empty. -/
theorem bodyLength_of_nil (h : fieldValues (text "transfer-encoding") fields = [])
    (h' : fieldValues (text "content-length") fields = []) : bodyLength fields = some 0 := by
  rw [bodyLength, h, h']

end BrowserServe.Library
