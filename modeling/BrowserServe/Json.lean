import Mathlib.Algebra.Ring.Int.Defs
import Mathlib.Data.List.Basic

namespace BrowserServe
set_option autoImplicit true

/-- A JSON document as `serde_json` holds it; a float is `mantissa * 10 ^ exponent`. -/
inductive Value where
  | null
  | bool (b : Bool)
  | int (n : Int)
  | float (mantissa exponent : Int)
  | str (s : String)
  | arr (items : List Value)
  | obj (fields : List (String × Value))

def Value.get (key : String) : Value → Option Value
  | .obj fields => fields.lookup key
  | _ => none

def Value.asU64 : Value → Option Nat
  | .int n => if 0 ≤ n then some n.toNat else none
  | _ => none

def Value.asI64 : Value → Option Int
  | .int n => if n < 2 ^ 63 then some n else none
  | _ => none

def Value.asStr : Value → Option String
  | .str s => some s
  | _ => none

def Value.asBool : Value → Option Bool
  | .bool b => some b
  | _ => none

def Value.asArray : Value → Option (List Value)
  | .arr items => some items
  | _ => none

end BrowserServe
