import Mathlib.Data.String.Basic

/-! JSON values as the host's JSON library represents them. -/
namespace Floatile.Core

/-- A number is an unsigned or a negative 64-bit integer, or a double. -/
inductive Number where
  | posInt (n : UInt64)
  | negInt (n : Int64)
  | float (x : Float)

/-- An object keeps its fields in increasing key order. -/
inductive Json where
  | null
  | bool (b : Bool)
  | number (n : Number)
  | string (s : String)
  | array (items : List Json)
  | object (fields : List (String × Json))

namespace Number

def asU64 : Number → Option ℕ
  | .posInt n => some n.toNat
  | _ => none

def asI64 : Number → Option ℤ
  | .posInt n => if n.toNat < 2^63 then some n.toNat else none
  | .negInt n => some n.toInt
  | .float _ => none

def asF64 : Number → Float
  | .posInt n => n.toFloat
  | .negInt n => n.toFloat
  | .float x => x

end Number

namespace Json

def asObject : Json → Option (List (String × Json))
  | .object fields => some fields
  | _ => none

def asArray : Json → Option (List Json)
  | .array items => some items
  | _ => none

def asStr : Json → Option String
  | .string s => some s
  | _ => none

def asBool : Json → Option Bool
  | .bool b => some b
  | _ => none

def asU64 : Json → Option ℕ
  | .number n => n.asU64
  | _ => none

def asF64 : Json → Option Float
  | .number n => some n.asF64
  | _ => none

def isObject : Json → Bool
  | .object _ => true
  | _ => false

def isNull : Json → Bool
  | .null => true
  | _ => false

end Json

end Floatile.Core
