import Mathlib.Data.List.Basic

namespace NacPlatform

/-- `serde_json::Number`. -/
inductive JsonNumber where
  | posInt (n : Nat)
  | negInt (n : Nat)
  | float (text : String)
  deriving DecidableEq, Repr

/-- `serde_json::Value`. The keys of an object are distinct, as those of a `serde_json::Map`. -/
inductive Json where
  | null
  | bool (b : Bool)
  | number (n : JsonNumber)
  | string (s : String)
  | array (elems : List Json)
  | object (fields : List (String × Json))
  deriving Repr

namespace Json

def asString : Json → Option String
  | string s => some s
  | _ => none

def asBool : Json → Option Bool
  | bool b => some b
  | _ => none

/-- A value read as `Vec<String>`. -/
def asStrings : Json → Option (List String)
  | array elems => elems.mapM asString
  | _ => none

end Json

end NacPlatform
