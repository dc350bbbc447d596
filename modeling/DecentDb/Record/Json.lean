import Mathlib.Data.List.Basic

/-! JSON values as the engine passes them between replicas and to watchers. -/

namespace DecentDb

/-- A number is kept as its literal; the keys of an object are distinct. -/
inductive Json where
  | null
  | bool (value : Bool)
  | number (literal : String)
  | string (value : String)
  | array (elements : List Json)
  | object (fields : List (String × Json))

def Json.asObject : Json → Option (List (String × Json))
  | .object fields => some fields
  | _ => none

end DecentDb
