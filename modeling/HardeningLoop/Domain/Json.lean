import Mathlib.Data.Rat.Defs

/-!
# JSON values

The structured outputs and OpenVEX documents the controller stores are JSON; the orchestrator reads them key by key.
-/

namespace HardeningLoop

inductive Json where
  | null
  | bool (b : Bool)
  | num (n : Rat)
  | str (s : String)
  | arr (items : List Json)
  | obj (fields : List (String × Json))

namespace Json

/-- `value.get(key)` of a dictionary; `none` for a missing key and for a value that is not a dictionary. -/
def get? : Json → String → Option Json
  | .obj fields, key => (fields.find? fun kv => kv.1 == key).map Prod.snd
  | _, _ => none

/-- `isinstance(value, str)`. -/
def str? : Json → Option String
  | .str s => some s
  | _ => none

/-- `isinstance(value, list)`. -/
def arr? : Json → Option (List Json)
  | .arr items => some items
  | _ => none

/-- `isinstance(value, dict)`. -/
def isObj : Json → Bool
  | .obj _ => true
  | _ => false

/-- The text under a key, when it is text. -/
def getStr? (doc : Json) (key : String) : Option String := (doc.get? key).bind str?

/-- `bool(value)`. -/
def truthy : Json → Bool
  | .null => false
  | .bool b => b
  | .num n => n ≠ 0
  | .str s => s ≠ ""
  | .arr items => !items.isEmpty
  | .obj fields => !fields.isEmpty

/-- `value or default`. -/
def orElse (value default : Json) : Json := if value.truthy then value else default

end Json

end HardeningLoop
