import ScriptBridge.Json.Tree
import ScriptBridge.Value.Basic

/-!
# JSON forms of values

A value has two JSON forms: the tree `Value.toJson`, and the text `Value.serialized` that is
written without a tree in between. Handles become an object with the key `$handle`; undefined and
numbers without digits become `null`.
-/

namespace ScriptBridge.Value

open Json

/-- The key under which a handle's index stands. -/
def handleKey : String := "$handle"

/-- The JSON tree of a value. -/
def toJson : Value → Tree
  | .undefined | .null => .null
  | .boolean b => .bool b
  | .number x => if Decimal.isFinite x then .number x else .null
  | .string s => .string s
  | .object h => .object [(handleKey, .natural h.index)]

/-- The JSON text of a value. -/
def serialized : Value → String
  | .undefined | .null => "null"
  | .boolean true => "true"
  | .boolean false => "false"
  | .number x => if Decimal.isFinite x then Json.numberStyle.write x else "null"
  | .string s => quoted s
  | .object h => "\x7b" ++ quoted handleKey ++ ":" ++ toString h.index ++ "\x7d"

end ScriptBridge.Value
