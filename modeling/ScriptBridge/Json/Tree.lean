import ScriptBridge.Json.Number
import ScriptBridge.Json.Quoted

/-!
# JSON trees

A tree holds finite numbers only by convention: its writer takes any double and shows the digits
of a finite one, so whoever builds a tree decides what a number without digits becomes.
-/

namespace ScriptBridge.Json

inductive Tree where
  | null
  | bool (b : Bool)
  | number (x : Float)
  | natural (n : Nat)
  | string (s : String)
  | object (fields : List (String × Tree))
  deriving Inhabited

mutual

/-- The compact text of a tree. -/
def Tree.write : Tree → String
  | .null => "null"
  | .bool b => if b then "true" else "false"
  | .number x => numberStyle.write x
  | .natural n => toString n
  | .string s => quoted s
  | .object [] => "\x7b\x7d"
  | .object ((key, value) :: rest) =>
    "\x7b" ++ quoted key ++ ":" ++ value.write ++ Tree.writeFields rest ++ "\x7d"

/-- The fields behind the first one, each after a comma. -/
def Tree.writeFields : List (String × Tree) → String
  | [] => ""
  | (key, value) :: rest => "," ++ quoted key ++ ":" ++ value.write ++ Tree.writeFields rest

end

end ScriptBridge.Json
