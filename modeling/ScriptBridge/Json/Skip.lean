import ScriptBridge.Json.NumberReader
import ScriptBridge.Json.StringReader

/-!
# Passing over a value

A value of no interest is checked for its form only. The brackets that are still open are kept in
a list, so values may be nested to any depth. Reading alternates between two phases: a value is
about to begin, or one has just ended inside the innermost open bracket.
-/

namespace ScriptBridge.Json

/-- An open bracket. -/
inductive Bracket where
  | list
  | object
  deriving DecidableEq, Repr

namespace Reader

/-- Passes over a key and the colon behind it. -/
def ignoreKey : Reader Unit := do
  match ← peekPastBlanks with
  | some '"' => ignoreString
  | some _ => failNext .keyNotString
  | none => failNext .endInObject
  match ← peekPastBlanks with
  | some ':' => advance
  | some _ => failNext .expectedColon
  | none => failNext .endInObject

/-- Passes over a value without brackets, or over an opening bracket, which is returned. -/
def ignoreStart : Reader (Option Bracket) := do
  match ← peekPastBlanks with
  | none => failNext .endInValue
  | some 'n' => do advance; word ['u', 'l', 'l']; pure none
  | some 't' => do advance; word ['r', 'u', 'e']; pure none
  | some 'f' => do advance; word ['a', 'l', 's', 'e']; pure none
  | some '-' => do advance; ignoreNumber; pure none
  | some '"' => do ignoreString; pure none
  | some '[' => do advance; pure (some .list)
  | some '{' => do advance; pure (some .object)
  | some c => if isDigit c then do ignoreNumber; pure none else failNext .expectedValue

/-- What comes next inside the innermost open bracket. -/
inductive Next where
  /-- An element or a field. -/
  | item
  /-- The bracket was closed. -/
  | closed
  deriving DecidableEq

/-- Reads on inside a bracket, behind an item or at its beginning. -/
def ignoreSeparator (bracket : Bracket) (behindItem : Bool) : Reader Next := do
  match ← peekPastBlanks with
  | none => failNext (match bracket with | .list => .endInList | .object => .endInObject)
  | some c =>
    if c = ',' ∧ behindItem then do advance; pure .item
    else if c = (match bracket with | .list => ']' | .object => '}') then do advance; pure .closed
    else if behindItem then
      failNext (match bracket with | .list => .expectedListEnd | .object => .expectedObjectEnd)
    else pure .item

/-- Passes over values until every bracket of the list is closed. With `behindItem` an item of the
innermost bracket has just ended, otherwise the bracket has just been opened. The fuel bounds the
number of characters left. -/
def ignoreInside : Nat → Bool → List Bracket → Reader Unit
  | 0, _, _ => failNext .endInValue
  | _ + 1, _, [] => pure ()
  | fuel + 1, behindItem, bracket :: outer => do
    match ← ignoreSeparator bracket behindItem with
    | .closed => ignoreInside fuel true outer
    | .item => do
      if bracket = .object then ignoreKey
      match ← ignoreStart with
      | none => ignoreInside fuel true (bracket :: outer)
      | some inner => ignoreInside fuel false (inner :: bracket :: outer)

/-- Passes over one value of any nesting. -/
def ignoreValue : Reader Unit := do
  match ← ignoreStart with
  | none => pure ()
  | some bracket => do
    let s ← get
    ignoreInside (s.length + 2) false [bracket]

end Reader

end ScriptBridge.Json
