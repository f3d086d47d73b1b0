import ScriptBridge.Script.Conversion
import ScriptBridge.Script.Location

/-!
# Diagnosis of thrown values

A thrown value is described by a message and, if it is an error, by the place where it was thrown.
The properties of an error are read one after the other, and since they may be script code, a read
may throw. Then the property counts as absent, and the new exception is left pending. Any other
value is converted to text; an exception on the way is dropped.
-/

namespace ScriptBridge.Script.Interp

/-- The text of a property. Undefined and null count as absent. -/
def readText? (invoke : Invoke) (id : ObjectId) (key : String) : Interp (Option String) := do
  let text ← passingOver do
    let d ← read invoke id key
    if d.isNullish then return none
    return some (← toText invoke d)
  return (text.join).bind Text.Units.toString?

/-- A property that is a text already. -/
def readString? (invoke : Invoke) (id : ObjectId) (key : String) : Interp (Option String) := do
  match ← passingOver (read invoke id key) with
  | some (.string units) => return units.toString?
  | _ => return none

/-- The line that a number stands for: fractions are dropped, and a NaN counts as zero. -/
def lineOf? (x : Float) : Option Nat :=
  if x.isNaN then some 0
  else if 0 ≤ x && x ≤ 4294967295 then some x.toUInt64.toNat
  else none

/-- A property that is the number of a line. -/
def readLine? (invoke : Invoke) (id : ObjectId) (key : String) : Interp (Option Nat) := do
  return ((← passingOver (read invoke id key)).bind Datum.number?).bind lineOf?

/-- The message of an error behind its name. -/
def headline (name : Option String) (message : String) : String :=
  match name with
  | some name =>
    if name.isEmpty then message
    else if message.isEmpty then name
    else name ++ ": " ++ message
  | none => message

/-- Describes an error. Some errors tell where they come from; for the others the stack does. -/
def diagnoseError (invoke : Invoke) (id : ObjectId) : Interp ScriptException := do
  let message := (← readText? invoke id "message").getD ""
  let message := headline (← readString? invoke id "name") message
  let file ← readString? invoke id "fileName"
  let line ← readLine? invoke id "lineNumber"
  match file, line with
  | some file, some line => return .of message (some file) line
  | _, _ =>
    match (← readText? invoke id "stack").bind fun stack ↦ Location.ofStack? stack.toList with
    | some (file, line) => return .of message (some (String.ofList file)) line
    | none => return .of message none 0

/-- The name of the type of a value. -/
def typeName (d : Datum) : Interp String := do
  match d with
  | .object id => return (← object id).typeName
  | _ => return d.typeName

/-- The text of a value that is no error, or its type between brackets. -/
def stringify (invoke : Invoke) (d : Datum) : Interp String := do
  match (← trying (toText invoke d)).bind Text.Units.toString? with
  | some text => return text
  | none =>
    let _ ← takePending
    return "[" ++ (← typeName d) ++ "]"

/-- Describes a thrown value. -/
def diagnose (invoke : Invoke) (thrown : Datum) : Interp ScriptException :=
  holding [thrown] do
    match thrown with
    | .object id =>
      if (← object id).isError then diagnoseError invoke id
      else return .of (← stringify invoke thrown) none 0
    | _ => return .of (← stringify invoke thrown) none 0

end ScriptBridge.Script.Interp
