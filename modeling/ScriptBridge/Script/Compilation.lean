import ScriptBridge.Script.Fault
import ScriptBridge.Script.Reader

/-!
# From script texts to functions

A text that is no script is refused by an error whose stack text begins with the place of the
mistake.
-/

namespace ScriptBridge.Script.Interp

variable {α : Type}

/-- Throws the error for a text that is no script. -/
def raiseMistake (file : String) (mistake : Mistake) : Interp α := do
  let message := Text.Units.ofString (Text.clip messageRoom mistake.message)
  let id ← allocate (errorObject ErrorKind.syntaxError.prototype (some message))
  let m ← get
  let place := "    at " ++ file ++ ":" ++ toString (mistake.line + 1) ++ ":2\n"
  update id fun o ↦ o.withData "stack" (.text (place ++ m.stackText m.frames)) .hidden
  raise (.object id)

/-- A function written in a script. Its prototype for instances is made when it is first looked
at. -/
def newRoutine (name : String) (routine : Routine) : Interp Datum := do
  let o := Realm.functionObject (.code routine) 0 name
  return .object (← allocate (match routine.form with
    | .standalone => o.put "prototype" ⟨.deferred, .permanent⟩
    | .member => o))

/-- The file name of functions that are made from texts. -/
def textFile : String := "<input>"

/-- A function made from the texts of its parameters and of its body. -/
def compileFunction (parameters body : String) : Interp Datum := do
  let source := "function anonymous(" ++ parameters ++ "\n) \x7b\n" ++ body ++ "\n\x7d"
  match Reader.program body with
  | .error mistake => raiseMistake textFile { mistake with line := mistake.line + 2 }
  | .ok program =>
    let lines := program.map fun (distance, s) ↦ (distance + 2, s)
    newRoutine "anonymous" ⟨textFile, 1, source, .standalone, lines⟩

end ScriptBridge.Script.Interp
