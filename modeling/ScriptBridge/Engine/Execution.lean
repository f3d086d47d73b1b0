import ScriptBridge.Engine.Basic

/-!
# Running scripts

A buffer is run only if it is UTF-8 without NUL. Whatever the script throws is taken off the
backend, logged and returned as a failure. A script that completes with undefined or null has no
value.
-/

namespace ScriptBridge.Engine

variable {σ : Type} [Backend σ]

/-- Takes the pending exception, if there is one, and logs it. -/
def clearException : Action σ (Option ScriptException) := do
  match ← ask? .takePending Backend.takePending with
  | some (some exception) =>
    emit (.log .error exception.text)
    return some exception
  | _ => return none

/-- The file name that a script runs under. -/
def fileName (e : Engine σ) : Option String → String
  | some name => if name.isEmpty then e.config.defaultFileName else name
  | none => e.config.defaultFileName

/-- The exception of a script that left none behind. -/
def uncaught (file : String) : ScriptException := .of "uncaught exception" (some file) 0

/-- Runs a source. -/
def executeSource (source : Script.Source) (file : Option String) : Attempt σ (Option Value) := do
  let file := (← get).fileName file
  let call := askReporting? (.evaluate source file) (Backend.evaluate source file)
  match answer (← surely call) with
  | .ok value => return if value.isNullish then none else some value
  | .error .exceptionPending =>
    throw (.script ((← surely clearException).getD (uncaught file)))
  | .error failure =>
    let _ ← surely clearException
    throw failure

/-- The characters of a source buffer. -/
def decodeSource (bytes : List UInt8) : Except Failure String :=
  match Text.Utf8.decode bytes with
  | .error defect => .error (.invalidSource (.notUtf8 defect))
  | .ok chars =>
    if chars.contains '\x00' then .error (.invalidSource .nulInSource)
    else .ok (String.ofList chars)

/-- Runs a source buffer. -/
def executeBuffer (bytes : List UInt8) (file : Option String) : Attempt σ (Option Value) := do
  let source ← ExceptT.mk (pure (decodeSource bytes))
  executeSource (.text source) file

/-- Runs a source under the default file name. -/
def execute (source : String) : Attempt σ (Option Value) :=
  executeBuffer source.toUTF8.toList none

/-- Reads a property. -/
def getProperty (target : Handle) (key : String) : Attempt σ Value :=
  ask (.getProperty target key) (Backend.getProperty target key)

/-- Writes a property. -/
def setProperty (target : Handle) (key : String) (value : Value) : Attempt σ Unit :=
  ask (.setProperty target key value) (Backend.setProperty target key value)

/-- The bridge itself owns the handle. -/
def owns (e : Engine σ) (handle : Handle) : Bool :=
  e.global == some handle || (e.registry.findByHandle? handle).isSome

/-- Gives back the handle of a value, unless the bridge owns it. -/
def releaseValue (value : Value) : Action σ Unit := do
  match value.asObject? with
  | none => return
  | some handle =>
    if (← get).owns handle then return
    let _ ← ask? (.release handle) (Backend.release handle)

end ScriptBridge.Engine
