import ScriptBridge.Config.Document
import ScriptBridge.Identity
import ScriptBridge.Text.Utf8

/-!
# Failures

Everything that can go wrong on the bridge is one constructor of `Failure`, with the wording in
`Failure.message`. A failed module initializer wraps the failure it ended with, and the diagnosed
exception of a script is found through any number of such wrappers.
-/

namespace ScriptBridge

/-- A script exception after it was taken off the engine and diagnosed. -/
structure ScriptException where
  message : String
  fileName : String
  /-- Counted from one; zero if the engine gave no location. -/
  line : Nat
  deriving DecidableEq, Repr

namespace ScriptException

/-- An exception whose file may be unknown or nameless. -/
def of (message : String) (file : Option String) (line : Nat) : ScriptException where
  message := message
  fileName := match file with
    | some name => if name.isEmpty then noFileName else name
    | none => noFileName
  line := line

/-- One line for the log. -/
def text (e : ScriptException) : String :=
  "ERROR: " ++ e.message ++ ", file: " ++ e.fileName ++ ", lineno: " ++ toString e.line

end ScriptException

/-- Why a source is refused before it is compiled. -/
inductive SourceDefect where
  | notUtf8 (defect : Text.Utf8.Defect)
  | nulInSource
  | nulInFileName
  | other (message : String)
  deriving DecidableEq

/-- The wording of a source defect. -/
def SourceDefect.message : SourceDefect → String
  | .notUtf8 defect => "not valid UTF-8: " ++ defect.message
  | .nulInSource => "source contains a NUL byte"
  | .nulInFileName => "file name contains a NUL byte"
  | .other message => message

/-- What can go wrong on the bridge. -/
inductive Failure where
  /-- The backend could not be set up. -/
  | setup (message : String)
  /-- The engine was cleaned up, or the backend was shut down. -/
  | notInitialized
  | duplicateInitializer
  /-- The module initializer at this position failed. -/
  | initializer (index : Nat) (source : Failure)
  | noListener
  | invalidSource (defect : SourceDefect)
  | script (exception : ScriptException)
  /-- A backend left an exception pending, which the bridge takes and diagnoses. -/
  | exceptionPending
  | unknownClass (id : ClassId)
  | unknownHandle (handle : Handle)
  | unknownNative (native : NativeId)
  | configuration (refusal : Config.Document.Refusal)
  | engine (message : String)
  deriving DecidableEq, Inhabited

namespace Failure

/-- A number in lower-case hexadecimal digits. -/
def hexadecimal (n : Nat) : String := "0x" ++ String.ofList (Nat.toDigits 16 n)

/-- The wording of a failure. -/
def message : Failure → String
  | .setup why => "failed to initialize the script runtime: " ++ why
  | .notInitialized => "script engine is not initialized"
  | .duplicateInitializer => "register callback is already registered"
  | .initializer index source =>
    "module initializer #" ++ toString index ++ " failed: " ++ source.message
  | .noListener => "no node event listener is installed"
  | .invalidSource defect => "invalid script source: " ++ defect.message
  | .script exception => exception.text
  | .exceptionPending => "a script exception is pending"
  | .unknownClass id => "unknown class ClassId(" ++ toString id.index ++ ")"
  | .unknownHandle handle =>
    "unknown object handle ObjectHandle(" ++ toString handle.index ++ ")"
  | .unknownNative native => "no script object wraps native object " ++ hexadecimal native.address
  | .configuration refusal => "invalid configuration: " ++ refusal.message
  | .engine why => "engine error: " ++ why

/-- The diagnosed exception, if the failure came from script code. -/
def scriptException? : Failure → Option ScriptException
  | .script exception => some exception
  | .initializer _ source => source.scriptException?
  | _ => none

/-- The failure is explained by another one. -/
def hasSource : Failure → Bool
  | .initializer _ _ | .configuration _ => true
  | _ => false

end Failure

end ScriptBridge
