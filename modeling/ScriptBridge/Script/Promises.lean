import ScriptBridge.Script.Diagnosis
import ScriptBridge.Script.Elements

/-!
# Promises

A promise that is rejected while nobody handles it is reported as a warning, with a diagnosis of the
reason. A handler that is added later waits to be run; nothing here runs it, but what it needs stays
alive.
-/

namespace ScriptBridge.Script

/-- A promise after its rejection. -/
def Object.rejected (o : Object) (reason : Datum) : Object :=
  match o.kind with
  | .promise _ => { o with kind := .promise (some reason) }
  | _ => o

namespace Interp

/-- Warns of a rejection that nobody handles. -/
def reportRejection (invoke : Invoke) (reason : Datum) : Interp Unit := do
  let report ← diagnose invoke reason
  emit (.log .warn (report.fileName ++ ":" ++ toString report.line ++ ":" ++ report.message))

/-- A new promise, with the reason if it is rejected. -/
def newPromise (reason : Option Datum) : Interp Datum := do
  return .object (← allocate (.empty (.promise reason) (some Realm.promisePrototype)))

/-- Rejects a promise. -/
def rejectPromise (invoke : Invoke) (id : ObjectId) (reason : Datum) : Interp Unit := do
  update id (·.rejected reason)
  holding [.object id] (reportRejection invoke reason)

/-- Makes a promise and calls its executor. Whatever that throws is the reason of a rejection;
otherwise the promise stays open. -/
def makePromise (invoke : Invoke) (newTarget : Option ObjectId) (executor : Datum) :
    Interp Datum := do
  if newTarget.isNone then raiseFault .constructorOnly
  match ← function? executor with
  | none => raiseFault .notFunction
  | some run =>
    let prototype ← prototypeFor invoke newTarget Realm.promisePrototype
    let id ← allocate (.empty (.promise none) (some prototype))
    holding [.object id] do
      if (← trying (invoke run .undefined [] none)).isNone then
        rejectPromise invoke id ((← takePending).getD .undefined)
      return .object id

/-- A rejected promise made by a constructor of promises. -/
def makeRejected (invoke : Invoke) (constructor : ObjectId) (reason : Datum) : Interp Datum := do
  if !((← object constructor).callable?).any Callable.isConstructor then
    raiseFault .notConstructor
  let made ← invoke constructor .undefined [.object Realm.functionPrototype] (some constructor)
  match made with
  | .object id =>
    match (← object id).kind with
    | .promise none =>
      rejectPromise invoke id reason
      return made
    | _ => raiseFault .notFunction
  | _ => raiseFault .notFunction

/-- Gives a promise handlers, which wait to be run if the promise is rejected. -/
def handlePromise (this : Datum) (handlers : List Datum) : Interp Datum := do
  match this with
  | .object id =>
    match (← object id).kind with
    | .promise reason =>
      let derived ← newPromise none
      match reason with
      | some reason => modify fun m ↦ { m with jobs := m.jobs ++ reason :: derived :: handlers }
      | none => pure ()
      return derived
    | _ => raiseFault .notPromise
  | _ => raiseFault .notPromise

end Interp

end ScriptBridge.Script
