import ScriptBridge.Script.Conversion
import ScriptBridge.Script.Memory

/-!
# Instances of native classes

The constructor of a native class makes an ordinary object whose prototype is that of the function
`new` was applied to, and lets native code build a payload from the arguments. These are handed
over one by one: an argument that is an object is given its handle before the next one is looked at,
which may run scripts. The handles are taken back whatever becomes of the construction.
-/

namespace ScriptBridge.Script

/-- Puts the carrier of a payload at a new place. -/
def Machine.carry (payload : Payload) (m : Machine) : ObjectId × Machine :=
  let (id, after) := m.allocate (.empty (.carrier payload) (some Realm.carrierPrototype))
  (id, { after with ledger := { m.ledger with made := m.ledger.made ++ [(id, payload)] } })

namespace Interp

/-- Attaches a payload to an object, in place of the one before. -/
def attachPayload (invoke : Invoke) (id : ObjectId) (payload : Payload) : Interp Unit := do
  let carrier ← modifyGet (Machine.carry payload)
  defineOrThrow invoke id payloadKey { value := some (.object carrier), configurable := some true }
  modify fun m ↦ { m with ledger := { m.ledger with given := m.ledger.given ++ [(id, carrier)] } }

/-- Lets native code build a payload. -/
def buildPayload (invoke : Invoke) (spec : NativeClass) (constructor : NativeConstructor)
    (arguments : List Datum) : Interp (Except Failure (Option String)) := do
  let (values, failure) ← handOverAll invoke arguments
  let result ← match failure with
    | some failure => pure (.error failure)
    | none => do
      emit (.construct spec.name values)
      pure (constructor values)
  modify (Machine.retire (values.filterMap Value.asObject?))
  return result

/-- Throws the error that tells of a failure of native code. Its message is assigned. -/
def raiseFailure (invoke : Invoke) (message : String) : Interp Datum := do
  let id ← allocate (.empty .error (some ErrorKind.error.prototype))
  holding [.object id] (assignOrThrow invoke id "message" (.text message))
  raiseDatum (.object id)

/-- The function that an instance is made for: the one `new` was applied to or, in a plain call, the
receiver. -/
def constructionTarget (this : Datum) (newTarget : Option ObjectId) : Interp (Option ObjectId) :=
  match newTarget with
  | some target => return some target
  | none => function? this

/-- Makes an instance of a native class. -/
def constructNative (invoke : Invoke) (spec : NativeClass) (this : Datum)
    (newTarget : Option ObjectId) (arguments : List Datum) : Interp Datum := do
  match ← constructionTarget this newTarget with
  | none =>
    let message := "class constructor " ++ spec.name ++ " cannot be invoked without 'new'"
    raiseError .typeError message
  | some target =>
    match (← read invoke target "prototype").optionalObject with
    | .error why => raiseError .typeError why
    | .ok prototype =>
      let made ← allocate (.empty .ordinary prototype)
      holding [.object made] do
        match spec.constructor with
        | none => return .object made
        | some constructor =>
          match ← buildPayload invoke spec constructor arguments with
          | .error failure => raiseFailure invoke (spec.name ++ ": " ++ failure.message)
          | .ok none => return .object made
          | .ok (some text) =>
            attachPayload invoke made ⟨text, spec.finalizer⟩
            return .object made

end Interp

end ScriptBridge.Script
