import ScriptBridge.Script.Compilation
import ScriptBridge.Script.Construction
import ScriptBridge.Script.Promises

/-!
# The functions that every script finds

What the intrinsic functions do. Two of them reach native code: `log` writes a line, and `forceGC`
collects at once and asks for the collection to be reported.
-/

namespace ScriptBridge.Script

/-- The function shows in stack texts. Those that lead to native code do not. -/
def Intrinsic.isShown : Intrinsic → Bool
  | .log | .forceCollection => false
  | _ => true

namespace Interp

/-- The strings that native code is given for values. -/
def toStrings (invoke : Invoke) : List Datum → Interp (List String)
  | [] => return []
  | d :: rest => do
    match (← toText invoke d).decode with
    | .error place => raiseError .typeError (loneSurrogate place)
    | .ok s => return s :: (← toStrings invoke rest)

/-- The class name that the text of an object shows if it is given no other. -/
def shownClass (o : Object) : String :=
  match o.kind with
  | .array => "Array"
  | .error => "Error"
  | .function _ => "Function"
  | .wrapper value =>
    match value.primitiveType? with
    | some .string => "String"
    | some .number => "Number"
    | some .boolean => "Boolean"
    | _ => "Object"
  | .ordinary | .promise _ | .carrier _ => "Object"

/-- The text of a value that knows nothing better. -/
def objectText (this : Datum) : Interp Datum := do
  let shown ← match this with
    | .undefined => pure "Undefined"
    | .null => pure "Null"
    | _ => do
      let id ← toObject this
      let m ← get
      pure (((m.chain id).findSome? fun p ↦ (m.object p).tag).getD (shownClass (m.object id)))
  return .text ("[object " ++ shown ++ "]")

/-- The text of a property, or another text if it is undefined. -/
def textAt (invoke : Invoke) (id : ObjectId) (key : String) (absent : Text.Units) :
    Interp Text.Units := do
  let d ← read invoke id key
  if d = .undefined then return absent else toText invoke d

/-- The source of a function. That of a native one is a placeholder with its name. -/
def sourceText (invoke : Invoke) (id : ObjectId) (callable : Callable) : Interp Datum := do
  match callable with
  | .code routine => return .text routine.source
  | .derived _ _ base => return .text ("class extends " ++ base ++ " \x7b\x7d")
  | .intrinsic _ | .native _ =>
    let name ← textAt invoke id "name" []
    return .string (.ofString "function " ++ name ++ .ofString "() \x7b\n    [native code]\n\x7d")

/-- The text of an error: its name and its message. -/
def errorText (invoke : Invoke) (id : ObjectId) : Interp Datum := do
  let name ← textAt invoke id "name" (.ofString "Error")
  let message ← textAt invoke id "message" []
  if name.isEmpty then return .string message
  if message.isEmpty then return .string name
  return .string (name ++ .ofString ": " ++ message)

/-- The message of an error, unless that is undefined. -/
def messageOf (invoke : Invoke) (message : Datum) : Interp (Option Text.Units) :=
  if message = .undefined then return none else some <$> toText invoke message

/-- Gives an error a cause, if the options name one. -/
def addCause (invoke : Invoke) (id : ObjectId) (options : Datum) : Interp Unit := do
  match options with
  | .object options =>
    match ← field? invoke options "cause" with
    | some cause => update id fun o ↦ o.withData "cause" cause .hidden
    | none => pure ()
  | _ => pure ()

/-- Makes an error. The frame of the constructor, which is on top, is not remembered. -/
def makeError (invoke : Invoke) (prototype : ObjectId) (newTarget : Option ObjectId)
    (message options : Datum) : Interp Datum := do
  let prototype ← holding [.object prototype] (prototypeFor invoke newTarget prototype)
  let message ← holding [.object prototype] (messageOf invoke message)
  let id ← allocate (errorObject prototype message)
  holding [.object id] do
    addCause invoke id options
    addStack id (← get).frames.tail
    return .object id

/-- A new symbol. -/
def newSymbol (description : Option Text.Units) : Interp Datum := do
  let number ← modifyGet fun m ↦ (m.nextSymbol, { m with nextSymbol := m.nextSymbol + 1 })
  return .symbol number description

/-- The big integer that a primitive value stands for. -/
def toBigint : Datum → Except Fault Int
  | .bigint n => .ok n
  | .boolean b => .ok (if b then 1 else 0)
  | .integer n => .ok n.toInt
  | .double x =>
    if !Decimal.isFinite x then .error .boundlessToBigint
    else if x.floor == x then .ok (Decimal.whole x)
    else .error .fractionToBigint
  | .string units =>
    match units.toString?.bind fun s ↦ NumericText.whole? s.toList with
    | some n => .ok n
    | none => .error .textToBigint
  | _ => .error .toBigint

/-- The primitive value that a constructor of a type makes of arguments. -/
def primitiveOf (invoke : Invoke) (type : PrimitiveType) (isPlainCall : Bool)
    (arguments : List Datum) : Interp Datum := do
  match type, arguments with
  | .string, [] => return .text ""
  | .string, .symbol number description :: _ =>
    if isPlainCall then return .string (symbolText description)
    else return .string (← toText invoke (.symbol number description))
  | .string, d :: _ => return .string (← toText invoke d)
  | .number, [] => return .integer 0
  | .number, d :: _ =>
    match ← toNumeric invoke d with
    | .bigint n => return .ofInt n
    | number => return number
  | .boolean, _ => return .boolean (arguments.headD .undefined).isTruthy
  | .symbol, _ =>
    match arguments.headD .undefined with
    | .undefined => newSymbol none
    | d => newSymbol (some (← toText invoke d))
  | .bigint, _ => do
    let d ← toPrimitive invoke (arguments.headD .undefined) .number
    return .bigint (← orRaise (toBigint d))

/-- Makes a primitive value, or in case of a construction an object that wraps it. Symbols and big
integers are not constructed. -/
def makePrimitive (invoke : Invoke) (type : PrimitiveType) (newTarget : Option ObjectId)
    (arguments : List Datum) : Interp Datum := do
  match newTarget with
  | none => primitiveOf invoke type true arguments
  | some _ =>
    if type = .symbol ∨ type = .bigint then raiseFault .notConstructor
    let value ← primitiveOf invoke type false arguments
    let prototype ← prototypeFor invoke newTarget type.prototype
    return .object (← allocate (Realm.wrapperObject prototype value))

/-- The primitive value of a type that a receiver is or wraps. -/
def thisPrimitive (type : PrimitiveType) (this : Datum) : Interp Datum := do
  let value ← match this with
    | .object id => do
      match (← object id).kind with
      | .wrapper value => pure value
      | _ => pure this
    | _ => pure this
  if value.primitiveType? = some type then return value else raiseFault (.notOfType type)

/-- The prototype of any value. -/
def prototypeOf (d : Datum) : Interp Datum := do
  match d with
  | .object id => return ((← object id).prototype.map Datum.object).getD .null
  | _ =>
    match d.primitiveType? with
    | some type => return .object type.prototype
    | none => raiseFault .notObject

/-- Makes a function from texts, of which the last one is its body. -/
def makeFunction (invoke : Invoke) (newTarget : Option ObjectId) (arguments : List Datum) :
    Interp Datum := do
  let texts ← toStrings invoke arguments
  let made ← compileFunction (",".intercalate texts.dropLast) (texts.getLast?.getD "")
  match made with
  | .object id => holding [made] do
    setPrototype id (some (← prototypeFor invoke newTarget Realm.functionPrototype))
  | _ => pure ()
  return made

/-- Runs an intrinsic function. -/
def runIntrinsic (invoke : Invoke) (which : Intrinsic) (this : Datum) (arguments : List Datum)
    (newTarget : Option ObjectId) : Interp Datum := do
  let argument (i : Nat) : Datum := arguments.getD i .undefined
  let first := argument 0
  match which with
  | .ignore => return .undefined
  | .objectConstructor =>
    if newTarget.all (· = Realm.function .objectConstructor) && !first.isNullish then
      return .object (← toObject first)
    else
      let prototype ← prototypeFor invoke newTarget Realm.objectPrototype
      return .object (← allocate (.empty .ordinary (some prototype)))
  | .objectKeys =>
    let id ← toObject first
    settleProperty id "prototype"
    newArray ((← object id).enumerableKeys.map .text)
  | .objectGetPrototypeOf => prototypeOf first
  | .objectFreeze =>
    match first with
    | .object id => freeze id
    | _ => pure ()
    return first
  | .objectDefineProperty =>
    match first with
    | .object id =>
      let key ← toKey invoke (argument 1)
      match argument 2 with
      | .object description =>
        let descriptor ← toDescriptor invoke description
        touch key
        defineOrThrow invoke id key descriptor
        return first
      | _ => raiseFault .notObject
    | _ => raiseFault .notObject
  | .objectToString => objectText this
  | .objectValueOf => return .object (← toObject this)
  | .prototypeGetter => prototypeOf (.object (← toObject this))
  | .prototypeSetter =>
    if this.isNullish then raiseFault .notObject
    match this, first with
    | .object id, .object p => setPrototype id (some p)
    | .object id, .null => setPrototype id none
    | _, _ => pure ()
    return .undefined
  | .functionConstructor => makeFunction invoke newTarget arguments
  | .functionToString =>
    match this with
    | .object id =>
      match (← object id).callable? with
      | some callable => sourceText invoke id callable
      | none => raiseFault .notFunction
    | _ => raiseFault .notFunction
  | .arrayConstructor => makeArray invoke newTarget arguments
  | .arrayJoin =>
    let id ← toObject this
    return .string (← holding [.object id] (joinElements invoke id first))
  | .arrayToString =>
    let id ← toObject this
    holding [.object id] do
      match ← function? (← read invoke id "join") with
      | some join => invoke join (.object id) [] none
      | none => objectText (.object id)
  | .errorConstructor prototype => makeError invoke prototype newTarget first (argument 1)
  | .errorToString =>
    match this with
    | .object id => errorText invoke id
    | _ => raiseFault .notObject
  | .primitiveConstructor type => makePrimitive invoke type newTarget arguments
  | .primitiveToString type =>
    match ← thisPrimitive type this with
    | .symbol _ description => return .string (symbolText description)
    | value => return .string (← primitiveText value)
  | .primitiveValueOf type => thisPrimitive type this
  | .symbolDescription =>
    match ← thisPrimitive .symbol this with
    | .symbol _ (some description) => return .string description
    | _ => return .undefined
  | .promiseConstructor => makePromise invoke newTarget first
  | .promiseReject =>
    match this with
    | .object constructor => makeRejected invoke constructor first
    | _ => raiseFault .notObject
  | .promiseThen =>
    let handlers ← [first, argument 1].filterMapM function?
    handlePromise this (handlers.map Datum.object)
  | .promiseCatch =>
    match ← function? (← readOf invoke this "then" (some "then")) with
    | some next => invoke next this [.undefined, first] none
    | none => raiseFault .notFunction
  | .reflectApply =>
    match ← function? first, argument 2 with
    | none, _ => raiseFault .notFunction
    | some id, .object list => invoke id (argument 1) (← argumentsOf invoke list) none
    | some _, _ => raiseFault .notObject
  | .log =>
    let texts ← toStrings invoke arguments
    emit (.log .debug ("JS: " ++ " ".intercalate texts))
    return .undefined
  | .forceCollection =>
    modify Machine.force
    return .undefined

end Interp

end ScriptBridge.Script
