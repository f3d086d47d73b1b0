import ScriptBridge.Script.Realm
import ScriptBridge.Text.Clip

/-!
# Errors raised by the machine

An error remembers the innermost frames at work when it was made, as a text with one line for each.
Messages are built in buffers of a fixed size, and so are the names of properties in them.
-/

namespace ScriptBridge.Script

namespace Machine

/-- The name of a frame in a stack text: that of the function at this moment. -/
def frameName (m : Machine) (f : Frame) : String :=
  match f.callee with
  | none => "<eval>"
  | some id =>
    match (m.object id).own? "name" with
    | some ⟨.data (.string units), _⟩ =>
      let name := (units.toString?.getD "").toList.takeWhile (· != '\x00')
      if name.isEmpty then "<anonymous>" else String.ofList name
    | _ => "<anonymous>"

/-- The line of a frame in a stack text. -/
def frameText (m : Machine) (f : Frame) : String :=
  "    at " ++ m.frameName f ++ match f.place with
    | some place => " (" ++ place.file ++ ":" ++ toString place.line ++ ":1)\n"
    | none => " (native)\n"

/-- How many frames a stack text shows. -/
def shownFrames : Nat := 10

/-- The stack text of frames. -/
def stackText (m : Machine) (frames : List Frame) : String :=
  String.join ((frames.take shownFrames).map m.frameText)

end Machine

/-- What can be wrong with what a script or native code asks for. -/
inductive Fault where
  /-- A property of undefined or null was read. -/
  | readOf (key : Option String) (nothing : String)
  /-- A property of undefined or null was assigned. -/
  | assignmentTo (key nothing : String)
  | notConvertible
  | notFunction
  | notConstructor
  | notObject
  | notOfType (type : PrimitiveType)
  | notPromise
  | invalidInstanceRight
  | prototypeNotObject
  | cyclicPrototype
  | fixedPrototype
  | readOnly (key : String)
  | notExtensible
  | noSetter
  | notConfigurable
  /-- An element that cannot be deleted keeps an array from being cut. -/
  | lastingElement
  | notDeletable
  | notGetter
  | notSetter
  | mixedDescriptor
  | noPrimitive
  | symbolToText
  | symbolToNumber
  | bigintToNumber
  | toBigint
  | boundlessToBigint
  | fractionToBigint
  | textToBigint
  | invalidParent
  | invalidParentPrototype
  | withoutNew
  | constructorOnly
  | invalidLength
  | textTooLong
  | tooManyArguments
  | undeclared (name : String)
  | notDefinable (name : String)
  | tooDeep
  deriving DecidableEq, Repr

namespace Fault

/-- The kind of error that tells of a fault. -/
def kind : Fault → ErrorKind
  | .undeclared _ => .referenceError
  | .tooDeep | .invalidLength | .textTooLong | .tooManyArguments | .boundlessToBigint
  | .fractionToBigint => .rangeError
  | .textToBigint => .syntaxError
  | _ => .typeError

/-- The bytes that a name may take in a message. -/
def nameRoom : Nat := 63

/-- The wording of a fault. -/
def message : Fault → String
  | .readOf none nothing => "cannot read property of " ++ nothing
  | .readOf (some key) nothing =>
    "cannot read property '" ++ Text.clip nameRoom key ++ "' of " ++ nothing
  | .assignmentTo key nothing =>
    "cannot set property '" ++ Text.clip nameRoom key ++ "' of " ++ nothing
  | .notConvertible => "Cannot convert undefined or null to object"
  | .notFunction => "not a function"
  | .notConstructor => "not a constructor"
  | .notObject => "not an object"
  | .notOfType .string => "not a string"
  | .notOfType .number => "not a number"
  | .notOfType .boolean => "not a boolean"
  | .notOfType .symbol => "not a symbol"
  | .notOfType .bigint => "not a BigInt"
  | .notPromise => "Promise object expected"
  | .invalidInstanceRight => "invalid 'instanceof' right operand"
  | .prototypeNotObject => "operand 'prototype' property is not an object"
  | .cyclicPrototype => "circular prototype chain"
  | .fixedPrototype =>
    "'Immutable prototype object 'Object.prototype' cannot have their prototype set'"
  | .readOnly key => "'" ++ Text.clip nameRoom key ++ "' is read-only"
  | .notExtensible => "object is not extensible"
  | .noSetter => "no setter for property"
  | .notConfigurable => "property is not configurable"
  | .lastingElement => "not configurable"
  | .notDeletable => "could not delete property"
  | .notGetter => "invalid getter"
  | .notSetter => "invalid setter"
  | .mixedDescriptor => "cannot have setter/getter and value or writable"
  | .noPrimitive => "toPrimitive"
  | .symbolToText => "cannot convert symbol to string"
  | .symbolToNumber => "cannot convert symbol to number"
  | .bigintToNumber => "cannot convert bigint to number"
  | .toBigint => "cannot convert to BigInt"
  | .boundlessToBigint => "cannot convert NaN or Infinity to BigInt"
  | .fractionToBigint => "cannot convert to BigInt: not an integer"
  | .textToBigint => "invalid bigint literal"
  | .invalidParent => "parent class must be constructor"
  | .invalidParentPrototype => "parent prototype must be an object or null"
  | .withoutNew => "class constructors must be invoked with 'new'"
  | .constructorOnly => "must be called with new"
  | .invalidLength => "invalid array length"
  | .textTooLong => "invalid string length"
  | .tooManyArguments => "too many arguments in function call (only 65534 allowed)"
  | .undeclared name => Text.clip nameRoom name ++ " is not defined"
  | .notDefinable name => "cannot define variable '" ++ Text.clip nameRoom name ++ "'"
  | .tooDeep => "Maximum call stack size exceeded"

end Fault

/-- An error that remembers no frames. -/
def errorObject (prototype : ObjectId) (message : Option Text.Units) : Object :=
  let o := Object.empty .error (some prototype)
  match message with
  | some units => o.withData "message" (.string units) .hidden
  | none => o

namespace Interp

variable {α : Type}

/-- Lets an error remember frames. -/
def addStack (id : ObjectId) (frames : List Frame) : Interp Unit := do
  let stack ← view (·.stackText frames)
  update id fun o ↦ o.withData "stack" (.text stack) .hidden

/-- An error with a message, which remembers frames. -/
def newError (prototype : ObjectId) (message : Option Text.Units) (frames : List Frame) :
    Interp ObjectId := do
  let id ← allocate (errorObject prototype message)
  addStack id frames
  return id

/-- The bytes that the message of an error raised by the machine may take. -/
def messageRoom : Nat := 255

/-- Throws an error of a kind. -/
def raiseError (kind : ErrorKind) (message : String) : Interp α := do
  let units := Text.Units.ofString (Text.clip messageRoom message)
  raise (.object (← newError kind.prototype (some units) (← get).frames))

/-- Throws the error that tells of a fault. -/
def raiseFault (fault : Fault) : Interp α := raiseError fault.kind fault.message

/-- Throws a value. An error that remembers no frames yet remembers those at work in scripts
now. -/
def raiseDatum (thrown : Datum) : Interp α := do
  match thrown with
  | .object id =>
    let o ← object id
    if o.isError && (o.own? "stack").isNone && o.extensible then
      let frames := (← get).frames.dropWhile (·.place.isNone)
      unless frames.isEmpty do addStack id frames
  | _ => pure ()
  raise thrown

end Interp

end ScriptBridge.Script
