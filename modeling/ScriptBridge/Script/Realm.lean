import ScriptBridge.Script.Machine

/-!
# What every script finds

The global object, the prototypes and the functions of a fresh machine stand at fixed places of the
heap. The machine itself holds on to the global object, to the prototypes it gives to new objects
and to a few constructors; everything else lives only as long as something refers to it.
-/

namespace ScriptBridge.Script

/-- The kinds of errors that the machine knows. -/
inductive ErrorKind where
  | error
  | evalError
  | internalError
  | rangeError
  | referenceError
  | syntaxError
  | typeError
  | uriError
  deriving DecidableEq, Repr

namespace ErrorKind

/-- The name of a kind, which is also that of its constructor. -/
def name : ErrorKind → String
  | .error => "Error"
  | .evalError => "EvalError"
  | .internalError => "InternalError"
  | .rangeError => "RangeError"
  | .referenceError => "ReferenceError"
  | .syntaxError => "SyntaxError"
  | .typeError => "TypeError"
  | .uriError => "URIError"

def all : List ErrorKind :=
  [.error, .evalError, .internalError, .rangeError, .referenceError, .syntaxError, .typeError,
    .uriError]

/-- The prototype of errors of a kind. -/
def prototype : ErrorKind → ObjectId
  | .error => ⟨10⟩
  | .evalError => ⟨11⟩
  | .internalError => ⟨12⟩
  | .rangeError => ⟨13⟩
  | .referenceError => ⟨14⟩
  | .syntaxError => ⟨15⟩
  | .typeError => ⟨16⟩
  | .uriError => ⟨17⟩

end ErrorKind

namespace PrimitiveType

def all : List PrimitiveType := [.string, .number, .boolean, .symbol, .bigint]

/-- The name of the constructor for a type. -/
def name : PrimitiveType → String
  | .string => "String"
  | .number => "Number"
  | .boolean => "Boolean"
  | .symbol => "Symbol"
  | .bigint => "BigInt"

/-- The prototype that values of a type, and the objects that wrap them, read properties from. -/
def prototype : PrimitiveType → ObjectId
  | .string => ⟨5⟩
  | .number => ⟨6⟩
  | .boolean => ⟨7⟩
  | .symbol => ⟨8⟩
  | .bigint => ⟨9⟩

end PrimitiveType

/-- The type of a value that can be wrapped. -/
def Datum.primitiveType? : Datum → Option PrimitiveType
  | .boolean _ => some .boolean
  | .integer _ | .double _ => some .number
  | .string _ => some .string
  | .symbol _ _ => some .symbol
  | .bigint _ => some .bigint
  | .undefined | .null | .object _ => none

namespace Realm

def globalObject : ObjectId := ⟨0⟩
def objectPrototype : ObjectId := ⟨1⟩
def functionPrototype : ObjectId := ⟨2⟩
def arrayPrototype : ObjectId := ⟨3⟩
def promisePrototype : ObjectId := ⟨4⟩

/-- The name of a function, the number of its parameters and what it does, by the place. -/
def functions : List (String × Nat × Intrinsic) :=
  [("Object", 1, .objectConstructor),
    ("keys", 1, .objectKeys),
    ("getPrototypeOf", 1, .objectGetPrototypeOf),
    ("freeze", 1, .objectFreeze),
    ("defineProperty", 3, .objectDefineProperty),
    ("toString", 0, .objectToString),
    ("valueOf", 0, .objectValueOf),
    ("get __proto__", 0, .prototypeGetter),
    ("set __proto__", 1, .prototypeSetter),
    ("Function", 1, .functionConstructor),
    ("toString", 0, .functionToString),
    ("Array", 1, .arrayConstructor),
    ("join", 1, .arrayJoin),
    ("toString", 0, .arrayToString),
    ("toString", 0, .errorToString),
    ("get description", 0, .symbolDescription),
    ("Promise", 1, .promiseConstructor),
    ("reject", 1, .promiseReject),
    ("then", 2, .promiseThen),
    ("catch", 1, .promiseCatch),
    ("apply", 3, .reflectApply),
    ("log", 0, .log),
    ("forceGC", 0, .forceCollection)] ++
  PrimitiveType.all.flatMap (fun type ↦
    [(type.name, if type = .symbol then 0 else 1, .primitiveConstructor type),
      ("toString", if type = .number then 1 else 0, .primitiveToString type),
      ("valueOf", 0, .primitiveValueOf type)]) ++
  ErrorKind.all.map fun kind ↦ (kind.name, 1, .errorConstructor kind.prototype)

/-- The place of the first function. -/
def firstFunction : Nat := 18

/-- The place of a function. -/
def function (which : Intrinsic) : ObjectId :=
  ⟨firstFunction + functions.findIdx fun (_, _, i) ↦ i = which⟩

/-- The object with the functions on reflection. -/
def reflect : ObjectId := ⟨firstFunction + functions.length⟩

/-- The prototype of the carriers of payloads. -/
def carrierPrototype : ObjectId := ⟨firstFunction + functions.length + 1⟩

/-- The place of the first object that a script makes. -/
def size : Nat := firstFunction + functions.length + 2

/-- Adds functions that loops do not meet. -/
def withFunctions (o : Object) (entries : List (String × Intrinsic)) : Object :=
  entries.foldl (fun o (key, which) ↦ o.withData key (.object (function which)) .hidden) o

/-- An object that wraps a primitive value. A text shows its units as elements. -/
def wrapperObject (prototype : ObjectId) (value : Datum) : Object :=
  let o := Object.empty (.wrapper value) (some prototype)
  match value with
  | .string units =>
    { o with properties := (units.mapIdx fun i unit ↦
        (toString i, (⟨.data (.string [unit]), .shown⟩ : Property))) ++
      [("length", ⟨.data (.natural units.length), .sealed⟩)] }
  | _ => o

/-- A prototype, and the function whose instances it is for. -/
def prototypeObject (parent : Option ObjectId) (constructor : Intrinsic)
    (methods : List (String × Intrinsic)) : Object :=
  withFunctions (.empty .ordinary parent) (("constructor", constructor) :: methods)

/-- The prototype of errors of a kind. -/
def errorPrototype (kind : ErrorKind) : Object :=
  let parent := if kind = .error then objectPrototype else ErrorKind.error.prototype
  let methods := if kind = .error then [("toString", .errorToString)] else []
  ((prototypeObject (some parent) (.errorConstructor kind.prototype) methods).withData
    "name" (.text kind.name) .hidden).withData "message" (.text "") .hidden

/-- The prototype for values of a primitive type. Three of them wrap a value themselves. -/
def primitivePrototype (type : PrimitiveType) : Object :=
  let o := prototypeObject (some objectPrototype) (.primitiveConstructor type)
    [("toString", .primitiveToString type), ("valueOf", .primitiveValueOf type)]
  match type with
  | .string => { o with kind := .wrapper (.string []) }.withData "length" (.natural 0) .fixed
  | .number => { o with kind := .wrapper (.natural 0) }
  | .boolean => { o with kind := .wrapper (.boolean false) }
  | .symbol =>
    { o with tag := some type.name }.put "description"
      ⟨.accessor (some (function .symbolDescription)) none, .fixed⟩
  | .bigint => { o with tag := some type.name }

/-- A function, which always has a length and a name. -/
def functionObject (callable : Callable) (parameters : Nat) (name : String) : Object :=
  ((Object.empty (.function callable) (some functionPrototype)).withData
    "length" (.natural parameters) .fixed).withData "name" (.text name) .fixed

/-- The prototype that a constructor gives to its instances. -/
def instancePrototype? : Intrinsic → Option ObjectId
  | .objectConstructor => some objectPrototype
  | .functionConstructor => some functionPrototype
  | .arrayConstructor => some arrayPrototype
  | .errorConstructor prototype => some prototype
  | .primitiveConstructor type => some type.prototype
  | .promiseConstructor => some promisePrototype
  | _ => none

/-- The functions that are found on a constructor. -/
def statics : Intrinsic → List (String × Intrinsic)
  | .objectConstructor =>
    [("keys", .objectKeys), ("getPrototypeOf", .objectGetPrototypeOf), ("freeze", .objectFreeze),
      ("defineProperty", .objectDefineProperty)]
  | .promiseConstructor => [("reject", .promiseReject)]
  | _ => []

/-- One of the functions. -/
def intrinsicFunction (name : String) (parameters : Nat) (which : Intrinsic) : Object :=
  let base := functionObject (.intrinsic which) parameters name
  let parent := match which with
    | .errorConstructor prototype =>
      if prototype = ErrorKind.error.prototype then functionPrototype
      else function (.errorConstructor ErrorKind.error.prototype)
    | _ => functionPrototype
  let base := { base with prototype := some parent }
  let base := match instancePrototype? which with
    | some prototype => base.withData "prototype" (.object prototype) .sealed
    | none => base
  withFunctions base (statics which)

/-- The global object. -/
def globalThis : Object :=
  let o := { Object.empty .ordinary (some objectPrototype) with tag := some "global" }
  let o := o.withData "undefined" .undefined .sealed
  let o := o.withData "NaN" (.double (0 / 0)) .sealed
  let o := o.withData "Infinity" (.double (1 / 0)) .sealed
  let o := o.withData "globalThis" (.object globalObject) .hidden
  let o := withFunctions o
    ([("Object", .objectConstructor), ("Function", .functionConstructor),
      ("Array", .arrayConstructor), ("Promise", .promiseConstructor)] ++
      PrimitiveType.all.map (fun type ↦ (type.name, .primitiveConstructor type)) ++
      ErrorKind.all.map fun kind ↦ (kind.name, .errorConstructor kind.prototype))
  let o := o.withData "Reflect" (.object reflect) .hidden
  let o := o.withData "log" (.object (function .log)) .plain
  o.withData "forceGC" (.object (function .forceCollection)) .plain

/-- The prototype of functions, which is a function itself. -/
def functionPrototypeObject : Object :=
  withFunctions { functionObject (.intrinsic .ignore) 0 "" with prototype := some objectPrototype }
    [("constructor", .functionConstructor), ("toString", .functionToString)]

/-- The objects of a fresh machine, by their place. -/
def objects : List Object :=
  [globalThis,
    (prototypeObject none .objectConstructor
      [("toString", .objectToString), ("valueOf", .objectValueOf)]).put "__proto__"
        ⟨.accessor (some (function .prototypeGetter)) (some (function .prototypeSetter)), .fixed⟩,
    functionPrototypeObject,
    { prototypeObject (some objectPrototype) .arrayConstructor
        [("join", .arrayJoin), ("toString", .arrayToString)] with kind := .array }.withData
        "length" (.natural 0) .permanent,
    { prototypeObject (some objectPrototype) .promiseConstructor
        [("then", .promiseThen), ("catch", .promiseCatch)] with tag := some "Promise" }] ++
  PrimitiveType.all.map primitivePrototype ++
  ErrorKind.all.map errorPrototype ++
  functions.map (fun (name, parameters, which) ↦ intrinsicFunction name parameters which) ++
  [withFunctions { Object.empty .ordinary (some objectPrototype) with tag := some "Reflect" }
      [("apply", .reflectApply)],
    .empty .ordinary (some objectPrototype)]

/-- The objects that the machine itself holds on to. -/
def anchors : List ObjectId :=
  [globalObject, objectPrototype, functionPrototype, arrayPrototype, promisePrototype,
    carrierPrototype, function .functionConstructor, function .arrayConstructor,
    function .promiseConstructor] ++
  PrimitiveType.all.map PrimitiveType.prototype ++ ErrorKind.all.map ErrorKind.prototype

/-- A fresh machine, with a handle for its global object. -/
def machine (isStrict : Bool) : Machine where
  heap := (objects.mapIdx fun i o ↦ (i, o)).foldl
    (fun heap (i, o) ↦ heap.insert (⟨i⟩ : ObjectId) o) ∅
  nextObject := size
  nextSymbol := 0
  slots := (∅ : Std.ExtTreeMap Handle Slot).insert ⟨0⟩ ⟨globalObject, true⟩
  nextHandle := 1
  issued := [⟨0⟩]
  globalHandle := some ⟨0⟩
  requests := 0
  forced := 0
  isStrict := isStrict
  anchors := anchors
  pending := none
  overlooked := []
  retained := .undefined
  pins := []
  jobs := []
  frames := []
  trace := []
  ledger := ⟨[], [], false⟩
  isOpen := true

end Realm

end ScriptBridge.Script
