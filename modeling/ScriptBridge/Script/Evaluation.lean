import ScriptBridge.Script.Intrinsics
import ScriptBridge.Script.Memory

/-!
# Evaluation

Expressions are evaluated by recursion on their structure, from left to right. Calls may nest only
so deep: running out of depth is an error like any other, which scripts can see. Values in use are
held while anything else is evaluated, and after each expression whatever nothing refers to is
removed, so a payload is finalized between the very steps of a script where its object dies.
-/

namespace ScriptBridge.Script

/-- How a statement ends. -/
inductive Flow where
  /-- The next statement follows. The statement may have a value. -/
  | next (value : Option Datum)
  | returned (value : Datum)

namespace Interp

/-- The place of the frame on top. -/
def currentPlace : Interp Place :=
  view fun m ↦ (m.frames.head?.bind Frame.place).getD (.start "" 1)

/-- A property of the global object. -/
def readGlobal (invoke : Invoke) (name : String) : Interp Datum :=
  read invoke Realm.globalObject name

/-- A name of the global object is declared. -/
def isDeclared (name : String) : Interp Bool :=
  view fun m ↦ (m.find? Realm.globalObject name).isSome

/-- The value of a declared name. -/
def readDeclared (invoke : Invoke) (name : String) : Interp Datum := do
  if ← isDeclared name then readGlobal invoke name else raiseFault (.undeclared name)

/-- What `globalThis` stands for. -/
def globalThis (invoke : Invoke) : Interp Datum := readDeclared invoke "globalThis"

/-- What becomes of a refusal: strict scripts throw. -/
def refuse (fault : Option Fault) : Interp Unit := do
  match fault with
  | none => return
  | some fault => if (← get).isStrict then raiseFault fault

/-- A function that is written where a script has come to. -/
def newFunction (form : FunctionForm) (name source : String) (body : Program) : Interp Datum := do
  let place ← currentPlace
  newRoutine name ⟨place.file, place.current, source, form, body⟩

/-- A value is a function that can be used with `new`. -/
def isConstructor (id : ObjectId) : Interp Bool := do
  return ((← object id).callable?).any Callable.isConstructor

/-- The class to extend, and the prototype that it gives to its instances. -/
def parentOf (invoke : Invoke) (base : Datum) : Interp (ObjectId × Option ObjectId) := do
  match base with
  | .null => return (Realm.functionPrototype, none)
  | .object id =>
    if ← isConstructor id then
      match ← read invoke id "prototype" with
      | .object prototype => return (id, some prototype)
      | .null => return (id, none)
      | _ => raiseFault .invalidParentPrototype
    else raiseFault .invalidParent
  | _ => raiseFault .invalidParent

/-- A class that extends another one, which is known by a name. -/
def newDerivedClass (invoke : Invoke) (name : String) (base : Datum) : Interp Datum := do
  let (parent, parentPrototype) ← parentOf invoke base
  let place ← currentPlace
  let function := Realm.functionObject (.derived place.file place.current name) 0 ""
  let id ← allocate { function with prototype := some parent }
  let prototype ← allocate ((Object.empty .ordinary parentPrototype).withData
    "constructor" (.object id) .hidden)
  update id (·.withData "prototype" (.object prototype) .sealed)
  return .object id

/-- Applies a function to arguments. -/
def call (invoke : Invoke) (callee this : Datum) (arguments : List Datum) : Interp Datum := do
  match ← function? callee with
  | some id => invoke id this arguments none
  | none => raiseFault .notFunction

/-- Applies `new` to a function and arguments. -/
def construct (invoke : Invoke) (callee : Datum) (arguments : List Datum) : Interp Datum := do
  match callee with
  | .object id =>
    if ← isConstructor id then invoke id .undefined arguments (some id)
    else raiseFault .notConstructor
  | _ => raiseFault .notFunction

/-- A prototype is among those of an object. -/
def inherits (id prototype : ObjectId) : Interp Bool := do
  return (← view (·.chain id)).tail.contains prototype

/-- A value is an instance of what a constructor makes. What is no function but inherits from one
makes nothing. -/
def isInstance (invoke : Invoke) (value constructor : Datum) : Interp Bool := do
  match constructor with
  | .object id =>
    if (← object id).callable?.isSome then
      match value with
      | .object instanceId =>
        match ← read invoke id "prototype" with
        | .object prototype => inherits instanceId prototype
        | _ => raiseFault .prototypeNotObject
      | _ => return false
    else if (← view (·.chain id)).contains Realm.functionPrototype then return false
    else raiseFault .invalidInstanceRight
  | _ => raiseFault .invalidInstanceRight

/-- The type of a value as scripts name it. -/
def typeOf (d : Datum) : Interp String := do
  match d with
  | .undefined => return "undefined"
  | .null => return "object"
  | .boolean _ => return "boolean"
  | .integer _ | .double _ => return "number"
  | .string _ => return "string"
  | .symbol _ _ => return "symbol"
  | .bigint _ => return "bigint"
  | .object id => return if (← object id).callable?.isSome then "function" else "object"

/-- The sum of two numbers. -/
def addNumbers : Datum → Datum → Interp Datum
  | .integer a, .integer b => return .ofInt (a.toInt + b.toInt)
  | .bigint a, .bigint b => return .bigint (a + b)
  | .bigint _, _ | _, .bigint _ => raiseFault .toBigint
  | a, b => return .double (a.number?.getD (0 / 0) + b.number?.getD (0 / 0))

/-- The sum of two values. If one of them comes down to a text, the texts of both are joined. -/
def add (invoke : Invoke) (left right : Datum) : Interp Datum := do
  let left ← toPrimitive invoke left .number
  let right ← toPrimitive invoke right .number
  match left, right with
  | .string _, _ | _, .string _ =>
    return .string ((← primitiveText left) ++ (← primitiveText right))
  | _, _ => do addNumbers (← toNumeric invoke left) (← toNumeric invoke right)

/-- The value of an operator. -/
def operate (invoke : Invoke) (operator : Operator) (left right : Datum) : Interp Datum := do
  match operator, left, right with
  | .add, _, _ => add invoke left right
  | .less, .string a, .string b => return .boolean (a < b)
  | .multiply, .bigint a, .bigint b => return .bigint (a * b)
  | .power, .bigint a, .bigint b => return .bigint (a.pow b.toNat)
  | .less, .bigint a, .bigint b => return .boolean (a < b)
  | _, _, _ =>
    let a ← toNumber invoke left
    let b ← toNumber invoke right
    match operator with
    | .multiply => return .ofFloat (a * b)
    | .power => return .ofFloat (a.pow b)
    | .add => return .double (a + b)
    | .less => return .boolean (a < b)

/-- Puts a value into a field of an object that is being written. A function without a name takes
that of the field. One field is not a property but the prototype. -/
def putField (id : ObjectId) (key : String) (e : Expr) (d : Datum) : Interp Unit := do
  if key = "__proto__" then
    match d with
    | .object prototype => setPrototype id (some prototype)
    | .null => setPrototype id none
    | _ => pure ()
  else
    match d with
    | .object function =>
      if e.isNameless then update function (·.withData "name" (.text key) .fixed)
    | _ => pure ()
    touch key
    update id (·.put key ⟨.data d, .plain⟩)

mutual

/-- Evaluates an expression. -/
def eval (invoke : Invoke) : Expr → Interp Datum
  | .undefined => return .undefined
  | .null => return .null
  | .boolean b => return .boolean b
  | .number x => return .literal x
  | .string units => return .string units
  | .bigint n => return .bigint n
  | .symbol description => newSymbol description
  | .global name => settling do readOf invoke (← globalThis invoke) name none
  | .reference name => settling (readDeclared invoke name)
  | .property target key => settling do
    let target ← eval invoke target
    holding [target] (readOf invoke target key none)
  | .object fields => settling do
    let id ← allocate (.empty .ordinary (some Realm.objectPrototype))
    holding [.object id] (evalFields invoke id fields)
    return .object id
  | .array elements => settling do newArray (← evalAll invoke elements)
  | .function form name source body => newFunction form name source body
  | .derivedClass base => settling do
    newDerivedClass invoke base (← readOf invoke (← globalThis invoke) base none)
  | .construct callee arguments => settling do
    let callee ← eval invoke callee
    noteLine
    holding [callee] do construct invoke callee (← evalAll invoke arguments)
  | .apply callee arguments => settling do
    let callee ← eval invoke callee
    noteLine
    holding [callee] do call invoke callee .undefined (← evalAll invoke arguments)
  | .method receiver key arguments => settling do
    let receiver ← eval invoke receiver
    holding [receiver] do
      let callee ← readOf invoke receiver key (some key)
      noteLine
      holding [callee] do call invoke callee receiver (← evalAll invoke arguments)
  | .isInstance value constructor => settling do
    let value ← eval invoke value
    noteLine
    holding [value] do
      let constructor ← eval invoke constructor
      return .boolean (← holding [constructor] (isInstance invoke value constructor))
  | .typeOf value => settling do return .text (← typeOf (← eval invoke value))
  | .typeOfName name => settling do return .text (← typeOf (← readGlobal invoke name))
  | .same left right => settling do
    let left ← eval invoke left
    noteLine
    return .boolean (left.strictEquals (← holding [left] (eval invoke right)))
  | .binary operator left right => settling do
    let left ← eval invoke left
    noteLine
    let right ← holding [left] (eval invoke right)
    holding [left, right] (operate invoke operator left right)
  | .assign name value => settling do
    let value ← eval invoke value
    if (← get).isStrict && !(← isDeclared name) then raiseFault (.undeclared name)
    holding [value] do refuse (← assign invoke Realm.globalObject name value)
    return value

/-- Evaluates expressions in order. Each value is held while the others are evaluated. -/
def evalAll (invoke : Invoke) : List Expr → Interp (List Datum)
  | [] => return []
  | e :: rest => do
    let d ← eval invoke e
    return d :: (← holding [d] (evalAll invoke rest))

/-- Evaluates the fields of an object in order. -/
def evalFields (invoke : Invoke) (id : ObjectId) : List (String × Expr) → Interp Unit
  | [] => return
  | (key, e) :: rest => do
    let d ← eval invoke e
    putField id key e d
    evalFields invoke id rest

end

/-- Deletes a property of any value. -/
def deleteFrom (target : Datum) (key : String) : Interp Bool := do
  let gone ← delete (← toObject target) key
  unless gone do refuse (some .notDeletable)
  return gone

/-- A script may declare a global name, as a function or not. -/
def checkDefinable (name : String) (isFunction : Bool) : Interp Unit := do
  let o ← object Realm.globalObject
  let isFree := match o.own? name with
    | none => o.extensible
    | some p =>
      !isFunction || p.flags.configurable ||
        (!p.content.isAccessor && p.flags.writable && p.flags.enumerable)
  unless isFree do raiseFault (.notDefinable name)

/-- Declares a global name without a value. -/
def declare (name : String) : Interp Unit := do
  touch name
  if ((← object Realm.globalObject).own? name).isNone then
    update Realm.globalObject (·.put name ⟨.data .undefined, .declared⟩)

/-- Declares a global name for a function. -/
def declareFunction (invoke : Invoke) (name : String) (function : Datum) : Interp Unit := do
  touch name
  let isOpen := ((← object Realm.globalObject).own? name).all (·.flags.configurable)
  defineOrThrow invoke Realm.globalObject name
    (if isOpen then
      { value := some function, writable := some true, enumerable := some true,
        configurable := some false }
    else { value := some function })

/-- Checks the global names that statements declare. -/
def checkDeclarations : Program → Interp Unit
  | [] => return
  | (_, .declare name _) :: rest => do
    checkDefinable name false
    checkDeclarations rest
  | (_, .declareFunction name _ _) :: rest => do
    checkDefinable name true
    checkDeclarations rest
  | _ :: rest => checkDeclarations rest

/-- Declares the global names of statements. Functions are made at once. -/
def makeDeclarations (invoke : Invoke) : Program → Interp Unit
  | [] => return
  | (_, .declare name _) :: rest => do
    declare name
    makeDeclarations invoke rest
  | (distance, .declareFunction name source body) :: rest => do
    enterLine distance
    declareFunction invoke name (← newFunction .standalone name source body)
    makeDeclarations invoke rest
  | _ :: rest => makeDeclarations invoke rest

/-- The statement begins with an expression, whose line is noted. -/
def notesLine : Statement → Bool
  | .throw _ | .return _ | .declareFunction _ _ _ | .empty => false
  | _ => true

/-- Executes a statement. -/
def exec (invoke : Invoke) : Statement → Interp Flow
  | .expression value | .perform value => return .next (some (← eval invoke value))
  | .setProperty target key value => do
    let target ← eval invoke target
    let value ← holding [target] (eval invoke value)
    holding [target, value] do refuse (← assignOf invoke target key value)
    return .next (some value)
  | .deleteProperty target key => do
    let target ← eval invoke target
    return .next (some (.boolean (← holding [target] (deleteFrom target key))))
  | .throw value => do raiseDatum (← eval invoke value)
  | .return value => return .returned (← eval invoke value)
  | .attempt value => do
    let caught ← match ← trying (eval invoke value) with
      | some _ => pure (.text "nothing")
      | none => do
        let thrown := (← takePending).getD .undefined
        holding [thrown] do call invoke (← readDeclared invoke "String") .undefined [thrown]
    holding [caught] do refuse (← assignOf invoke (← globalThis invoke) "caught" caught)
    return .next (some caught)
  | .declare _ none => return .next none
  | .declare name (some value) => do
    let value ← eval invoke value
    refuse (← holding [value] (assign invoke Realm.globalObject name value))
    return .next none
  | .declareFunction _ _ _ => return .next none
  | .empty => return .next none

/-- Enters a statement. -/
def enterStatement (distance : Nat) (statement : Statement) : Interp Unit := do
  enterLine distance
  if notesLine statement then noteLine

/-- Executes the statements of a function. -/
def runBody (invoke : Invoke) : Program → Interp Datum
  | [] => return .undefined
  | (distance, statement) :: rest => do
    enterStatement distance statement
    match ← exec invoke statement with
    | .returned value => return value
    | .next _ => runBody invoke rest

/-- Calls a function written in a script. A constructor makes an object first, and gives that unless
it returns another. -/
def callCode (invoke : Invoke) (frame : Frame) (body : Program) (newTarget : Option ObjectId) :
    Interp Datum := do
  match newTarget with
  | none => inFrame frame (runBody invoke body)
  | some _ =>
    let made ← allocate (.empty .ordinary
      (some (← prototypeFor invoke newTarget Realm.objectPrototype)))
    holding [.object made] do
      match ← inFrame frame (runBody invoke body) with
      | .object id => return .object id
      | _ => return .object made

/-- Calls the constructor of a class that extends another: the one it extends makes the instance. -/
def callDerived (invoke : Invoke) (id : ObjectId) (frame : Frame) (arguments : List Datum)
    (newTarget : Option ObjectId) : Interp Datum :=
  inFrame frame do
    match newTarget, (← object id).prototype with
    | none, _ => raiseFault .withoutNew
    | some target, some parent =>
      if ← isConstructor parent then invoke parent .undefined arguments (some target)
      else raiseFault .notConstructor
    | some _, none => raiseFault .notFunction

/-- Calls a function. Calls may nest as deep as given. -/
def invokeWithin : Nat → Invoke
  | 0 => fun _ _ _ _ ↦ raiseFault .tooDeep
  | depth + 1 => fun id this arguments newTarget ↦
    let invoke := invokeWithin depth
    holding (.object id :: this :: arguments ++ (newTarget.map Datum.object).toList) do
      match (← object id).callable? with
      | none => raiseFault .notFunction
      | some (.intrinsic which) =>
        let run := runIntrinsic invoke which this arguments newTarget
        if which.isShown then inFrame ⟨some id, none⟩ run else run
      | some (.native spec) => constructNative invoke spec this newTarget arguments
      | some (.code routine) =>
        callCode invoke ⟨some id, some (.start routine.file routine.line)⟩ routine.body newTarget
      | some (.derived file line _) =>
        callDerived invoke id ⟨some id, some (.start file line)⟩ arguments newTarget

/-- How deep calls may nest. -/
def callDepth : Nat := 4000

/-- Calls a function. -/
def invoke : Invoke := invokeWithin callDepth

/-- Executes the statements of a script. The value of a statement is kept until there is another. -/
def runStatements : Program → Interp Unit
  | [] => return
  | (distance, statement) :: rest => do
    enterStatement distance statement
    match ← exec invoke statement with
    | .next none => pure ()
    | .next (some value) | .returned value =>
      modify fun m ↦ { m with retained := value }
    modify (Machine.settle [])
    runStatements rest

/-- Runs a script. It gives the value of the last statement, if that is an expression. -/
def runProgram (file : String) (program : Program) : Interp Datum :=
  inFrame ⟨none, some (.start file 1)⟩ do
    checkDeclarations program
    makeDeclarations invoke program
    runStatements program
    match program.getLast? with
    | some (_, .expression _) => return (← get).retained
    | _ => return .undefined

end Interp

end ScriptBridge.Script
