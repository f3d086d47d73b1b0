import ScriptBridge.Text.Units

/-!
# Scripts

Scripts are written in a small part of a prototype-based language. A statement carries the number
of lines between it and the line on which its program or function begins, so that a location can be
given for whatever goes wrong in it. Functions have no parameters and capture nothing: all names are
properties of the global object. A name that need not be there is read with `global`, and one whose
absence is an error with `reference`.
-/

namespace ScriptBridge.Script

/-- The operators between two operands. -/
inductive Operator where
  | add
  | multiply
  | power
  | less
  deriving DecidableEq, Repr

/-- How a function is written. -/
inductive FunctionForm where
  /-- By itself. Such a function can make instances. -/
  | standalone
  /-- As a member of an object literal. Such a function cannot make instances. -/
  | member
  deriving DecidableEq, Repr

mutual

/-- Expressions. -/
inductive Expr where
  | undefined
  | null
  | boolean (b : Bool)
  | number (x : Float)
  | string (units : Text.Units)
  | bigint (n : Int)
  | symbol (description : Option Text.Units)
  /-- A property of what `globalThis` stands for, undefined if there is none. -/
  | global (name : String)
  /-- A declared name. -/
  | reference (name : String)
  | property (object : Expr) (key : String)
  | object (fields : List (String × Expr))
  | array (elements : List Expr)
  /-- A function, with its source text. -/
  | function (form : FunctionForm) (name source : String) (body : List (Nat × Statement))
  /-- A class without members that extends another one. -/
  | derivedClass (base : String)
  | construct (callee : Expr) (arguments : List Expr)
  /-- A call without receiver. -/
  | apply (callee : Expr) (arguments : List Expr)
  | method (receiver : Expr) (key : String) (arguments : List Expr)
  | isInstance (value constructor : Expr)
  | typeOf (value : Expr)
  /-- The type of a name that need not be declared. -/
  | typeOfName (name : String)
  | same (left right : Expr)
  | binary (operator : Operator) (left right : Expr)
  /-- An assignment to a name, which strict code must have declared. -/
  | assign (name : String) (value : Expr)

/-- Statements. -/
inductive Statement where
  | expression (value : Expr)
  | setProperty (object : Expr) (key : String) (value : Expr)
  | deleteProperty (object : Expr) (key : String)
  | throw (value : Expr)
  | return (value : Expr)
  /-- Does something for its effect alone. -/
  | perform (value : Expr)
  /-- Keeps the text of the exception, if there is one, in the global `caught`. -/
  | attempt (value : Expr)
  /-- A declaration of a global name. -/
  | declare (name : String) (value : Option Expr)
  | declareFunction (name source : String) (body : List (Nat × Statement))
  | empty

end

deriving instance Inhabited for Expr
deriving instance Inhabited for Statement

/-- Statements, each with its distance in lines from the beginning. -/
abbrev Program := List (Nat × Statement)

/-- The statements, one on each line. -/
def Program.ofStatements (statements : List Statement) : Program :=
  statements.mapIdx fun i s ↦ (i, s)

/-- What an engine is asked to evaluate. -/
inductive Source where
  | text (s : String)
  | program (p : Program)
  deriving Inhabited

namespace Expr

/-- A text. -/
def text (s : String) : Expr := .string (.ofString s)

/-- A function that does nothing. -/
def idle : Expr := .function .standalone "" "function () \x7b\x7d" []

/-- A member function that does one thing, which its source text does not show. -/
def member (name : String) (body : Statement) : Expr :=
  .function .member name (name ++ "() \x7b\x7d") [(0, body)]

/-- An object whose conversion to text gives the value of an expression. -/
def stringifying (e : Expr) : Expr :=
  .object [("toString", member "toString" (.return e))]

/-- An object whose conversion to text throws. -/
def unstringifiable : Expr :=
  .object [("toString", member "toString"
    (.throw (.construct (.reference "Error") [text "nested"])))]

/-- A function that stands by itself and has no name. It takes one from the field it is written
in. -/
def isNameless : Expr → Bool
  | .function .standalone "" _ _ => true
  | _ => false

/-- The own enumerable keys of an object, joined by commas. -/
def keys (e : Expr) : Expr := .method (.method (.reference "Object") "keys" [e]) "join" [text ","]

/-- The prototype of an object. -/
def prototype (e : Expr) : Expr := .method (.reference "Object") "getPrototypeOf" [e]

/-- A rejected promise nobody handles. -/
def rejection (reason : Expr) : Expr := .method (.reference "Promise") "reject" [reason]

/-- A rejected promise that gets a handler afterwards. -/
def handledRejection (reason : Expr) : Expr := .method (rejection reason) "catch" [idle]

/-- A call with a receiver. -/
def callWith (name : String) (receiver : Expr) (arguments : List Expr) : Expr :=
  .method (.reference "Reflect") "apply" [.global name, receiver, .array arguments]

end Expr

namespace Statement

/-- Sets a property of the global object. -/
def setGlobal (name : String) (value : Expr) : Statement :=
  .setProperty (.reference "globalThis") name value

/-- Freezes an object. -/
def freeze (e : Expr) : Statement := .perform (.method (.reference "Object") "freeze" [e])

/-- Defines an accessor that throws the value of an expression whenever it is read. -/
def throwingGetter (object : Expr) (key : String) (thrown : Expr) : Statement :=
  .perform (.method (.reference "Object") "defineProperty"
    [object, .text key, .object [("get", .member "get" (.throw thrown))]])

end Statement

end ScriptBridge.Script
