import ScriptBridge.Identity
import ScriptBridge.Decimal.Style

/-!
# Values that cross the bridge

A value is what native code sees of script data: objects appear only as handles. Strict equality
is that of the script side, where a NaN differs from itself and both zeros are equal. The two
texts differ in how they show strings, objects and infinities.
-/

namespace ScriptBridge

/-- A script value as native code sees it. -/
inductive Value where
  | undefined
  | null
  | boolean (b : Bool)
  | number (x : Float)
  | string (s : String)
  | object (h : Handle)
  deriving DecidableEq, Inhabited

namespace Value

/-- Null or undefined. -/
def isNullish : Value → Bool
  | .undefined | .null => true
  | _ => false

def asBool? : Value → Option Bool
  | .boolean b => some b
  | _ => none

def asNumber? : Value → Option Float
  | .number x => some x
  | _ => none

def asString? : Value → Option String
  | .string s => some s
  | _ => none

def asObject? : Value → Option Handle
  | .object h => some h
  | _ => none

/-- What `typeof` says; null counts as an object. -/
def typeOf : Value → String
  | .undefined => "undefined"
  | .null => "object"
  | .boolean _ => "boolean"
  | .number _ => "number"
  | .string _ => "string"
  | .object _ => "object"

/-- Strict equality. Numbers compare as numbers, objects by handle. -/
def strictEquals : Value → Value → Bool
  | .undefined, .undefined => true
  | .null, .null => true
  | .boolean a, .boolean b => a == b
  | .number a, .number b => a == b
  | .string a, .string b => a == b
  | .object a, .object b => a == b
  | _, _ => false

/-- Numbers inside texts never have an exponent; of two nearest digit strings the larger wins. -/
def numberStyle : Decimal.Style where
  positionalFrom := none
  positionalBelow := none
  keepsPoint := false
  signsZero := true
  search := .both
  tie := .up

/-- A number text with chosen words for infinity. -/
def numberText (infinity : String) (x : Float) : String :=
  if Decimal.isFinite x then numberStyle.write x
  else if x.isNaN then "NaN"
  else if Decimal.isNegative x then "-" ++ infinity
  else infinity

/-- The text a user is shown. -/
def display : Value → String
  | .undefined => "undefined"
  | .null => "null"
  | .boolean b => if b then "true" else "false"
  | .number x => numberText "Infinity" x
  | .string s => s
  | .object _ => "[object Object]"

/-- The text for diagnostics: strings stand between quotation marks, unescaped, and objects show
their handle. -/
def debug : Value → String
  | .undefined => "undefined"
  | .null => "null"
  | .boolean b => if b then "true" else "false"
  | .number x => numberText "inf" x
  | .string s => "\"" ++ s ++ "\""
  | .object h => "[object " ++ h.text ++ "]"

end Value

end ScriptBridge
