import ScriptBridge.Script.Access
import ScriptBridge.Script.NumericText

/-!
# Conversion of values

A primitive value has a text and a number of its own, save that symbols refuse both and big integers
are no numbers. An object is asked for a primitive value first, by its methods `toString` and
`valueOf`, of which the one goes first for texts and the other for numbers; both may be script code.
-/

namespace ScriptBridge.Script

/-- The text of a symbol. -/
def symbolText (description : Option Text.Units) : Text.Units :=
  .ofString "Symbol(" ++ description.getD [] ++ .ofString ")"

namespace Datum

/-- The text of a primitive value. Objects have none of their own. -/
def primitiveText : Datum → Except Fault Text.Units
  | .undefined => .ok (.ofString "undefined")
  | .null => .ok (.ofString "null")
  | .boolean b => .ok (.ofString (if b then "true" else "false"))
  | .integer n => .ok (.ofString (toString n.toInt))
  | .double x => .ok (.ofString (Datum.numberText x))
  | .string units => .ok units
  | .symbol _ _ => .error .symbolToText
  | .bigint n => .ok (.ofString (toString n))
  | .object _ => .error .noPrimitive

/-- The number of a primitive value. Objects have none of their own. -/
def primitiveNumber : Datum → Except Fault Float
  | .undefined => .ok (0 / 0)
  | .null => .ok 0
  | .boolean b => .ok (if b then 1 else 0)
  | .integer n => .ok (Float.ofInt n.toInt)
  | .double x => .ok x
  | .string units =>
    .ok ((units.toString?.map fun s ↦ NumericText.number s.toList).getD (0 / 0))
  | .symbol _ _ => .error .symbolToNumber
  | .bigint _ => .error .bigintToNumber
  | .object _ => .error .noPrimitive

/-- The value counts as true. -/
def isTruthy : Datum → Bool
  | .undefined | .null => false
  | .boolean b => b
  | .integer n => n != 0
  | .double x => !(x == 0 || x.isNaN)
  | .string units => !units.isEmpty
  | .bigint n => n != 0
  | .symbol _ _ | .object _ => true

end Datum

/-- The length of an array that a number stands for. -/
def lengthOfNumber? (x : Float) : Option Nat :=
  if 0 ≤ x && x ≤ 4294967295 && x.floor == x then some x.toUInt64.toNat else none

namespace Interp

variable {α : Type}

/-- Gives a result or throws the error that tells of a fault. -/
def orRaise : Except Fault α → Interp α
  | .ok a => return a
  | .error fault => raiseFault fault

/-- The function that a value is. -/
def function? (d : Datum) : Interp (Option ObjectId) := do
  match d with
  | .object id => return if (← object id).callable?.isSome then some id else none
  | _ => return none

/-- The text of a primitive value. -/
def primitiveText (d : Datum) : Interp Text.Units := orRaise d.primitiveText

/-- The first primitive value that the methods of the given names return. -/
def askForPrimitive (invoke : Invoke) (id : ObjectId) : List String → Interp Datum
  | [] => raiseFault .noPrimitive
  | key :: rest => do
    match ← function? (← read invoke id key) with
    | none => askForPrimitive invoke id rest
    | some method =>
      match ← invoke method (.object id) [] none with
      | .object _ => askForPrimitive invoke id rest
      | primitive => return primitive

/-- What a conversion is for. -/
inductive Purpose where
  | text
  | number
  deriving DecidableEq, Repr

/-- The methods that an object is asked by, in order. -/
def Purpose.methods : Purpose → List String
  | .text => ["toString", "valueOf"]
  | .number => ["valueOf", "toString"]

/-- A primitive value for a value. Objects below the prototype of symbols are not asked: they give
the symbol that they wrap, or refuse. -/
def toPrimitive (invoke : Invoke) (d : Datum) (purpose : Purpose) : Interp Datum := do
  match d with
  | .object id =>
    if (← view (·.chain id)).contains PrimitiveType.symbol.prototype then
      match (← object id).kind with
      | .wrapper (.symbol number description) => return .symbol number description
      | _ => raiseFault (.notOfType .symbol)
    else askForPrimitive invoke id purpose.methods
  | _ => return d

/-- The text of a value. -/
def toText (invoke : Invoke) (d : Datum) : Interp Text.Units := do
  primitiveText (← toPrimitive invoke d .text)

/-- The number of a value. -/
def toNumber (invoke : Invoke) (d : Datum) : Interp Float := do
  orRaise (← toPrimitive invoke d .number).primitiveNumber

/-- The number of a value, kept as a word where the value suggests one. Big integers stay. -/
def toNumeric (invoke : Invoke) (d : Datum) : Interp Datum := do
  match ← toPrimitive invoke d .number with
  | .null => return .integer 0
  | .boolean b => return .integer (if b then 1 else 0)
  | .integer n => return .integer n
  | .bigint n => return .bigint n
  | .string units => return .ofFloat (← orRaise (Datum.string units).primitiveNumber)
  | other => return .double (← orRaise other.primitiveNumber)

/-- The length of an array that a value stands for. Values other than numbers are converted twice,
and must give the same number both times. -/
def toLength (invoke : Invoke) (d : Datum) : Interp Nat := do
  match d with
  | .null => return 0
  | .boolean b => return if b then 1 else 0
  | .bigint n => if 0 ≤ n ∧ n ≤ 4294967295 then return n.toNat else raiseFault .invalidLength
  | _ =>
    let word ← match d.number? with
      | some x => pure (Datum.wordOf x)
      | none => Datum.wordOf <$> toNumber invoke d
    match lengthOfNumber? (← toNumber invoke d) with
    | some n => if n = word then return n else raiseFault .invalidLength
    | none => raiseFault .invalidLength

/-- The key that a value stands for. Lone surrogates have no key of their own. -/
def toKey (invoke : Invoke) (d : Datum) : Interp String := do
  return ((← toText invoke d).toString?).getD "\ufffd"

end Interp

end ScriptBridge.Script
