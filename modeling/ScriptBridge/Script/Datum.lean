import ScriptBridge.Decimal.Style
import ScriptBridge.Identity
import ScriptBridge.Text.Units

/-!
# Script data

A datum is a value inside the script heap. Unlike a value on the bridge it may be a symbol, a big
integer or a text with surrogates that stand alone, and objects are known by their place in the
heap. Numbers come in two forms, words and doubles. Scripts cannot tell them apart, but native code
can.
-/

namespace ScriptBridge.Script

/-- An object of the script heap. A place is never given to two objects. -/
structure ObjectId where
  index : Nat
  deriving DecidableEq, Repr, Inhabited

instance : Ord ObjectId := ⟨compareOn ObjectId.index⟩

instance : Std.TransOrd ObjectId := inferInstanceAs (Std.TransCmp (compareOn ObjectId.index))

instance : Std.LawfulEqOrd ObjectId where
  eq_of_compare {a b} h := by
    cases a; cases b
    exact congrArg ObjectId.mk (Std.LawfulEqOrd.eq_of_compare h)

/-- A value inside the script heap. -/
inductive Datum where
  | undefined
  | null
  | boolean (b : Bool)
  /-- A number kept as a signed word. -/
  | integer (n : Int32)
  /-- A number kept as a double. -/
  | double (x : Float)
  | string (units : Text.Units)
  /-- Symbols are told apart by number, not by description. -/
  | symbol (number : Nat) (description : Option Text.Units)
  | bigint (n : Int)
  | object (id : ObjectId)
  deriving DecidableEq, Inhabited

namespace Datum

/-- A text. -/
def text (s : String) : Datum := .string (.ofString s)

/-- The word that a number is cut to, if it fits one. -/
def cut (x : Float) : Int32 := Int32.ofInt (Decimal.whole x)

/-- The number is that of a word, and not negative zero. -/
def isSmallInteger (x : Float) : Bool :=
  Float.ofInt (cut x).toInt == x && !(Decimal.isZero x && Decimal.isNegative x)

/-- A number, kept as a word if it is that of one. -/
def ofFloat (x : Float) : Datum := if isSmallInteger x then .integer (cut x) else .double x

/-- The number that a literal stands for. The least word is no literal but the negation of one,
which does not fit a word; it stays a double. -/
def literal (x : Float) : Datum := if x == -2147483648 then .double x else ofFloat x

/-- A whole number. -/
def ofInt (n : Int) : Datum := ofFloat (Float.ofInt n)

/-- A number that counts something. -/
def natural (n : Nat) : Datum := ofFloat (Float.ofNat n)

/-- The number that a datum is. -/
def number? : Datum → Option Float
  | .integer n => some (Float.ofInt n.toInt)
  | .double x => some x
  | _ => none

def isNullish : Datum → Bool
  | .undefined | .null => true
  | _ => false

def object? : Datum → Option ObjectId
  | .object id => some id
  | _ => none

/-- The objects that a datum refers to. -/
def references : Datum → List ObjectId
  | .object id => [id]
  | _ => []

/-- Strict equality. A NaN differs from itself, and both zeros are equal. -/
def strictEquals : Datum → Datum → Bool
  | .undefined, .undefined => true
  | .null, .null => true
  | .boolean a, .boolean b => a == b
  | .string a, .string b => a == b
  | .symbol a _, .symbol b _ => a == b
  | .bigint a, .bigint b => a == b
  | .object a, .object b => a == b
  | a, b =>
    match a.number?, b.number? with
    | some x, some y => x == y
    | _, _ => false

/-- Equality as far as a program could tell two values apart. A NaN is the same as itself, and
the zeros differ. -/
def isSame (a b : Datum) : Bool :=
  match a.number?, b.number? with
  | some x, some y => if x == y then x.toBits == y.toBits else x.isNaN && y.isNaN
  | _, _ => a.strictEquals b

/-- Numbers as scripts write them: positionally from a millionth on and below `10^21`. Only the
nearest decimal of each length is tried. -/
def numberStyle : Decimal.Style where
  positionalFrom := some (-6)
  positionalBelow := some 21
  keepsPoint := false
  signsZero := false
  search := .nearest
  tie := .toEven

/-- The text of a number. -/
def numberText (x : Float) : String :=
  if Decimal.isFinite x then numberStyle.write x
  else if x.isNaN then "NaN"
  else if Decimal.isNegative x then "-Infinity"
  else "Infinity"

/-- The exact value of a finite double without its sign, cut to a whole number, modulo `2^32`. -/
def magnitudeWord (x : Float) : Nat :=
  let b := Decimal.Shortest.Binary.ofBits (x.toBits &&& 0x7fffffffffffffff)
  if 0 ≤ b.exponent then b.significand * Nat.pow 2 (b.exponent.toNat) % 0x100000000
  else b.significand / Nat.pow 2 (-b.exponent).toNat % 0x100000000

/-- The unsigned word that a number stands for: fractions are cut off, and the rest is taken modulo
`2^32`. -/
def wordOf (x : Float) : Nat :=
  if !Decimal.isFinite x then 0
  else if Decimal.isNegative x then (0x100000000 - magnitudeWord x) % 0x100000000
  else magnitudeWord x

end Datum

end ScriptBridge.Script
