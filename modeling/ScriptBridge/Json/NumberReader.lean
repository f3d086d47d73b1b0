import ScriptBridge.Json.Fault

/-!
# Reading numbers

Integers that fit into 64 bits stay exact; everything else becomes a double. The digits of a
double are gathered in a 64-bit significand for as long as they fit, the remaining ones only move
the exponent, and the power of ten is then applied in floating point arithmetic.
-/

namespace ScriptBridge.Json

/-- A number as it is read: without sign or fraction, below zero, or in floating point. -/
inductive Numeral where
  | natural (n : Nat)
  | negative (n : Nat)
  | float (x : Float)
  deriving DecidableEq

/-- The numeral as a message names it. -/
def Numeral.found : Numeral → Found
  | .natural n => .integer n
  | .negative n => .integer (-n)
  | .float x => .float x

/-- A decimal digit. -/
def isDigit (c : Char) : Bool := '0' ≤ c && c ≤ '9'

def digitValue (c : Char) : Nat := c.toNat - 48

/-- Takes digits into a significand for as long as it stays below `limit`. Gives the significand
and the digits that were not taken. -/
def gather (limit significand : Nat) : List Char → Nat × List Char
  | [] => (significand, [])
  | c :: rest =>
    let next := significand * 10 + digitValue c
    if next < limit then gather limit next rest else (significand, c :: rest)

/-- The bound of significands, which fit into 64 bits. -/
def significandLimit : Nat := 0x10000000000000000

/-- The bound of written exponents, which fit into 32 bits with a sign. -/
def exponentLimit : Nat := 0x80000000

/-- The double nearest to a power of ten. -/
def powerOfTen (k : Nat) : Float := Float.ofScientific 1 false k

/-- Divides by ten to the `k`-th in steps of at most 308. The fuel bounds the number of steps that
leave something other than zero. -/
def divideByPower : Nat → Float → Nat → Float
  | 0, x, _ => x
  | fuel + 1, x, k =>
    if k ≤ 308 then x / powerOfTen k
    else if x == 0 then x
    else divideByPower fuel (x / powerOfTen 308) (k - 308)

/-- A significand times a power of ten; absent if it is too large for a double. -/
def scaled? (significand : Nat) (exponent : Int) : Option Float :=
  let x := significand.toUInt64.toFloat
  if exponent < 0 then some (divideByPower 8 x exponent.natAbs)
  else if exponent ≤ 308 then
    let y := x * powerOfTen exponent.natAbs
    if Decimal.isFinite y then some y else none
  else if x == 0 then some x
  else none

namespace Reader

/-- The digits that come next, passed over. -/
def digits : Reader (List Char) := fun s ↦ .ok (s.takeWhile isDigit, s.dropWhile isDigit)

/-- The double of these parts. -/
def float (positive : Bool) (significand : Nat) (exponent : Int) : Reader Float :=
  match scaled? significand exponent with
  | some x => pure (if positive then x else -x)
  | none => fail .numberOutOfRange

/-- The sign of an exponent, true if it is not negative. -/
def exponentSign : Reader Bool := do
  match ← peek with
  | some '+' => do advance; pure true
  | some '-' => do advance; pure false
  | _ => pure true

/-- Reads behind the mark of an exponent. An exponent out of all bounds is zero for small numbers
and refused for large ones, at the digit that exceeds the bound. -/
def exponentPart (positive : Bool) (significand : Nat) (exponent : Int) : Reader Float := do
  advance
  let upward ← exponentSign
  match ← peek with
  | none => fail .endInValue
  | some c =>
    if !isDigit c then failNext .invalidNumber
    else
      let s ← get
      let (shift, left) := gather exponentLimit 0 (s.takeWhile isDigit)
      if left.isEmpty then
        let _ ← digits
        float positive significand (if upward then exponent + shift else exponent - shift)
      else if significand ≠ 0 && upward then
        fun s ↦
          let rest := s.drop ((s.takeWhile isDigit).length - left.length + 1)
          .error ⟨.numberOutOfRange, rest, 0⟩
      else
        let _ ← digits
        pure (if positive then 0 else -0.0)

/-- Reads on where an exponent may begin. -/
def afterFraction (positive : Bool) (significand : Nat) (exponent : Int) : Reader Float := do
  match ← peek with
  | some 'e' | some 'E' => exponentPart positive significand exponent
  | _ => float positive significand exponent

/-- Reads from a decimal point on. -/
def fraction (positive : Bool) (significand : Nat) (exponent : Int) : Reader Float := do
  advance
  let ds ← digits
  if ds.isEmpty then
    match ← peek with
    | some _ => failNext .invalidNumber
    | none => failNext .endInValue
  else
    let (significand, left) := gather significandLimit significand ds
    afterFraction positive significand (exponent - (ds.length - left.length : Nat))

/-- Reads behind the digits of an integer that fits into 64 bits. -/
def afterInteger (positive : Bool) (significand : Nat) : Reader Numeral := do
  match ← peek with
  | some '.' => .float <$> fraction positive significand 0
  | some 'e' | some 'E' => .float <$> exponentPart positive significand 0
  | _ =>
    if positive then pure (.natural significand)
    else if significand = 0 ∨ 0x8000000000000000 < significand then
      pure (.float (-significand.toUInt64.toFloat))
    else pure (.negative significand)

/-- Reads behind the digits of an integer too long for 64 bits. -/
def afterLongInteger (positive : Bool) (significand : Nat) (exponent : Int) : Reader Numeral := do
  match ← peek with
  | some '.' => .float <$> fraction positive significand exponent
  | some 'e' | some 'E' => .float <$> exponentPart positive significand exponent
  | _ => .float <$> float positive significand exponent

/-- Reads a number behind its sign. A leading zero stands alone. -/
def numeral (positive : Bool) : Reader Numeral := do
  match ← peek with
  | none => fail .endInValue
  | some '0' => do
    advance
    match ← peek with
    | some c => if isDigit c then failNext .invalidNumber else afterInteger positive 0
    | none => afterInteger positive 0
  | some c =>
    if isDigit c then
      let ds ← digits
      let (significand, left) := gather significandLimit 0 ds
      if left.isEmpty then afterInteger positive significand
      else afterLongInteger positive significand left.length
    else failNext .invalidNumber

/-- Passes over the digits and the sign of an exponent whose mark comes next. -/
def ignoreExponent : Reader Unit := do
  advance
  let _ ← exponentSign
  match ← peek with
  | some c => if isDigit c then discard digits else failNext .invalidNumber
  | none => fail .invalidNumber

/-- Passes over a fraction whose point comes next. -/
def ignoreFraction : Reader Unit := do
  advance
  let ds ← digits
  if ds.isEmpty then failNext .invalidNumber
  else match ← peek with
    | some 'e' | some 'E' => ignoreExponent
    | _ => pure ()

/-- Passes over a number behind its sign; its size does not matter. -/
def ignoreNumber : Reader Unit := do
  match ← peek with
  | none => fail .invalidNumber
  | some '0' => do
    advance
    match ← peek with
    | some c => if isDigit c then failNext .invalidNumber
    | none => pure ()
  | some c => if isDigit c then discard digits else failNext .invalidNumber
  match ← peek with
  | some '.' => ignoreFraction
  | some 'e' | some 'E' => ignoreExponent
  | _ => pure ()

end Reader

end ScriptBridge.Json
