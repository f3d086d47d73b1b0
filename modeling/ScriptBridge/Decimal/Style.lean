import ScriptBridge.Decimal.Shortest

/-!
# Number texts

A finite double is written with the fewest digits that read back. The remaining decisions differ
from format to format and are fields of a `Style`: which exponents are written positionally,
whether an integer keeps `.0`, whether the sign of zero shows, which decimals are tried for each
number of digits, and how a tie between two equally short texts goes.
-/

namespace ScriptBridge.Decimal

open Shortest

/-- The decisions of one number format. -/
structure Style where
  /-- Leading exponents from here on are written positionally; unbounded if absent. -/
  positionalFrom : Option Int
  /-- Leading exponents from here on are written with an exponent; none if absent. -/
  positionalBelow : Option Int
  /-- Positional integers end in `.0`. -/
  keepsPoint : Bool
  /-- Negative zero keeps its sign. -/
  signsZero : Bool
  /-- The decimals that are tried for each number of digits. -/
  search : Search
  tie : Tie
  deriving DecidableEq, Repr

/-- The sign bit of a double. -/
def isNegative (x : Float) : Bool := x.toBits >>> 63 == 1

/-- Neither infinite nor a NaN. -/
def isFinite (x : Float) : Bool := (x.toBits >>> 52) &&& 0x7ff != 0x7ff

/-- Either of the two zeros. -/
def isZero (x : Float) : Bool := x.toBits <<< 1 == 0

/-- The whole part of a finite double. -/
def whole (x : Float) : Int :=
  let b := Binary.ofBits x.toBits
  let magnitude := b.significand * .pow 2 b.exponent.toNat / .pow 2 (-b.exponent).toNat
  if isNegative x then -(magnitude : Int) else magnitude

/-- Digits without exponent: the point stands behind the digit of weight one. -/
def positional (keepsPoint : Bool) (d : Numeral) : List Char :=
  let digits := d.digits
  let whole := d.leading + 1
  if whole ≤ 0 then
    ['0', '.'] ++ List.replicate (-whole).toNat '0' ++ digits
  else if whole.toNat < digits.length then
    digits.take whole.toNat ++ '.' :: digits.drop whole.toNat
  else
    digits ++ List.replicate (whole.toNat - digits.length) '0' ++
      (if keepsPoint then ['.', '0'] else [])

/-- One digit before the point and an exponent that always has a sign. -/
def scientific (d : Numeral) : List Char :=
  let mantissa := match d.digits with
    | [] => []
    | [c] => [c]
    | c :: rest => c :: '.' :: rest
  let sign := if d.leading < 0 then '-' else '+'
  mantissa ++ 'e' :: sign :: Nat.toDigits 10 d.leading.natAbs

/-- The text of a positive decimal. -/
def Style.writeDecimal (style : Style) (d : Numeral) : List Char :=
  let low := match style.positionalFrom with | some e => d.leading < e | none => false
  let high := match style.positionalBelow with | some e => e ≤ d.leading | none => false
  if low || high then scientific d else positional style.keepsPoint d

/-- The text of a double other than zero, without its sign. -/
def Style.writeMagnitude (style : Style) (x : Float) : List Char :=
  let b := Binary.ofBits (x.toBits &&& 0x7fffffffffffffff)
  style.writeDecimal (b.shortest style.search style.tie)

/-- The text of a finite double. -/
def Style.write (style : Style) (x : Float) : String :=
  let sign := if isNegative x && (style.signsZero || !isZero x) then ['-'] else []
  let magnitude :=
    if isZero x then if style.keepsPoint then ['0', '.', '0'] else ['0']
    else style.writeMagnitude x
  String.ofList (sign ++ magnitude)

end ScriptBridge.Decimal
