import ScriptBridge.Text.Blank
import ScriptBridge.Text.Natural

/-!
# Numbers that texts spell

A text spells a number if, without the blanks around it, it is a decimal with an optional exponent,
an infinity, or digits to one of the bases two, eight and sixteen behind a mark. A blank text spells
zero.
-/

namespace ScriptBridge.Script.NumericText

/-- The character is passed over around a number. -/
def isBlank (c : Char) : Bool := c == '\ufeff' || (Text.isBlank c && c != '\x85')

/-- The value of a digit, to a base up to sixteen. -/
def digit? (c : Char) : Option Nat :=
  if 'a' ≤ c ∧ c ≤ 'f' then some (c.toNat - 'a'.toNat + 10)
  else if 'A' ≤ c ∧ c ≤ 'F' then some (c.toNat - 'A'.toNat + 10)
  else Text.asciiDigit? c

/-- The value of digits to a base, of which there is one at least. -/
def ofDigits? (base : Nat) (digits : List Char) : Option Nat :=
  if digits.isEmpty then none
  else digits.foldlM (fun n c ↦ do
    let d ← digit? c
    if d < base then some (n * base + d) else none) 0

/-- The double next to `significand · 10^exponent`. -/
def scaled (significand : Nat) (exponent : Int) : Float :=
  let magnitude : Int := (Nat.toDigits 10 significand).length + exponent
  if significand = 0 ∨ magnitude < -400 then 0
  else if 400 < magnitude then 1 / 0
  else Float.ofScientific significand (exponent < 0) exponent.natAbs

/-- A whole number behind an optional sign. -/
def signed? : List Char → Option Int
  | '+' :: digits => (ofDigits? 10 digits).map Int.ofNat
  | '-' :: digits => (ofDigits? 10 digits).map fun n ↦ -(Int.ofNat n)
  | digits => (ofDigits? 10 digits).map Int.ofNat

/-- The exponent at the end of a decimal. -/
def exponent? : List Char → Option Int
  | [] => some 0
  | 'e' :: rest | 'E' :: rest => signed? rest
  | _ => none

/-- A decimal or an infinity without sign. -/
def decimal? (s : List Char) : Option Float :=
  if s = "Infinity".toList then some (1 / 0)
  else do
    let whole := s.takeWhile Char.isDigit
    let (places, rest) := match s.dropWhile Char.isDigit with
      | '.' :: rest => (rest.takeWhile Char.isDigit, rest.dropWhile Char.isDigit)
      | rest => ([], rest)
    let significand ← ofDigits? 10 (whole ++ places)
    return scaled significand ((← exponent? rest) - places.length)

/-- A whole number behind a mark for its base. -/
def marked? : List Char → Option Nat
  | '0' :: 'x' :: digits | '0' :: 'X' :: digits => ofDigits? 16 digits
  | '0' :: 'o' :: digits | '0' :: 'O' :: digits => ofDigits? 8 digits
  | '0' :: 'b' :: digits | '0' :: 'B' :: digits => ofDigits? 2 digits
  | _ => none

/-- A decimal or an infinity behind an optional sign. -/
def signedDecimal? : List Char → Option Float
  | '+' :: s => decimal? s
  | '-' :: s => (decimal? s).map Float.neg
  | s => decimal? s

/-- A text without the blanks around it. -/
def trim (s : List Char) : List Char :=
  ((s.dropWhile isBlank).reverse.dropWhile isBlank).reverse

/-- The number that a text spells, or a NaN. -/
def number (s : List Char) : Float :=
  match trim s with
  | [] => 0
  | s => (((marked? s).map Float.ofNat).or (signedDecimal? s)).getD (0 / 0)

/-- The whole number that a text spells. -/
def whole? (s : List Char) : Option Int :=
  match trim s with
  | [] => some 0
  | s => ((marked? s).map Int.ofNat).or (signed? s)

end ScriptBridge.Script.NumericText
