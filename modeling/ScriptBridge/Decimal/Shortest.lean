/-!
# The shortest decimal that reads back

A positive binary number `m · 2^q` has a neighbourhood of reals that round to it. Among the
decimals in that neighbourhood the ones with the fewest digits are of interest, and of these the
one nearest to the number. Everything is decided in exact arithmetic on natural numbers: a grid
of spacing `10^k` has a point in the neighbourhood exactly when one of the two grid points next
to the number lies in it, so the first grid, from coarse to fine, with a hit gives the digits.

Some formats settle for less and try only the nearest decimal of each length. The neighbourhood of
a power of two reaches farther up than down, so that there the nearest decimal may fail to read
back where its neighbour would not, and a longer one is taken.
-/

namespace ScriptBridge.Decimal.Shortest

/-- A positive binary number `m · 2^q`. -/
structure Binary where
  significand : Nat
  exponent : Int
  /-- The next number below is at half the distance of the next one above. -/
  halfGapBelow : Bool
  deriving DecidableEq, Repr

/-- A positive decimal number `coefficient · 10^exponent`. -/
structure Numeral where
  coefficient : Nat
  exponent : Int
  deriving DecidableEq, Repr

/-- Which of two equally near decimals is taken. -/
inductive Tie
  | toEven
  | up
  deriving DecidableEq, Repr

/-- Splits a finite positive double into significand and exponent. -/
def Binary.ofBits (bits : UInt64) : Binary :=
  let fraction := (bits &&& 0xfffffffffffff).toNat
  let biased := ((bits >>> 52) &&& 0x7ff).toNat
  if biased = 0 then ⟨fraction, -1074, false⟩
  else ⟨fraction + 0x10000000000000, (biased : Int) - 1075, fraction == 0 && biased != 1⟩

/-- The factor `2^q / 10^k` as a quotient of natural numbers. -/
def scale (q k : Int) : Nat × Nat :=
  (.pow 2 q.toNat * .pow 10 (-k).toNat, .pow 2 (-q).toNat * .pow 10 k.toNat)

/-- In units of a quarter of the last binary place: the number and the ends of its
neighbourhood. -/
def Binary.quarters (b : Binary) : Nat × Nat × Nat :=
  (4 * b.significand - (if b.halfGapBelow then 1 else 2), 4 * b.significand, 4 * b.significand + 2)

/-- `c · 10^k` rounds to `b`. The ends of the neighbourhood belong to it exactly when the
significand is even. -/
def Binary.contains (b : Binary) (k : Int) (c : Nat) : Bool :=
  let (num, den) := scale (b.exponent - 2) k
  let (low, _, high) := b.quarters
  if b.significand % 2 = 0 then low * num ≤ c * den && c * den ≤ high * num
  else low * num < c * den && c * den < high * num

/-- Which decimals of a given spacing are tried. -/
inductive Search
  /-- Both decimals next to the number. -/
  | both
  /-- The one nearest to the number and no other, even if the other reads back too. -/
  | nearest
  deriving DecidableEq, Repr

/-- The two grid points next to `b` on the grid of spacing `10^k`, the nearer one first. -/
def Binary.neighbours (tie : Tie) (b : Binary) (k : Int) : Nat × Nat :=
  let (num, den) := scale (b.exponent - 2) k
  let value := b.quarters.2.1 * num
  let below := value / den
  let rest := value - below * den
  let takeUpper := if 2 * rest = den then tie == .up || below % 2 == 1 else 2 * rest > den
  if takeUpper then (below + 1, below) else (below, below + 1)

/-- The better of the grid points that are tried on the grid of spacing `10^k`, if one of them
rounds to `b`. -/
def Binary.onGrid? (search : Search) (tie : Tie) (b : Binary) (k : Int) : Option Numeral :=
  let (nearer, farther) := b.neighbours tie k
  if b.contains k nearer then some ⟨nearer, k⟩
  else if search == .both && b.contains k farther then some ⟨farther, k⟩
  else none

/-- `10^k` is at most `b`. -/
def Binary.atLeastPower (b : Binary) (k : Int) : Bool :=
  let (num, den) := scale b.exponent k
  den ≤ b.significand * num

/-- The exponent of the leading decimal digit. The logarithm to base two gives it up to one. -/
def Binary.magnitude (b : Binary) : Int :=
  let guess := ((b.significand.log2 : Int) + b.exponent) * 30103 / 100000
  if b.atLeastPower (guess + 1) then guess + 1
  else if b.atLeastPower guess then guess
  else guess - 1

/-- Without its trailing zeros. The fuel is any bound on their number. -/
def Numeral.trim : Nat → Numeral → Numeral
  | 0, d => d
  | fuel + 1, d =>
    if d.coefficient ≠ 0 ∧ d.coefficient % 10 = 0 then
      Numeral.trim fuel ⟨d.coefficient / 10, d.exponent + 1⟩
    else d

/-- The fewest digits that read back as `b` among the decimals that are tried, the nearest of
these, a tie decided by `tie`. Seventeen digits always suffice for a double. -/
def Binary.shortest (search : Search) (tie : Tie) (b : Binary) : Numeral :=
  let top := b.magnitude
  let grids : List Int := (List.range 17).map fun (n : Nat) ↦ top - (n : Int)
  Numeral.trim 18 ((grids.findSome? (b.onGrid? search tie)).getD ⟨b.significand, b.exponent⟩)

/-- The digits of the coefficient. -/
def Numeral.digits (d : Numeral) : List Char := Nat.toDigits 10 d.coefficient

/-- The exponent when the number is written with one digit before the point. -/
def Numeral.leading (d : Numeral) : Int := d.exponent + d.digits.length - 1

end ScriptBridge.Decimal.Shortest
