/-!
# Natural numbers in texts

A natural number is written in ASCII digits, of which there is one at least, possibly after one
plus sign. Reading it gives up as soon as the value reaches a limit, however many digits follow;
leading zeros never hurt.
-/

namespace ScriptBridge.Text

/-- The value of an ASCII digit. -/
def asciiDigit? (c : Char) : Option Nat :=
  if '0' ≤ c ∧ c ≤ '9' then some (c.toNat - '0'.toNat) else none

/-- Reads digits behind those that gave `value`, giving up as soon as the limit is reached. -/
def digitsBelow? (limit value : Nat) : List Char → Option Nat
  | [] => some value
  | c :: rest => do
    let d ← asciiDigit? c
    let next := value * 10 + d
    if next < limit then digitsBelow? limit next rest else none

/-- A number below the limit. -/
def naturalBelow? (limit : Nat) (s : List Char) : Option Nat :=
  match s with
  | [] => none
  | ['+'] => none
  | '+' :: digits => digitsBelow? limit 0 digits
  | digits => digitsBelow? limit 0 digits

end ScriptBridge.Text
