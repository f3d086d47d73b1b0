import ScriptBridge.Text.Blank
import ScriptBridge.Text.Natural

/-!
# Locations in stack texts

A stack text has a line for each frame, the innermost first: `at name (file:line:column)`,
`at file:line:column`, or the same without column. Frames of native functions have no location. A
file name may contain anything but a line break, also parentheses and colons: only the outer
parentheses are taken off, and colons are counted from the right.
-/

namespace ScriptBridge.Script.Location

/-- Splits at every occurrence of a character. There is always one part at least. -/
def splitAll (separator : Char) : List Char → List (List Char)
  | [] => [[]]
  | c :: rest =>
    if c = separator then [] :: splitAll separator rest
    else match splitAll separator rest with
      | [] => [[c]]
      | part :: parts => (c :: part) :: parts

theorem splitAll_ne_nil (separator : Char) (s : List Char) : splitAll separator s ≠ [] := by
  cases s with
  | nil => simp [splitAll]
  | cons c rest =>
    simp only [splitAll]
    split
    · simp
    · split <;> simp

/-- What follows a given beginning. -/
def after? : List Char → List Char → Option (List Char)
  | [], s => some s
  | _ :: _, [] => none
  | p :: ps, c :: s => if p = c then after? ps s else none

@[simp]
theorem after?_append (beginning rest : List Char) :
    after? beginning (beginning ++ rest) = some rest := by
  induction beginning with
  | nil => rfl
  | cons c beginning ih => simp [after?, ih]

/-- What follows the first blank with an opening parenthesis behind it. -/
def afterParenthesis? : List Char → Option (List Char)
  | [] => none
  | c :: rest =>
    match after? [' ', '('] (c :: rest) with
    | some found => some found
    | none => afterParenthesis? rest

/-- Splits at the last colon: what is before it, and what is behind it. -/
def splitLastColon? (s : List Char) : Option (List Char × List Char) :=
  let reversed := s.reverse
  match reversed.dropWhile (· != ':') with
  | [] => none
  | _ :: before => some (before.reverse, (reversed.takeWhile (· != ':')).reverse)

/-- The number of a line or column. -/
def number? : List Char → Option Nat := Text.naturalBelow? 0x100000000

/-- The file and the line of a location. If there are two colons, the last part is a column. -/
def ofLocation? (location : List Char) : Option (List Char × Nat) := do
  let (front, last) ← splitLastColon? location
  match splitLastColon? front with
  | none => return (front, ← number? last)
  | some (file, middle) =>
    let line ← number? middle
    let _ ← number? last
    return (file, line)

/-- The location that a frame shows, without the parentheses around it. -/
def strip (frame : List Char) : List Char :=
  match afterParenthesis? frame with
  | some rest => if rest.getLast? = some ')' then rest.dropLast else frame
  | none => frame

/-- The file and the line of a frame. -/
def ofFrame? (line : List Char) : Option (List Char × Nat) := do
  let frame ← after? ['a', 't', ' '] (Text.trim line)
  ofLocation? (strip frame)

/-- The file and the line of the first frame with a location. -/
def ofStack? (stack : List Char) : Option (List Char × Nat) :=
  (splitAll '\n' stack).findSome? ofFrame?

end ScriptBridge.Script.Location
