import ScriptBridge.Text.Natural
import ScriptBridge.Text.Units

/-!
# Tokens of script texts

A script text is cut into numbers, quoted texts, words and marks. Blanks only separate tokens, but
each token remembers its line, since a statement may end with its line.
-/

namespace ScriptBridge.Script

/-- What a token stands for. -/
inductive Token where
  | number (x : Float)
  | bigint (n : Int)
  | string (units : Text.Units)
  | word (name : String)
  | mark (sign : String)
  deriving DecidableEq

/-- A token where it stands. -/
structure Lexeme where
  token : Token
  /-- The line, counted from zero. -/
  line : Nat
  /-- The characters of the token. -/
  text : String
  /-- The characters from the token to the end of the text. -/
  tail : List Char

/-- The characters from the beginning of one token to the end of another behind it. -/
def Lexeme.through (first last : Lexeme) : String :=
  String.ofList (first.tail.take (first.tail.length - last.tail.length + last.text.length))

namespace Token

/-- The character can begin a word. -/
def beginsWord (c : Char) : Bool := c.isAlpha || c == '_' || c == '$' || 127 < c.toNat

/-- The character can stand in a word. -/
def continuesWord (c : Char) : Bool := beginsWord c || c.isDigit

/-- The marks, longer ones before their beginnings. -/
def marks : List String :=
  ["**", "+=", "+", "*", "<", "=", "(", ")", "\x7b", "\x7d", "[", "]", ",", ";", "."]

/-- The value of decimal digits. -/
def valueOf (digits : List Char) : Nat :=
  digits.foldl (fun n c ↦ n * 10 + (Text.asciiDigit? c).getD 0) 0

/-- A number at the beginning of a text, and the rest. -/
def number? (s : List Char) : Option (Token × List Char) :=
  let whole := s.takeWhile Char.isDigit
  match whole, s.dropWhile Char.isDigit with
  | [], _ => none
  | _, 'n' :: rest => some (.bigint (valueOf whole), rest)
  | _, '.' :: rest =>
    let places := rest.takeWhile Char.isDigit
    some (.number (Float.ofScientific (valueOf (whole ++ places)) true places.length),
      rest.dropWhile Char.isDigit)
  | _, rest => some (.number (Float.ofNat (valueOf whole)), rest)

/-- A quoted text, read up to the quotation mark, and the rest. -/
def quoted? (mark : Char) : List Char → Option (List Char × List Char)
  | [] => none
  | '\n' :: _ => none
  | '\\' :: c :: rest => do
    let (s, rest) ← quoted? mark rest
    return ((if c = 'n' then '\n' else c) :: s, rest)
  | c :: rest =>
    if c = mark then some ([], rest)
    else do
      let (s, rest) ← quoted? mark rest
      return (c :: s, rest)

/-- The first token of a text that begins with no blank, and the rest. -/
def first? (s : List Char) : Option (Token × List Char) :=
  match s with
  | [] => none
  | c :: rest =>
    if c.isDigit then number? s
    else if c = '\'' || c = '"' then
      (quoted? c rest).map fun (inner, rest) ↦
        (.string (.ofString (String.ofList inner)), rest)
    else if beginsWord c then
      some (.word (String.ofList (s.takeWhile continuesWord)), s.dropWhile continuesWord)
    else
      (marks.find? fun m ↦ m.toList.isPrefixOf s).map fun m ↦ (.mark m, s.drop m.length)

/-- The tokens of a text, in at most so many steps. Characters that begin no token are tokens of
their own. -/
def scan : Nat → Nat → List Char → List Lexeme
  | 0, _, _ => []
  | _, _, [] => []
  | steps + 1, line, c :: rest =>
    if c = '\n' then scan steps (line + 1) rest
    else if c.isWhitespace then scan steps line rest
    else match first? (c :: rest) with
      | some (token, left) =>
        let text := String.ofList ((c :: rest).take (rest.length + 1 - left.length))
        ⟨token, line, text, c :: rest⟩ :: scan steps line left
      | none =>
        ⟨.mark (String.singleton c), line, String.singleton c, c :: rest⟩ :: scan steps line rest

/-- The tokens of a text. Each step takes one character at least. -/
def ofText (s : String) : List Lexeme := scan (s.length + 1) 0 s.toList

end Token

end ScriptBridge.Script
