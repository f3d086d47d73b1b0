import ScriptBridge.Json.Number
import ScriptBridge.Text.DebugQuoted

/-!
# Faults of JSON texts

A reader that gives up says why and where. The place is what it left unread, together with the
number of bytes of it that count as read; from this and the whole text follow the line and the
column. Columns count bytes, and a line break that was read has already opened the next line.
-/

namespace ScriptBridge.Json

/-- A value as it stands in the text, for messages about its type. -/
inductive Found where
  | null
  | bool (b : Bool)
  | integer (n : Int)
  | float (x : Float)
  | string (s : String)
  | sequence
  | map
  deriving DecidableEq

/-- How a value is called in a message. -/
def Found.describe : Found → String
  | .null => "null"
  | .bool b => "boolean `" ++ (if b then "true" else "false") ++ "`"
  | .integer n => "integer `" ++ toString n ++ "`"
  | .float x => "floating point `" ++ numberStyle.write x ++ "`"
  | .string s => "string " ++ Text.debugQuoted s
  | .sequence => "sequence"
  | .map => "map"

/-- Why a text was refused. -/
inductive Cause where
  | endInList
  | endInObject
  | endInString
  | endInValue
  | expectedColon
  | expectedListEnd
  | expectedObjectEnd
  | expectedIdent
  | expectedValue
  | invalidEscape
  | invalidNumber
  | numberOutOfRange
  | controlCharacter
  | keyNotString
  | loneSurrogate
  | incompletePair
  | trailingComma
  | trailingCharacters
  | duplicateField (name : String)
  | wrongType (found : Found) (expected : String)
  | wrongValue (found : Found) (expected : String)
  deriving DecidableEq

/-- The wording of a cause. -/
def Cause.message : Cause → String
  | .endInList => "EOF while parsing a list"
  | .endInObject => "EOF while parsing an object"
  | .endInString => "EOF while parsing a string"
  | .endInValue => "EOF while parsing a value"
  | .expectedColon => "expected `:`"
  | .expectedListEnd => "expected `,` or `]`"
  | .expectedObjectEnd => "expected `,` or `\x7d`"
  | .expectedIdent => "expected ident"
  | .expectedValue => "expected value"
  | .invalidEscape => "invalid escape"
  | .invalidNumber => "invalid number"
  | .numberOutOfRange => "number out of range"
  | .controlCharacter => "control character (\\u0000-\\u001F) found while parsing a string"
  | .keyNotString => "key must be a string"
  | .loneSurrogate => "lone leading surrogate in hex escape"
  | .incompletePair => "unexpected end of hex escape"
  | .trailingComma => "trailing comma"
  | .trailingCharacters => "trailing characters"
  | .duplicateField name => "duplicate field `" ++ name ++ "`"
  | .wrongType found expected => "invalid type: " ++ found.describe ++ ", expected " ++ expected
  | .wrongValue found expected => "invalid value: " ++ found.describe ++ ", expected " ++ expected

/-- A refusal: the cause, what was left unread, and how many bytes of that count as read. -/
structure Fault where
  cause : Cause
  rest : List Char
  extra : Nat
  deriving DecidableEq

/-- The length of a text in bytes. -/
def byteLength : List Char → Nat
  | [] => 0
  | c :: rest => c.utf8Size + byteLength rest

/-- A place in a text. Lines count from one, columns are the bytes read on the line. -/
structure Position where
  line : Nat
  column : Nat
  deriving DecidableEq, Repr

/-- The position after so many bytes of the text, counted from the position `p`. -/
def Position.advance (p : Position) : List Char → Nat → Position
  | [], _ => p
  | c :: rest, offset =>
    if offset = 0 then p
    else if c = '\n' then Position.advance ⟨p.line + 1, 0⟩ rest (offset - 1)
    else if offset < c.utf8Size then ⟨p.line, p.column + offset⟩
    else Position.advance ⟨p.line, p.column + c.utf8Size⟩ rest (offset - c.utf8Size)

/-- Where a fault lies in the text it was found in. -/
def Fault.position (f : Fault) (text : List Char) : Position :=
  Position.advance ⟨1, 0⟩ text (byteLength text - byteLength f.rest + f.extra)

/-- A reader of JSON texts: what it read and what it left, or a fault. -/
abbrev Reader := StateT (List Char) (Except Fault)

namespace Reader

/-- Gives up where the reading stands. -/
def fail {α : Type} (cause : Cause) : Reader α := fun s ↦ .error ⟨cause, s, 0⟩

/-- Gives up over the next byte, which counts as read if there is one. -/
def failNext {α : Type} (cause : Cause) : Reader α :=
  fun s ↦ .error ⟨cause, s, if s.isEmpty then 0 else 1⟩

/-- The next character, left unread. -/
def peek : Reader (Option Char) := fun s ↦ .ok (s.head?, s)

/-- Passes over one character. -/
def advance : Reader Unit := fun s ↦ .ok ((), s.tail)

/-- The blanks of JSON texts. -/
def isBlank (c : Char) : Bool := c == ' ' || c == '\n' || c == '\t' || c == '\r'

/-- Passes over blanks. -/
def skipBlanks : Reader Unit := fun s ↦ .ok ((), s.dropWhile isBlank)

/-- The next character that is not blank, left unread. -/
def peekPastBlanks : Reader (Option Char) := do
  skipBlanks
  peek

/-- Passes over the characters of a word, of which the first was read already. -/
def word (expected : List Char) : Reader Unit :=
  match expected with
  | [] => pure ()
  | c :: rest => fun s ↦
    match s with
    | [] => .error ⟨.endInValue, [], 0⟩
    | d :: s' => if d = c then word rest s' else .error ⟨.expectedIdent, s, 1⟩

end Reader

end ScriptBridge.Json
