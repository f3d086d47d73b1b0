import Mathlib.Data.List.Forall2
import ScriptBridge.Json.Fault
import ScriptBridge.Proofs.Text.Numerals
import ScriptBridge.Text.Units

/-!
# The grammar of JSON texts

What a JSON text is, said without any reader. A string may spell each of its characters in several
ways; what stands between quotation marks has the right form already if its escapes are complete,
even if it spells surrogates that stand alone. A list between brackets is given by its items, with
any blanks around them. Whether a text is a value is all that `IsValue` says; what a value means is
up to whoever reads it.
-/

namespace ScriptBridge.Json

open Text (Padded Units)

/-- All of these characters are blanks. -/
def Blank (s : List Char) : Prop := ∀ c ∈ s, Reader.isBlank c = true

instance (s : List Char) : Decidable (Blank s) := List.decidableBAll _ s

/-! ## Strings -/

/-- The letters that may stand behind a backslash, and the characters they stand for. -/
def shortEscapes : List (Char × Char) :=
  [('"', '"'), ('\\', '\\'), ('/', '/'), ('b', '\x08'), ('f', '\x0c'), ('n', '\n'), ('r', '\r'),
    ('t', '\t')]

/-- A hexadecimal digit, lower- or upper-case. -/
def IsHexDigit (c : Char) (n : Nat) : Prop :=
  n < 16 ∧ (c = Nat.digitChar n ∨ c = (Nat.digitChar n).toUpper)

/-- The escape of a 16-bit unit. -/
inductive UnitEscape : List Char → UInt16 → Prop
  | mk {a b c d : Char} {p q r s : Nat} {u : UInt16} (ha : IsHexDigit a p) (hb : IsHexDigit b q)
    (hc : IsHexDigit c r) (hd : IsHexDigit d s)
    (hu : u.toNat = ((p * 16 + q) * 16 + r) * 16 + s) : UnitEscape ['\\', 'u', a, b, c, d] u

/-- The character may stand for itself between quotation marks. -/
def IsPlain (c : Char) : Prop := c ≠ '"' ∧ c ≠ '\\' ∧ 0x20 ≤ c.toNat

/-- The first text, between quotation marks, spells the second one. A character stands for itself,
is escaped with a letter, or is written with the escapes of its 16-bit units. -/
inductive Spelling : List Char → List Char → Prop
  | nil : Spelling [] []
  | plain {c : Char} {text chars : List Char} (hc : IsPlain c) (h : Spelling text chars) :
    Spelling (c :: text) (c :: chars)
  | short {e c : Char} {text chars : List Char} (he : (e, c) ∈ shortEscapes)
    (h : Spelling text chars) : Spelling ('\\' :: e :: text) (c :: chars)
  | units {c : Char} {escapes : List (List Char)} {text chars : List Char}
    (he : List.Forall₂ UnitEscape escapes (Units.ofChar c)) (h : Spelling text chars) :
    Spelling (escapes.flatten ++ text) (c :: chars)

/-- The text may stand between quotation marks: every escape in it is complete. -/
inductive Quotable : List Char → Prop
  | nil : Quotable []
  | plain {c : Char} {text : List Char} (hc : IsPlain c) (h : Quotable text) : Quotable (c :: text)
  | short {e c : Char} {text : List Char} (he : (e, c) ∈ shortEscapes) (h : Quotable text) :
    Quotable ('\\' :: e :: text)
  | unit {escape text : List Char} {u : UInt16} (he : UnitEscape escape u) (h : Quotable text) :
    Quotable (escape ++ text)

/-! ## Numbers -/

/-- One digit or more. -/
def IsDigits (s : List Char) : Prop := s ≠ [] ∧ ∀ c ∈ s, c.isDigit = true

/-- The fraction of a number, which may be missing. -/
inductive IsFraction : List Char → Prop
  | absent : IsFraction []
  | present {digits : List Char} (h : IsDigits digits) : IsFraction ('.' :: digits)

/-- The exponent of a number, which may be missing. -/
inductive IsExponent : List Char → Prop
  | absent : IsExponent []
  | present {mark : Char} {sign digits : List Char} (hmark : mark = 'e' ∨ mark = 'E')
    (hsign : sign = [] ∨ sign = ['+'] ∨ sign = ['-']) (h : IsDigits digits) :
    IsExponent (mark :: (sign ++ digits))

/-- A number without a sign: its whole part, in as many digits as it needs, and what stands behind
that. -/
inductive IsUnsigned : List Char → Nat → List Char → Prop
  | mk {n : Nat} {fraction exponent : List Char} (hfraction : IsFraction fraction)
    (hexponent : IsExponent exponent) :
    IsUnsigned (Nat.toDigits 10 n ++ (fraction ++ exponent)) n (fraction ++ exponent)

/-! ## Lists and values -/

/-- The text has these items, with commas between them and any blanks around each. If an item
stands before the text, the first of its own items follows a comma too. -/
inductive Listed : Bool → List (List Char) → List Char → Prop
  | nil {behindItem : Bool} {blanks : List Char} (hblanks : Blank blanks) :
    Listed behindItem [] blanks
  | first {item text front : List Char} {items : List (List Char)} (hfront : Blank front)
    (h : Listed true items text) : Listed false (item :: items) (front ++ (item ++ text))
  | next {item text back front : List Char} {items : List (List Char)} (hback : Blank back)
    (hfront : Blank front) (h : Listed true items text) :
    Listed true (item :: items) (back ++ ',' :: (front ++ (item ++ text)))

/-- The text is a quoted key, a colon and a value. -/
inductive IsMember : List Char × List Char → List Char → Prop
  | mk {key value behindKey beforeValue : List Char} (hkey : Quotable key)
    (hbehind : Blank behindKey) (hbefore : Blank beforeValue) :
    IsMember (key, value)
      ('"' :: (key ++ '"' :: (behindKey ++ ':' :: (beforeValue ++ value))))

/-- The text is a value of any nesting, without blanks around it. -/
inductive IsValue : List Char → Prop
  | nullWord : IsValue ['n', 'u', 'l', 'l']
  | trueWord : IsValue ['t', 'r', 'u', 'e']
  | falseWord : IsValue ['f', 'a', 'l', 's', 'e']
  | unsigned {text rest : List Char} {n : Nat} (h : IsUnsigned text n rest) : IsValue text
  | negated {text rest : List Char} {n : Nat} (h : IsUnsigned text n rest) : IsValue ('-' :: text)
  | string {text : List Char} (h : Quotable text) : IsValue ('"' :: (text ++ ['"']))
  | list {items : List (List Char)} {text : List Char} (hitems : ∀ item ∈ items, IsValue item)
    (h : Listed false items text) : IsValue ('[' :: (text ++ [']']))
  | object {entries : List (List Char × List Char)} {members : List (List Char)} {text : List Char}
    (hvalues : ∀ entry ∈ entries, IsValue entry.2)
    (hmembers : List.Forall₂ IsMember entries members) (h : Listed false members text) :
    IsValue ('\x7b' :: (text ++ ['\x7d']))

/-- The whole text is an object with these entries, each a key as it stands between quotation marks
and a value. -/
def ObjectText (entries : List (List Char × List Char)) (s : List Char) : Prop :=
  (∀ entry ∈ entries, IsValue entry.2) ∧ ∃ members text,
    List.Forall₂ IsMember entries members ∧ Listed false members text ∧
    Padded Reader.isBlank ('\x7b' :: (text ++ ['\x7d'])) s

/-- The whole text is an array with these elements. -/
def ArrayText (elements : List (List Char)) (s : List Char) : Prop :=
  (∀ element ∈ elements, IsValue element) ∧ ∃ text,
    Listed false elements text ∧ Padded Reader.isBlank ('[' :: (text ++ [']'])) s

end ScriptBridge.Json
