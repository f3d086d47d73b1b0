import ScriptBridge.Json.Fault

/-!
# Reading quoted strings

Two readers take over behind an opening quotation mark. `readString` gives the characters that the
text spells and insists that surrogates come in pairs; `skipString` only finds the end, checking
no more than that every escape has the right form.
-/

namespace ScriptBridge.Json

/-- The value of a hexadecimal digit. -/
def hexValue? (c : Char) : Option Nat :=
  if '0' ≤ c ∧ c ≤ '9' then some (c.toNat - 48)
  else if 'a' ≤ c ∧ c ≤ 'f' then some (c.toNat - 87)
  else if 'A' ≤ c ∧ c ≤ 'F' then some (c.toNat - 55)
  else none

/-- The number that four hexadecimal digits spell. -/
def hexUnit? (a b c d : Char) : Option Nat := do
  let a ← hexValue? a
  let b ← hexValue? b
  let c ← hexValue? c
  let d ← hexValue? d
  pure (((a * 16 + b) * 16 + c) * 16 + d)

/-- The fault of an escape without four hexadecimal digits: four bytes are read, if there are. -/
def hexFault (rest : List Char) : Fault :=
  if byteLength rest < 4 then ⟨.endInString, rest, byteLength rest⟩ else ⟨.invalidEscape, rest, 4⟩

/-- The character that a letter behind a backslash stands for. -/
def unescape? : Char → Option Char
  | '"' => some '"'
  | '\\' => some '\\'
  | '/' => some '/'
  | 'b' => some '\x08'
  | 'f' => some '\x0c'
  | 'n' => some '\n'
  | 'r' => some '\r'
  | 't' => some '\t'
  | _ => none

/-- The first half of a surrogate pair. -/
def isLeading (n : Nat) : Bool := 0xd800 ≤ n && n ≤ 0xdbff

/-- The second half of a surrogate pair. -/
def isTrailing (n : Nat) : Bool := 0xdc00 ≤ n && n ≤ 0xdfff

/-- The character of a surrogate pair. -/
def pairChar (leading trailing : Nat) : Char :=
  Char.ofNat ((leading - 0xd800) * 1024 + (trailing - 0xdc00) + 0x10000)

/-- The fault of a leading surrogate with this text, other than a full escape, behind it. -/
def pairFault : List Char → Fault
  | [] => ⟨.endInString, [], 0⟩
  | ['\\'] => ⟨.endInString, [], 0⟩
  | '\\' :: 'u' :: rest => hexFault rest
  | '\\' :: rest => ⟨.incompletePair, rest, 1⟩
  | rest => ⟨.incompletePair, rest, 1⟩

/-- The characters up to the closing quotation mark, and what stands behind it. -/
def readString : List Char → Except Fault (List Char × List Char)
  | [] => .error ⟨.endInString, [], 0⟩
  | '\\' :: 'u' :: a :: b :: c :: d :: rest =>
    match hexUnit? a b c d with
    | none => .error (hexFault (a :: b :: c :: d :: rest))
    | some unit =>
      if isTrailing unit then .error ⟨.loneSurrogate, rest, 0⟩
      else if isLeading unit then
        match rest with
        | '\\' :: 'u' :: e :: f :: g :: h :: rest =>
          match hexUnit? e f g h with
          | none => .error (hexFault (e :: f :: g :: h :: rest))
          | some second =>
            if isTrailing second then
              (readString rest).map fun (s, left) ↦ (pairChar unit second :: s, left)
            else .error ⟨.loneSurrogate, rest, 0⟩
        | rest => .error (pairFault rest)
      else (readString rest).map fun (s, left) ↦ (Char.ofNat unit :: s, left)
  | ['\\'] => .error ⟨.endInString, [], 0⟩
  | '\\' :: c :: rest =>
    if c = 'u' then .error (hexFault rest)
    else match unescape? c with
      | some e => (readString rest).map fun (s, left) ↦ (e :: s, left)
      | none => .error ⟨.invalidEscape, c :: rest, 1⟩
  | c :: rest =>
    if c = '"' then .ok ([], rest)
    else if c.toNat < 0x20 then .error ⟨.controlCharacter, rest, 0⟩
    else (readString rest).map fun (s, left) ↦ (c :: s, left)

theorem readString_quote (rest : List Char) : readString ('"' :: rest) = .ok ([], rest) := by
  rw [readString, if_pos rfl] <;> simp

/-- What stands behind the closing quotation mark. -/
def skipString : List Char → Except Fault (List Char)
  | [] => .error ⟨.endInString, [], 0⟩
  | '\\' :: 'u' :: a :: b :: c :: d :: rest =>
    match hexUnit? a b c d with
    | none => .error (hexFault (a :: b :: c :: d :: rest))
    | some _ => skipString rest
  | ['\\'] => .error ⟨.endInString, [], 0⟩
  | '\\' :: c :: rest =>
    if c = 'u' then .error (hexFault rest)
    else if (unescape? c).isSome then skipString rest
    else .error ⟨.invalidEscape, c :: rest, 1⟩
  | c :: rest =>
    if c = '"' then .ok rest
    else if c.toNat < 0x20 then .error ⟨.controlCharacter, c :: rest, 0⟩
    else skipString rest

/-- Reads a string whose opening quotation mark comes next. -/
def Reader.string : Reader String := fun s ↦
  (readString s.tail).map fun (cs, rest) ↦ (String.ofList cs, rest)

/-- Passes over a string whose opening quotation mark comes next. -/
def Reader.ignoreString : Reader Unit := fun s ↦ (skipString s.tail).map fun rest ↦ ((), rest)

end ScriptBridge.Json
