/-!
# Reading UTF-8

Bytes are read as the characters they encode. Overlong forms, surrogates, numbers above the last
code point, stray continuation bytes and sequences that break off are refused; the refusal says
where the offending sequence begins and, unless the input just ended too early, how many bytes of
it were wrong.
-/

namespace ScriptBridge.Text.Utf8

/-- Where and how a byte sequence stops being UTF-8. -/
structure Defect where
  /-- The bytes before this index are well formed. -/
  index : Nat
  /-- The length of the invalid sequence; absent where the input ends inside a sequence. -/
  length : Option Nat
  deriving DecidableEq, Repr

/-- The wording of a defect. -/
def Defect.message (d : Defect) : String :=
  match d.length with
  | some n => "invalid utf-8 sequence of " ++ toString n ++ " bytes from index " ++ toString d.index
  | none => "incomplete utf-8 byte sequence from index " ++ toString d.index

/-- A continuation byte. -/
def isTail (b : UInt8) : Bool := 0x80 ≤ b && b ≤ 0xbf

/-- The least and the greatest second byte after a leading byte of three. -/
def secondOfThree (a : UInt8) : UInt8 × UInt8 :=
  if a = 0xe0 then (0xa0, 0xbf) else if a = 0xed then (0x80, 0x9f) else (0x80, 0xbf)

/-- The least and the greatest second byte after a leading byte of four. -/
def secondOfFour (a : UInt8) : UInt8 × UInt8 :=
  if a = 0xf0 then (0x90, 0xbf) else if a = 0xf4 then (0x80, 0x8f) else (0x80, 0xbf)

/-- The six payload bits of a continuation byte. -/
def payload (b : UInt8) : Nat := b.toNat % 64

def scalar₂ (a b : UInt8) : Char := Char.ofNat (a.toNat % 32 * 64 + payload b)

def scalar₃ (a b c : UInt8) : Char :=
  Char.ofNat ((a.toNat % 16 * 64 + payload b) * 64 + payload c)

def scalar₄ (a b c d : UInt8) : Char :=
  Char.ofNat (((a.toNat % 8 * 64 + payload b) * 64 + payload c) * 64 + payload d)

/-- Reads from the index `i` on. -/
def decodeFrom (i : Nat) : List UInt8 → Except Defect (List Char)
  | [] => .ok []
  | a :: rest =>
    if a < 0x80 then (decodeFrom (i + 1) rest).map (Char.ofNat a.toNat :: ·)
    else if 0xc2 ≤ a && a ≤ 0xdf then
      match rest with
      | [] => .error ⟨i, none⟩
      | b :: rest =>
        if isTail b then (decodeFrom (i + 2) rest).map (scalar₂ a b :: ·)
        else .error ⟨i, some 1⟩
    else if 0xe0 ≤ a && a ≤ 0xef then
      match rest with
      | [] => .error ⟨i, none⟩
      | b :: rest =>
        if (secondOfThree a).1 ≤ b && b ≤ (secondOfThree a).2 then
          match rest with
          | [] => .error ⟨i, none⟩
          | c :: rest =>
            if isTail c then (decodeFrom (i + 3) rest).map (scalar₃ a b c :: ·)
            else .error ⟨i, some 2⟩
        else .error ⟨i, some 1⟩
    else if 0xf0 ≤ a && a ≤ 0xf4 then
      match rest with
      | [] => .error ⟨i, none⟩
      | b :: rest =>
        if (secondOfFour a).1 ≤ b && b ≤ (secondOfFour a).2 then
          match rest with
          | [] => .error ⟨i, none⟩
          | c :: rest =>
            if isTail c then
              match rest with
              | [] => .error ⟨i, none⟩
              | d :: rest =>
                if isTail d then (decodeFrom (i + 4) rest).map (scalar₄ a b c d :: ·)
                else .error ⟨i, some 3⟩
            else .error ⟨i, some 2⟩
        else .error ⟨i, some 1⟩
    else .error ⟨i, some 1⟩

/-- The characters that the bytes encode. -/
def decode (bytes : List UInt8) : Except Defect (List Char) := decodeFrom 0 bytes

end ScriptBridge.Text.Utf8
