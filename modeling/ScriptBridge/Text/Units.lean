/-!
# Texts of 16-bit units

Scripts hold text as a list of 16-bit units, in which a character beyond the first plane is a pair
of surrogates. Scripts may build lists in which surrogates stand alone; those are no text. Encoding
a string and decoding the units gives the string back.
-/

namespace ScriptBridge.Text

/-- A text by its 16-bit units. -/
abbrev Units := List UInt16

namespace Units

/-- The first unit of a pair. -/
def isHigh (u : UInt16) : Bool := 0xD800 ≤ u && u < 0xDC00

/-- The second unit of a pair. -/
def isLow (u : UInt16) : Bool := 0xDC00 ≤ u && u < 0xE000

/-- The units of a character. -/
def ofChar (c : Char) : Units :=
  if c.toNat < 0x10000 then [UInt16.ofNat c.toNat]
  else
    let n := c.toNat - 0x10000
    [UInt16.ofNat (0xD800 + n / 0x400), UInt16.ofNat (0xDC00 + n % 0x400)]

/-- The units of a string. -/
def ofString (s : String) : Units := s.toList.flatMap ofChar

/-- The character of a unit that is no surrogate. -/
def single (u : UInt16) : Char := Char.ofNat u.toNat

/-- The character of a pair. -/
def paired (high low : UInt16) : Char :=
  Char.ofNat (0x10000 + (high.toNat - 0xD800) * 0x400 + (low.toNat - 0xDC00))

/-- The characters of a text, or the place of the first surrogate that stands alone: the number of
bytes that the characters before it take in UTF-8, counted from `offset`. -/
def decodeFrom : Nat → Units → Except Nat (List Char)
  | _, [] => .ok []
  | offset, [u] => if isHigh u || isLow u then .error offset else .ok [single u]
  | offset, u :: v :: rest =>
    if isHigh u && isLow v then (paired u v :: ·) <$> decodeFrom (offset + 4) rest
    else if isHigh u || isLow u then .error offset
    else (single u :: ·) <$> decodeFrom (offset + (single u).utf8Size) (v :: rest)

/-- The string that a text is, or the place of the first surrogate that stands alone. -/
def decode (units : Units) : Except Nat String := String.ofList <$> decodeFrom 0 units

/-- The string that a text is, if all its surrogates are paired. -/
def toString? (units : Units) : Option String := (decode units).toOption

/-- No character is a surrogate. -/
theorem not_surrogate_of_char (c : Char) :
    c.toNat < 0xD800 ∨ 0xDFFF < c.toNat ∧ c.toNat < 0x110000 :=
  c.valid

theorem utf8Size_eq_four {c : Char} (h : 0x10000 ≤ c.toNat) : c.utf8Size = 4 := by
  have above (bound : UInt32) (hb : bound.toNat < 0x10000) : ¬ c.val ≤ bound := by
    rw [UInt32.le_iff_toNat_le]
    exact Nat.not_le.2 (Nat.lt_of_lt_of_le hb h)
  simp [Char.utf8Size, above]

/-- A character of the first plane is one unit, which is no surrogate. -/
theorem ofChar_of_lt {c : Char} (h : c.toNat < 0x10000) :
    ∃ u : UInt16, ofChar c = [u] ∧ isHigh u = false ∧ isLow u = false ∧ single u = c := by
  refine ⟨UInt16.ofNat c.toNat, by simp [ofChar, h], ?_, ?_, ?_⟩
  · have := not_surrogate_of_char c
    simp [isHigh, UInt16.le_iff_toNat_le, UInt16.lt_iff_toNat_lt, Nat.mod_eq_of_lt h]
    omega
  · have := not_surrogate_of_char c
    simp [isLow, UInt16.le_iff_toNat_le, UInt16.lt_iff_toNat_lt, Nat.mod_eq_of_lt h]
    omega
  · simp [single, Nat.mod_eq_of_lt h]

/-- A character beyond the first plane is a pair of surrogates. -/
theorem ofChar_of_le {c : Char} (h : 0x10000 ≤ c.toNat) :
    ∃ u v : UInt16, ofChar c = [u, v] ∧ isHigh u = true ∧ isLow v = true ∧ paired u v = c := by
  have hv := not_surrogate_of_char c
  have hu : (0xD800 + (c.toNat - 0x10000) / 0x400) < 2 ^ 16 := by omega
  have hl : (0xDC00 + (c.toNat - 0x10000) % 0x400) < 2 ^ 16 := by omega
  refine ⟨UInt16.ofNat (0xD800 + (c.toNat - 0x10000) / 0x400),
    UInt16.ofNat (0xDC00 + (c.toNat - 0x10000) % 0x400), ?_, ?_, ?_, ?_⟩
  · simp [ofChar, Nat.not_lt.2 h]
  · simp only [isHigh, Bool.and_eq_true, decide_eq_true_eq, UInt16.le_iff_toNat_le,
      UInt16.lt_iff_toNat_lt, UInt16.toNat_ofNat', Nat.mod_eq_of_lt hu, UInt16.reduceToNat]
    omega
  · simp only [isLow, Bool.and_eq_true, decide_eq_true_eq, UInt16.le_iff_toNat_le,
      UInt16.lt_iff_toNat_lt, UInt16.toNat_ofNat', Nat.mod_eq_of_lt hl, UInt16.reduceToNat]
    omega
  · have e : 0x10000 + (0xD800 + (c.toNat - 0x10000) / 0x400 - 0xD800) * 0x400 +
        (0xDC00 + (c.toNat - 0x10000) % 0x400 - 0xDC00) = c.toNat := by omega
    simp only [paired, UInt16.toNat_ofNat', Nat.mod_eq_of_lt hu, Nat.mod_eq_of_lt hl, e,
      Char.ofNat_toNat]

theorem decodeFrom_ofChar (c : Char) (offset : Nat) (rest : Units) :
    decodeFrom offset (ofChar c ++ rest) =
      (c :: ·) <$> decodeFrom (offset + c.utf8Size) rest := by
  by_cases h : c.toNat < 0x10000
  · obtain ⟨u, hu, hh, hl, hs⟩ := ofChar_of_lt h
    cases rest with
    | nil => simp [hu, decodeFrom, hh, hl, hs, Functor.map, Except.map]
    | cons v rest => simp [hu, decodeFrom, hh, hl, hs]
  · obtain ⟨u, v, hu, hh, hl, hp⟩ := ofChar_of_le (Nat.not_lt.1 h)
    simp [hu, decodeFrom, hh, hl, hp, utf8Size_eq_four (Nat.not_lt.1 h)]

theorem decodeFrom_flatMap_ofChar (cs : List Char) (offset : Nat) :
    decodeFrom offset (cs.flatMap ofChar) = .ok cs := by
  induction cs generalizing offset with
  | nil => simp [decodeFrom]
  | cons c cs ih => simp only [List.flatMap_cons, decodeFrom_ofChar, ih]; rfl

/-- Decoding the units of a string gives the string back. -/
@[simp]
theorem decode_ofString (s : String) : decode (ofString s) = .ok s := by
  simp only [decode, ofString, decodeFrom_flatMap_ofChar]
  exact congrArg Except.ok String.ofList_toList

end Units

end ScriptBridge.Text
