import ScriptBridge.Json.StringReader
import ScriptBridge.Proofs.Json.Grammar

/-!
# Quoted strings are read as they are spelled

Behind an opening quotation mark the reader gives the characters that the text spells, whichever
spelling is used for each, and refuses a text that spells none. Who only looks for the end finds
the closing quotation mark behind any text whose escapes are complete.
-/

namespace ScriptBridge.Json

open Text

/-! ## Spellings -/

/-- What needs no escapes spells itself. -/
theorem spelling_of_isPlain {chars : List Char} (h : ∀ c ∈ chars, IsPlain c) :
    Spelling chars chars := by
  induction chars with
  | nil => exact .nil
  | cons c chars ih =>
    obtain ⟨hc, h⟩ := List.forall_mem_cons.1 h
    exact .plain hc (ih h)

theorem quotable_escapes {escapes : List (List Char)} {units : List UInt16} {text : List Char}
    (he : List.Forall₂ UnitEscape escapes units) (h : Quotable text) :
    Quotable (escapes.flatten ++ text) := by
  induction he with
  | nil => exact h
  | cons hescape _ ih =>
    rw [List.flatten_cons, List.append_assoc]
    exact .unit hescape ih

/-- What spells a string may stand between quotation marks. -/
theorem Spelling.quotable {text chars : List Char} (h : Spelling text chars) : Quotable text := by
  induction h with
  | nil => exact .nil
  | plain hc _ ih => exact .plain hc ih
  | short he _ ih => exact .short he ih
  | units he _ ih => exact quotable_escapes he ih

/-! ## Escapes -/

theorem IsHexDigit.hexValue?_eq {c : Char} {n : Nat} (h : IsHexDigit c n) :
    hexValue? c = some n := by
  have hall : ∀ n < 16, hexValue? (Nat.digitChar n) = some n ∧
      hexValue? (Nat.digitChar n).toUpper = some n := by decide
  obtain ⟨hn, rfl | rfl⟩ := h
  · exact (hall n hn).1
  · exact (hall n hn).2

/-- The escape of a unit has four digits, which are read as the unit. -/
theorem UnitEscape.eq_cons {escape : List Char} {u : UInt16} (h : UnitEscape escape u) :
    ∃ a b c d, escape = ['\\', 'u', a, b, c, d] ∧ hexUnit? a b c d = some u.toNat := by
  cases h with
  | mk ha hb hc hd hu =>
    refine ⟨_, _, _, _, rfl, ?_⟩
    simp [hexUnit?, ha.hexValue?_eq, hb.hexValue?_eq, hc.hexValue?_eq, hd.hexValue?_eq, hu]

theorem unescape?_of_mem {e c : Char} (h : (e, c) ∈ shortEscapes) :
    unescape? e = some c ∧ e ≠ 'u' := by
  have hall : ∀ escape ∈ shortEscapes, unescape? escape.1 = some escape.2 ∧ escape.1 ≠ 'u' := by
    decide
  exact hall _ h

theorem isLeading_toNat (u : UInt16) : isLeading u.toNat = Units.isHigh u := by
  rw [Bool.eq_iff_iff]
  simp only [isLeading, Units.isHigh, Bool.and_eq_true, decide_eq_true_eq,
    UInt16.le_iff_toNat_le, UInt16.lt_iff_toNat_lt, UInt16.reduceToNat]
  omega

theorem isTrailing_toNat (u : UInt16) : isTrailing u.toNat = Units.isLow u := by
  rw [Bool.eq_iff_iff]
  simp only [isTrailing, Units.isLow, Bool.and_eq_true, decide_eq_true_eq,
    UInt16.le_iff_toNat_le, UInt16.lt_iff_toNat_lt, UInt16.reduceToNat]
  omega

theorem isLow_of_isHigh {u : UInt16} (h : Units.isHigh u = true) : Units.isLow u = false := by
  rw [← isLeading_toNat, isLeading, Bool.and_eq_true, decide_eq_true_eq, decide_eq_true_eq] at h
  rw [← isTrailing_toNat, isTrailing, Bool.and_eq_false_iff, decide_eq_false_iff_not]
  omega

theorem pairChar_toNat (u v : UInt16) : pairChar u.toNat v.toNat = Units.paired u v :=
  congrArg Char.ofNat (by omega)

/-! ## One character -/

/-- What is read of a string whose first character was read already. -/
def readBehind (c : Char) (rest : List Char) : Except Fault (List Char × List Char) :=
  (readString rest).map fun (chars, left) ↦ (c :: chars, left)

theorem readBehind_of_ok {c : Char} {rest chars left : List Char}
    (h : readString rest = .ok (chars, left)) : readBehind c rest = .ok (c :: chars, left) := by
  rw [readBehind, h]
  rfl

theorem readBehind_of_error {c : Char} {rest : List Char} {fault : Fault}
    (h : readString rest = .error fault) : readBehind c rest = .error fault := by
  rw [readBehind, h]
  rfl

theorem readString_plain {c : Char} (hc : IsPlain c) (rest : List Char) :
    readString (c :: rest) = readBehind c rest := by
  obtain ⟨hquote, hbackslash, hcontrol⟩ := hc
  rw [readString, if_neg hquote, if_neg (Nat.not_lt.2 hcontrol), readBehind] <;> simp [hbackslash]

theorem readString_short {e c : Char} (h : (e, c) ∈ shortEscapes) (rest : List Char) :
    readString ('\\' :: e :: rest) = readBehind c rest := by
  obtain ⟨hletter, hu⟩ := unescape?_of_mem h
  rw [readString, if_neg hu, hletter, readBehind]
  simp [hu]

/-- What is read behind a leading surrogate. -/
def readPaired (leading : Nat) : List Char → Except Fault (List Char × List Char)
  | '\\' :: 'u' :: a :: b :: c :: d :: rest =>
    match hexUnit? a b c d with
    | none => .error (hexFault (a :: b :: c :: d :: rest))
    | some unit =>
      if isTrailing unit then readBehind (pairChar leading unit) rest
      else .error ⟨.loneSurrogate, rest, 0⟩
  | rest => .error (pairFault rest)

/-- The escape of a unit is read by what kind of unit it is. -/
theorem readString_unit {escape : List Char} {u : UInt16} (h : UnitEscape escape u)
    (rest : List Char) : readString (escape ++ rest) =
      if Units.isLow u then .error ⟨.loneSurrogate, rest, 0⟩
      else if Units.isHigh u then readPaired u.toNat rest
      else readBehind (Units.single u) rest := by
  obtain ⟨a, b, c, d, rfl, hunit⟩ := h.eq_cons
  rw [← isTrailing_toNat, ← isLeading_toNat]
  simp only [List.cons_append, List.nil_append, readString, hunit]
  rfl

/-- A unit that is no surrogate is a character. -/
theorem readString_single {escape : List Char} {u : UInt16} (h : UnitEscape escape u)
    (hhigh : Units.isHigh u = false) (hlow : Units.isLow u = false) (rest : List Char) :
    readString (escape ++ rest) = readBehind (Units.single u) rest := by
  simp [readString_unit h, hhigh, hlow]

/-- A pair of surrogates is a character. -/
theorem readString_pair {first second : List Char} {u v : UInt16} (hu : UnitEscape first u)
    (hv : UnitEscape second v) (hhigh : Units.isHigh u = true) (hlow : Units.isLow v = true)
    (rest : List Char) :
    readString (first ++ (second ++ rest)) = readBehind (Units.paired u v) rest := by
  obtain ⟨a, b, c, d, rfl, hsecond⟩ := hv.eq_cons
  rw [← isTrailing_toNat] at hlow
  simp [readString_unit hu, isLow_of_isHigh hhigh, hhigh, readPaired, hsecond, hlow,
    pairChar_toNat]

theorem readString_units {c : Char} {escapes : List (List Char)}
    (h : List.Forall₂ UnitEscape escapes (Units.ofChar c)) (rest : List Char) :
    readString (escapes.flatten ++ rest) = readBehind c rest := by
  by_cases hc : c.toNat < 0x10000
  · obtain ⟨u, hu, hhigh, hlow, rfl⟩ := Units.ofChar_of_lt hc
    rw [hu] at h
    cases h with
    | cons he hnil =>
      cases hnil
      simpa using readString_single he hhigh hlow rest
  · obtain ⟨u, v, huv, hhigh, hlow, rfl⟩ := Units.ofChar_of_le (Nat.not_lt.1 hc)
    rw [huv] at h
    cases h with
    | cons he hsecond =>
      cases hsecond with
      | cons he' hnil =>
        cases hnil
        simpa using readString_pair he he' hhigh hlow rest

/-! ## Whole strings -/

/-- What is spelled is read, up to the closing quotation mark. -/
theorem Spelling.readString_eq {text chars : List Char} (h : Spelling text chars)
    (rest : List Char) : readString (text ++ '"' :: rest) = .ok (chars, rest) := by
  induction h with
  | nil => exact readString_quote rest
  | plain hc _ ih => rw [List.cons_append, readString_plain hc, readBehind_of_ok ih]
  | short he _ ih =>
    rw [List.cons_append, List.cons_append, readString_short he, readBehind_of_ok ih]
  | units he _ ih => rw [List.append_assoc, readString_units he, readBehind_of_ok ih]

/-- A text spells one string at most. -/
theorem Spelling.unique {text chars chars' : List Char} (h : Spelling text chars)
    (h' : Spelling text chars') : chars = chars' := by
  have hread := h.readString_eq []
  rw [h'.readString_eq []] at hread
  cases hread
  rfl

theorem toNat_ofNat {n : Nat} (h : n.isValidChar) : (Char.ofNat n).toNat = n := by
  rw [Char.ofNat, dif_pos h]
  rfl

theorem ofChar_single {u : UInt16} (hhigh : Units.isHigh u = false)
    (hlow : Units.isLow u = false) : Units.ofChar (Units.single u) = [u] := by
  have hbound := u.toNat_lt
  have hnat : (Units.single u).toNat = u.toNat := by
    rw [← isLeading_toNat, isLeading, Bool.and_eq_false_iff, decide_eq_false_iff_not,
      decide_eq_false_iff_not] at hhigh
    rw [← isTrailing_toNat, isTrailing, Bool.and_eq_false_iff, decide_eq_false_iff_not,
      decide_eq_false_iff_not] at hlow
    exact toNat_ofNat (by unfold Nat.isValidChar; omega)
  simp [Units.ofChar, hnat, hbound]

theorem ofChar_paired {u v : UInt16} (hhigh : Units.isHigh u = true)
    (hlow : Units.isLow v = true) : Units.ofChar (Units.paired u v) = [u, v] := by
  rw [← isLeading_toNat, isLeading, Bool.and_eq_true, decide_eq_true_eq,
    decide_eq_true_eq] at hhigh
  rw [← isTrailing_toNat, isTrailing, Bool.and_eq_true, decide_eq_true_eq,
    decide_eq_true_eq] at hlow
  have hnat : (Units.paired u v).toNat =
      0x10000 + (u.toNat - 0xD800) * 0x400 + (v.toNat - 0xDC00) :=
    toNat_ofNat (by unfold Nat.isValidChar; omega)
  have hfirst : 0xD800 + ((Units.paired u v).toNat - 0x10000) / 0x400 = u.toNat := by omega
  have hsecond : 0xDC00 + ((Units.paired u v).toNat - 0x10000) % 0x400 = v.toNat := by omega
  rw [Units.ofChar, if_neg (by omega)]
  simp [hfirst, hsecond]

/-- A leading surrogate has to be followed by a trailing one. -/
theorem readString_lone {escape text : List Char} {u : UInt16} (h : UnitEscape escape u)
    (hhigh : Units.isHigh u = true) (htext : Quotable text)
    (hlone : ∀ second v text', UnitEscape second v → Quotable text' → text = second ++ text' →
      Units.isLow v = false) (rest : List Char) :
    ∃ fault, readString (escape ++ (text ++ '"' :: rest)) = .error fault := by
  rw [readString_unit h, isLow_of_isHigh hhigh, hhigh]
  cases htext with
  | nil => simp [readPaired]
  | plain hc => simp [readPaired, hc.2.1]
  | short he => simp [readPaired, (unescape?_of_mem he).2]
  | unit he h =>
    have hlow := hlone _ _ _ he h rfl
    obtain ⟨a, b, c, d, rfl, hsecond⟩ := he.eq_cons
    rw [← isTrailing_toNat] at hlow
    simp [readPaired, hsecond, hlow]

theorem readString_trailing {escape : List Char} {u : UInt16} (h : UnitEscape escape u)
    (hlow : Units.isLow u = true) (rest : List Char) :
    ∃ fault, readString (escape ++ rest) = .error fault := by
  exact ⟨_, (readString_unit h rest).trans (if_pos hlow)⟩

/-- What happens first to a text between quotation marks: it is at its end, it is refused, or it
begins with the spelling of one character. -/
theorem Quotable.step {text : List Char} (h : Quotable text) :
    text = [] ∨ (∀ rest, ∃ fault, readString (text ++ '"' :: rest) = .error fault) ∨
      ∃ c text', text'.length < text.length ∧ Quotable text' ∧
        (∀ rest, readString (text ++ '"' :: rest) = readBehind c (text' ++ '"' :: rest)) ∧
        ∀ chars, Spelling text' chars → Spelling text (c :: chars) := by
  cases h with
  | nil => exact .inl rfl
  | @plain c text hc h =>
    exact .inr (.inr ⟨c, text, by simp, h, fun rest ↦ readString_plain hc _, fun _ ↦ .plain hc⟩)
  | @short e c text he h =>
    refine .inr (.inr ⟨c, text, ?_, h, fun rest ↦ readString_short he _, fun _ ↦ .short he⟩)
    simp only [List.length_cons]
    omega
  | @unit escape text u he h =>
    have hlength : text.length < (escape ++ text).length := by
      obtain ⟨a, b, c, d, rfl, -⟩ := he.eq_cons
      simp only [List.length_append, List.length_cons]
      omega
    simp only [List.append_assoc]
    cases hlow : Units.isLow u with
    | true => exact .inr (.inl fun rest ↦ readString_trailing he hlow _)
    | false =>
      cases hhigh : Units.isHigh u with
      | false =>
        have hunits : List.Forall₂ UnitEscape [escape] (Units.ofChar (Units.single u)) := by
          rw [ofChar_single hhigh hlow]
          exact .cons he .nil
        refine .inr (.inr ⟨_, text, hlength, h, fun rest ↦ readString_single he hhigh hlow _,
          fun chars hs ↦ ?_⟩)
        simpa using Spelling.units hunits hs
      | true =>
        by_cases hpair : ∃ second v text', UnitEscape second v ∧ Units.isLow v = true ∧
          Quotable text' ∧ text = second ++ text'
        · obtain ⟨second, v, text', he', hlow', h', rfl⟩ := hpair
          have hunits : List.Forall₂ UnitEscape [escape, second]
              (Units.ofChar (Units.paired u v)) := by
            rw [ofChar_paired hhigh hlow']
            exact .cons he (.cons he' .nil)
          refine .inr (.inr ⟨Units.paired u v, text', ?_, h', fun rest ↦ ?_, fun chars hs ↦ ?_⟩)
          · simp only [List.length_append] at hlength ⊢
            omega
          · rw [List.append_assoc]
            exact readString_pair he he' hhigh hlow' _
          · simpa using Spelling.units hunits hs
        · refine .inr (.inl (readString_lone he hhigh h fun second v text' he' h' heq ↦ ?_))
          rw [← Bool.not_eq_true]
          exact fun hlow' ↦ hpair ⟨second, v, text', he', hlow', h', heq⟩

/-- A text that spells no string, since a surrogate in it stands alone, is refused. -/
theorem Quotable.readString_refuses {text : List Char} (h : Quotable text)
    (hnone : ∀ chars, ¬ Spelling text chars) (rest : List Char) :
    ∃ fault, readString (text ++ '"' :: rest) = .error fault := by
  induction hn : text.length using Nat.strongRecOn generalizing text with
  | ind n ih =>
    obtain rfl | hrefused | ⟨c, text', hlength, h', hread, hspelling⟩ := h.step
    · exact absurd .nil (hnone [])
    · exact hrefused rest
    · obtain ⟨fault, hfault⟩ :=
        ih _ (hn ▸ hlength) h' (fun chars hs ↦ hnone _ (hspelling chars hs)) rfl
      exact ⟨fault, by rw [hread, readBehind_of_error hfault]⟩

/-! ## The end of a string -/

theorem Quotable.skipString_eq {text : List Char} (h : Quotable text) (rest : List Char) :
    skipString (text ++ '"' :: rest) = .ok rest := by
  induction h with
  | nil => rw [List.nil_append, skipString, if_pos rfl] <;> simp
  | plain hc _ ih =>
    obtain ⟨hquote, hbackslash, hcontrol⟩ := hc
    rw [List.cons_append, skipString, if_neg hquote, if_neg (Nat.not_lt.2 hcontrol), ih] <;>
      simp [hbackslash]
  | short he _ ih =>
    obtain ⟨hletter, hu⟩ := unescape?_of_mem he
    rw [List.cons_append, List.cons_append, skipString, if_neg hu, hletter, ih]
    · rfl
    · simp [hu]
  | unit he _ ih =>
    obtain ⟨a, b, c, d, rfl, hunit⟩ := he.eq_cons
    simp [skipString, hunit, ih]

end ScriptBridge.Json
