import ScriptBridge.Proofs.Json.NumberTexts
import ScriptBridge.Value.Json

/-!
# What is written is JSON

A written string spells its characters, so it is read back as it was. The two ways to write a value
agree: the tree of a value and its text without a tree leave out the same numbers.
-/

namespace ScriptBridge.Json

open Text

variable {c : Char} {text chars : List Char}

/-! ## Strings -/

theorem isHexDigit_hexDigit {n : Nat} (h : n < 16) : IsHexDigit (hexDigit n) n := ⟨h, .inl rfl⟩

/-- A control character is a single unit, whose escape has four digits. -/
theorem unitEscape_control (hc : c.toNat < 0x20) : List.Forall₂ UnitEscape
    [['\\', 'u', '0', '0', hexDigit (c.toNat / 16), hexDigit (c.toNat % 16)]]
    (Units.ofChar c) := by
  have hunits : Units.ofChar c = [UInt16.ofNat c.toNat] := if_pos (by omega)
  have hnat : (UInt16.ofNat c.toNat).toNat = c.toNat :=
    UInt16.toNat_ofNat_of_lt' (Nat.lt_trans hc (by decide))
  rw [hunits]
  refine .cons (.mk (isHexDigit_hexDigit (n := 0) (by omega))
    (isHexDigit_hexDigit (n := 0) (by omega)) (isHexDigit_hexDigit (by omega))
    (isHexDigit_hexDigit (by omega)) ?_) .nil
  rw [hnat]
  omega

/-- A written character spells itself: escaped with a letter, with the number of its unit, or not
at all. -/
theorem spelling_escapeChar (c : Char) (h : Spelling text chars) :
    Spelling (escapeChar c ++ text) (c :: chars) := by
  unfold escapeChar
  iterate 7
    split
    · subst_vars
      exact .short (by decide) h
  split
  · next hc => simpa using Spelling.units (unitEscape_control hc) h
  · next hquote hbackslash _ _ _ _ _ hc => exact .plain ⟨hquote, hbackslash, Nat.not_lt.1 hc⟩ h

theorem spelling_flatMap_escapeChar (chars : List Char) :
    Spelling (chars.flatMap escapeChar) chars := by
  induction chars with
  | nil => exact .nil
  | cons c chars ih => exact spelling_escapeChar c ih

theorem toList_quoted (s : String) :
    (quoted s).toList = '"' :: (s.toList.flatMap escapeChar ++ ['"']) :=
  String.toList_ofList

theorem isValue_quoted (s : String) : IsValue (quoted s).toList := by
  rw [toList_quoted]
  exact .string (spelling_flatMap_escapeChar _).quotable

/-- A quoted string is read back as it was. -/
theorem string_quoted (s : String) (rest : List Char) :
    Reader.string ((quoted s).toList ++ rest) = .ok (s, rest) := by
  rw [toList_quoted, Reader.string, List.cons_append, List.tail_cons, List.append_assoc]
  rw [List.singleton_append, (spelling_flatMap_escapeChar s.toList).readString_eq]
  simp [Except.map]

/-! ## Trees -/

theorem isValue_toString (n : Nat) : IsValue (toString n).toList := by
  have htext : (toString n).toList = Nat.toDigits 10 n := String.toList_ofList
  rw [htext]
  exact .unsigned (isUnsigned_toDigits n)

theorem isMember_quoted (key : String) (value : List Char) :
    IsMember (key.toList.flatMap escapeChar, value) ((quoted key).toList ++ ':' :: value) := by
  have hnothing : Blank [] := nofun
  have hmember : IsMember (key.toList.flatMap escapeChar, value) _ :=
    .mk (spelling_flatMap_escapeChar key.toList).quotable hnothing hnothing
  simpa [toList_quoted] using hmember

/-- Items without blanks around them. -/
theorem Listed.first_compact {item : List Char} {items : List (List Char)}
    (h : Listed true items text) : Listed false (item :: items) (item ++ text) :=
  .first (show Blank [] from nofun) h

theorem Listed.next_compact {item : List Char} {items : List (List Char)}
    (h : Listed true items text) : Listed true (item :: items) (',' :: (item ++ text)) :=
  .next (show Blank [] from nofun) (show Blank [] from nofun) h

theorem toList_write_object (key : String) (value : Tree) (rest : List (String × Tree)) :
    (Tree.object ((key, value) :: rest)).write.toList =
      '\x7b' :: ((quoted key).toList ++ ':' :: value.write.toList ++
        (Tree.writeFields rest).toList ++ ['\x7d']) := by
  simp [Tree.write]

theorem toList_writeFields_cons (key : String) (value : Tree) (rest : List (String × Tree)) :
    (Tree.writeFields ((key, value) :: rest)).toList =
      ',' :: ((quoted key).toList ++ ':' :: value.write.toList ++
        (Tree.writeFields rest).toList) := by
  simp [Tree.writeFields]

mutual

/-- Every tree is written as a value. -/
theorem Tree.isValue_write : ∀ t : Tree, IsValue t.write.toList
  | .null => .nullWord
  | .bool true => .trueWord
  | .bool false => .falseWord
  | .number x => isValue_styleWrite numberStyle x
  | .natural n => isValue_toString n
  | .string s => isValue_quoted s
  | .object [] => by
    have hvalues : ∀ entry ∈ ([] : List (List Char × List Char)), IsValue entry.2 := nofun
    exact .object hvalues .nil (.nil (show Blank [] from nofun))
  | .object ((key, value) :: rest) => by
    obtain ⟨entries, members, hvalues, hmembers, h⟩ := Tree.listed_writeFields rest
    rw [toList_write_object]
    exact .object (List.forall_mem_cons.2 ⟨value.isValue_write, hvalues⟩)
      (.cons (isMember_quoted key value.write.toList) hmembers) h.first_compact

/-- The further fields of an object are written as members, each after a comma. -/
theorem Tree.listed_writeFields : ∀ fields : List (String × Tree), ∃ entries members,
    (∀ entry ∈ entries, IsValue entry.2) ∧ List.Forall₂ IsMember entries members ∧
      Listed true members (Tree.writeFields fields).toList
  | [] => by
    have hnothing : Blank (Tree.writeFields []).toList := by simp [Tree.writeFields, Blank]
    exact ⟨[], [], by simp, .nil, .nil hnothing⟩
  | (key, value) :: rest => by
    obtain ⟨entries, members, hvalues, hmembers, h⟩ := Tree.listed_writeFields rest
    rw [toList_writeFields_cons]
    exact ⟨_, _, List.forall_mem_cons.2 ⟨value.isValue_write, hvalues⟩,
      .cons (isMember_quoted key value.write.toList) hmembers, h.next_compact⟩

end

end ScriptBridge.Json

namespace ScriptBridge.Value

open Json

theorem write_handle (n : Nat) : (Tree.object [(handleKey, .natural n)]).write =
    "\x7b" ++ quoted handleKey ++ ":" ++ toString n ++ "\x7d" := by
  simp [Tree.write, Tree.writeFields]

/-- The text of a value is a JSON value, whatever its strings and numbers are. -/
theorem isValue_serialized (v : Value) : IsValue v.serialized.toList := by
  have hnull : IsValue "null".toList := .nullWord
  cases v with
  | undefined => exact hnull
  | null => exact hnull
  | boolean b =>
    cases b
    · exact .falseWord
    · exact .trueWord
  | number x =>
    cases hfinite : Decimal.isFinite x with
    | true =>
      rw [serialized, if_pos hfinite]
      exact isValue_styleWrite Json.numberStyle x
    | false =>
      rw [serialized, if_neg (by simp [hfinite])]
      exact hnull
  | string s => exact isValue_quoted s
  | object h =>
    rw [serialized, ← write_handle]
    exact Tree.isValue_write _

/-- The tree of a value and its text without a tree leave out the same, so both are written the
same. What is written is a JSON value, and a string is read back from it as it was. -/
theorem toJson_write (v : Value) : v.toJson.write = v.serialized ∧ IsValue v.serialized.toList ∧
    ∀ s, v = .string s → Reader.string v.serialized.toList = .ok (s, []) := by
  refine ⟨?_, isValue_serialized v, ?_⟩
  · cases v with
    | undefined => rfl
    | null => rfl
    | boolean b => cases b <;> rfl
    | number x =>
      rw [toJson, serialized]
      split <;> rfl
    | string s => rfl
    | object h => exact write_handle h.index
  · rintro s rfl
    have hread := string_quoted s []
    rwa [List.append_nil] at hread

end ScriptBridge.Value
