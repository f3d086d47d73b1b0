import ScriptBridge.Text.Utf8

/-!
# Which bytes are UTF-8

The reader takes one well-formed sequence after the other: `Sequence` lists them, one length at a
time, and they are exactly what the characters encode to. So the reader accepts the encodings of
texts and nothing else. What it refuses is an encoding of a text, up to the index that it reports,
followed by one of the beginnings that `IllFormed` lists.
-/

namespace ScriptBridge.Text.Utf8

/-! ## Bytes as numbers -/

theorem isTail_iff {b : UInt8} : isTail b = true ↔ 128 ≤ b.toNat ∧ b.toNat ≤ 191 := by
  rw [isTail, Bool.and_eq_true, decide_eq_true_eq, decide_eq_true_eq, UInt8.le_iff_toNat_le,
    UInt8.le_iff_toNat_le]
  rfl

/-- The second byte after a leading byte of three: a continuation byte, but after the first leading
byte none that would do with two, and after the one before the surrogates none of these. -/
theorem secondOfThree_iff {a b : UInt8} :
    (secondOfThree a).1 ≤ b ∧ b ≤ (secondOfThree a).2 ↔
      (128 ≤ b.toNat ∧ b.toNat ≤ 191) ∧ (a.toNat = 224 → 160 ≤ b.toNat) ∧
        (a.toNat = 237 → b.toNat ≤ 159) := by
  rw [UInt8.le_iff_toNat_le, UInt8.le_iff_toNat_le, secondOfThree]
  split
  · next h =>
    subst h
    simp
    omega
  · next hfirst =>
    have hfirst' : a.toNat ≠ 224 := fun h ↦ hfirst (UInt8.toNat_inj.1 h)
    split
    · next h =>
      subst h
      simp
      omega
    · next hsurrogate =>
      have hsurrogate' : a.toNat ≠ 237 := fun h ↦ hsurrogate (UInt8.toNat_inj.1 h)
      simp [hfirst', hsurrogate']

/-- The second byte after a leading byte of four: a continuation byte, but after the first leading
byte none that would do with three, and after the last one none that leads above the last code
point. -/
theorem secondOfFour_iff {a b : UInt8} :
    (secondOfFour a).1 ≤ b ∧ b ≤ (secondOfFour a).2 ↔
      (128 ≤ b.toNat ∧ b.toNat ≤ 191) ∧ (a.toNat = 240 → 144 ≤ b.toNat) ∧
        (a.toNat = 244 → b.toNat ≤ 143) := by
  rw [UInt8.le_iff_toNat_le, UInt8.le_iff_toNat_le, secondOfFour]
  split
  · next h =>
    subst h
    simp
    omega
  · next hfirst =>
    have hfirst' : a.toNat ≠ 240 := fun h ↦ hfirst (UInt8.toNat_inj.1 h)
    split
    · next h =>
      subst h
      simp
      omega
    · next hlast =>
      have hlast' : a.toNat ≠ 244 := fun h ↦ hlast (UInt8.toNat_inj.1 h)
      simp [hfirst', hlast']

theorem eq_ofNat {a : UInt8} {n : Nat} (h : n = a.toNat) : UInt8.ofNat n = a := by
  rw [h, UInt8.ofNat_toNat]

theorem toNat_ofNat {n : Nat} (h : n < 256) : (UInt8.ofNat n).toNat = n := by
  rw [UInt8.toNat_ofNat', Nat.mod_eq_of_lt h]

theorem val_ofNat {n : Nat} (h : n.isValidChar) : (Char.ofNat n).val.toNat = n := by
  rw [Char.ofNat, dif_pos h]
  rfl

theorem ofNat_eq {c : Char} {n : Nat} (h : n = c.val.toNat) : Char.ofNat n = c := by
  subst h
  exact Char.ofNat_toNat c

/-! ## The sequences of one character -/

/-- The well-formed sequences and the characters they stand for, by length. -/
inductive Sequence : Char → List UInt8 → Prop
  | one {a : UInt8} (ha : a < 0x80) : Sequence (Char.ofNat a.toNat) [a]
  | two {a b : UInt8} (ha : 0xc2 ≤ a ∧ a ≤ 0xdf) (hb : isTail b = true) :
    Sequence (scalar₂ a b) [a, b]
  | three {a b c : UInt8} (ha : 0xe0 ≤ a ∧ a ≤ 0xef)
    (hb : (secondOfThree a).1 ≤ b ∧ b ≤ (secondOfThree a).2) (hc : isTail c = true) :
    Sequence (scalar₃ a b c) [a, b, c]
  | four {a b c d : UInt8} (ha : 0xf0 ≤ a ∧ a ≤ 0xf4)
    (hb : (secondOfFour a).1 ≤ b ∧ b ≤ (secondOfFour a).2) (hc : isTail c = true)
    (hd : isTail d = true) : Sequence (scalar₄ a b c d) [a, b, c, d]

namespace Sequence

variable {c : Char} {s : List UInt8}

/-- A sequence is what its character encodes to. -/
theorem eq_encode (h : Sequence c s) : s = String.utf8EncodeChar c := by
  cases h with
  | @one a ha =>
    have hlead : a.toNat < 128 := ha
    have hval : (Char.ofNat a.toNat).val.toNat = a.toNat := val_ofNat (.inl (by omega))
    simp only [String.utf8EncodeChar, hval]
    rw [if_pos (by omega), UInt8.ofNat_toNat]
  | @two a b ha hb =>
    have hlead : 194 ≤ a.toNat ∧ a.toNat ≤ 223 := ha
    rw [isTail_iff] at hb
    have hval : (scalar₂ a b).val.toNat = a.toNat % 32 * 64 + b.toNat % 64 :=
      val_ofNat (.inl (by unfold payload; omega))
    simp only [String.utf8EncodeChar, hval]
    rw [if_neg (by omega), if_pos (by omega), eq_ofNat (a := a) (by omega),
      eq_ofNat (a := b) (by omega)]
  | @three a b c ha hb hc =>
    have hlead : 224 ≤ a.toNat ∧ a.toNat ≤ 239 := ha
    rw [secondOfThree_iff] at hb
    rw [isTail_iff] at hc
    have hvalid : ((a.toNat % 16 * 64 + b.toNat % 64) * 64 + c.toNat % 64).isValidChar := by
      unfold Nat.isValidChar
      omega
    have hval : (scalar₃ a b c).val.toNat =
        (a.toNat % 16 * 64 + b.toNat % 64) * 64 + c.toNat % 64 := val_ofNat hvalid
    simp only [String.utf8EncodeChar, hval]
    rw [if_neg (by omega), if_neg (by omega), if_pos (by omega), eq_ofNat (a := a) (by omega),
      eq_ofNat (a := b) (by omega), eq_ofNat (a := c) (by omega)]
  | @four a b c d ha hb hc hd =>
    have hlead : 240 ≤ a.toNat ∧ a.toNat ≤ 244 := ha
    rw [secondOfFour_iff] at hb
    rw [isTail_iff] at hc hd
    have hvalid : (((a.toNat % 8 * 64 + b.toNat % 64) * 64 + c.toNat % 64) * 64 +
        d.toNat % 64).isValidChar := by
      unfold Nat.isValidChar
      omega
    have hval : (scalar₄ a b c d).val.toNat =
        ((a.toNat % 8 * 64 + b.toNat % 64) * 64 + c.toNat % 64) * 64 + d.toNat % 64 :=
      val_ofNat hvalid
    simp only [String.utf8EncodeChar, hval]
    rw [if_neg (by omega), if_neg (by omega), if_neg (by omega), eq_ofNat (a := a) (by omega),
      eq_ofNat (a := b) (by omega), eq_ofNat (a := c) (by omega), eq_ofNat (a := d) (by omega)]

/-- What a character encodes to is a sequence. -/
theorem encode (c : Char) : Sequence c (String.utf8EncodeChar c) := by
  have hvalid : c.val.toNat.isValidChar := c.valid
  unfold Nat.isValidChar at hvalid
  simp only [String.utf8EncodeChar]
  generalize hv : c.val.toNat = v at hvalid ⊢
  by_cases h₁ : v ≤ 127
  · rw [if_pos h₁]
    have ha : (UInt8.ofNat v).toNat = v := toNat_ofNat (by omega)
    have hc : Char.ofNat (UInt8.ofNat v).toNat = c := ofNat_eq (by omega)
    have hlead : (UInt8.ofNat v).toNat < 128 := by omega
    have hseq : Sequence (Char.ofNat (UInt8.ofNat v).toNat) [UInt8.ofNat v] := one hlead
    rwa [hc] at hseq
  rw [if_neg h₁]
  by_cases h₂ : v ≤ 2047
  · rw [if_pos h₂]
    have ha : (UInt8.ofNat (v / 64 % 32 + 192)).toNat = v / 64 % 32 + 192 :=
      toNat_ofNat (by omega)
    have hb : (UInt8.ofNat (v % 64 + 128)).toNat = v % 64 + 128 := toNat_ofNat (by omega)
    generalize UInt8.ofNat (v / 64 % 32 + 192) = a at ha ⊢
    generalize UInt8.ofNat (v % 64 + 128) = b at hb ⊢
    have hc : scalar₂ a b = c := ofNat_eq (by unfold payload; omega)
    have hlead : 194 ≤ a.toNat ∧ a.toNat ≤ 223 := by omega
    rw [← hc]
    exact two hlead (isTail_iff.2 (by omega))
  rw [if_neg h₂]
  by_cases h₃ : v ≤ 65535
  · rw [if_pos h₃]
    have ha : (UInt8.ofNat (v / 4096 % 16 + 224)).toNat = v / 4096 % 16 + 224 :=
      toNat_ofNat (by omega)
    have hb : (UInt8.ofNat (v / 64 % 64 + 128)).toNat = v / 64 % 64 + 128 :=
      toNat_ofNat (by omega)
    have hd : (UInt8.ofNat (v % 64 + 128)).toNat = v % 64 + 128 := toNat_ofNat (by omega)
    generalize UInt8.ofNat (v / 4096 % 16 + 224) = a at ha ⊢
    generalize UInt8.ofNat (v / 64 % 64 + 128) = b at hb ⊢
    generalize UInt8.ofNat (v % 64 + 128) = d at hd ⊢
    have hc : scalar₃ a b d = c := ofNat_eq (by unfold payload; omega)
    have hlead : 224 ≤ a.toNat ∧ a.toNat ≤ 239 := by omega
    rw [← hc]
    exact three hlead (secondOfThree_iff.2 (by omega)) (isTail_iff.2 (by omega))
  · rw [if_neg h₃]
    have ha : (UInt8.ofNat (v / 262144 % 8 + 240)).toNat = v / 262144 % 8 + 240 :=
      toNat_ofNat (by omega)
    have hb : (UInt8.ofNat (v / 4096 % 64 + 128)).toNat = v / 4096 % 64 + 128 :=
      toNat_ofNat (by omega)
    have hd : (UInt8.ofNat (v / 64 % 64 + 128)).toNat = v / 64 % 64 + 128 :=
      toNat_ofNat (by omega)
    have he : (UInt8.ofNat (v % 64 + 128)).toNat = v % 64 + 128 := toNat_ofNat (by omega)
    generalize UInt8.ofNat (v / 262144 % 8 + 240) = a at ha ⊢
    generalize UInt8.ofNat (v / 4096 % 64 + 128) = b at hb ⊢
    generalize UInt8.ofNat (v / 64 % 64 + 128) = d at hd ⊢
    generalize UInt8.ofNat (v % 64 + 128) = e at he ⊢
    have hc : scalar₄ a b d e = c := ofNat_eq (by unfold payload; omega)
    have hlead : 240 ≤ a.toNat ∧ a.toNat ≤ 244 := by omega
    rw [← hc]
    exact four hlead (secondOfFour_iff.2 (by omega)) (isTail_iff.2 (by omega))
      (isTail_iff.2 (by omega))

end Sequence

/-! ## Reading by the leading byte -/

section Leading

variable {a : UInt8} (i : Nat) (rest : List UInt8)

theorem decodeFrom_one (h : a < 0x80) :
    decodeFrom i (a :: rest) = (decodeFrom (i + 1) rest).map (Char.ofNat a.toNat :: ·) := by
  rw [decodeFrom.eq_def]
  exact if_pos h

theorem decodeFrom_two (h : 0xc2 ≤ a ∧ a ≤ 0xdf) :
    decodeFrom i (a :: rest) = match rest with
      | [] => .error ⟨i, none⟩
      | b :: rest =>
        if isTail b then (decodeFrom (i + 2) rest).map (scalar₂ a b :: ·)
        else .error ⟨i, some 1⟩ := by
  have hlead : 194 ≤ a.toNat ∧ a.toNat ≤ 223 := h
  have hone : ¬ a < 0x80 := UInt8.not_lt.2 (show 128 ≤ a.toNat by omega)
  rw [decodeFrom.eq_def]
  exact (if_neg hone).trans (if_pos (by simp [h]))

theorem decodeFrom_three (h : 0xe0 ≤ a ∧ a ≤ 0xef) :
    decodeFrom i (a :: rest) = match rest with
      | [] => .error ⟨i, none⟩
      | b :: rest =>
        if (secondOfThree a).1 ≤ b && b ≤ (secondOfThree a).2 then
          match rest with
          | [] => .error ⟨i, none⟩
          | c :: rest =>
            if isTail c then (decodeFrom (i + 3) rest).map (scalar₃ a b c :: ·)
            else .error ⟨i, some 2⟩
        else .error ⟨i, some 1⟩ := by
  have hlead : 224 ≤ a.toNat ∧ a.toNat ≤ 239 := h
  have hone : ¬ a < 0x80 := UInt8.not_lt.2 (show 128 ≤ a.toNat by omega)
  have htwo : ¬ a ≤ 0xdf := UInt8.not_le.2 (show 223 < a.toNat by omega)
  rw [decodeFrom.eq_def]
  exact (if_neg hone).trans ((if_neg (by simp [htwo])).trans (if_pos (by simp [h])))

theorem decodeFrom_four (h : 0xf0 ≤ a ∧ a ≤ 0xf4) :
    decodeFrom i (a :: rest) = match rest with
      | [] => .error ⟨i, none⟩
      | b :: rest =>
        if (secondOfFour a).1 ≤ b && b ≤ (secondOfFour a).2 then
          match rest with
          | [] => .error ⟨i, none⟩
          | c :: rest =>
            if isTail c then
              match rest with
              | [] => .error ⟨i, none⟩
              | d :: rest =>
                if isTail d then (decodeFrom (i + 4) rest).map (scalar₄ a b c d :: ·)
                else .error ⟨i, some 3⟩
            else .error ⟨i, some 2⟩
        else .error ⟨i, some 1⟩ := by
  have hlead : 240 ≤ a.toNat ∧ a.toNat ≤ 244 := h
  have hone : ¬ a < 0x80 := UInt8.not_lt.2 (show 128 ≤ a.toNat by omega)
  have htwo : ¬ a ≤ 0xdf := UInt8.not_le.2 (show 223 < a.toNat by omega)
  have hthree : ¬ a ≤ 0xef := UInt8.not_le.2 (show 239 < a.toNat by omega)
  rw [decodeFrom.eq_def]
  exact (if_neg hone).trans ((if_neg (by simp [htwo])).trans
    ((if_neg (by simp [hthree])).trans (if_pos (by simp [h]))))

/-- No sequence begins with a continuation byte, with one of the two bytes that could lead only
overlong ones, or with a byte above those that lead to the last code point. -/
theorem decodeFrom_stray (h : 128 ≤ a.toNat ∧ a.toNat ≤ 193 ∨ 245 ≤ a.toNat) :
    decodeFrom i (a :: rest) = .error ⟨i, some 1⟩ := by
  have hone : ¬ a < 0x80 := UInt8.not_lt.2 (show 128 ≤ a.toNat by omega)
  have htwo : ¬ (0xc2 ≤ a ∧ a ≤ 0xdf) := fun hle ↦
    absurd (show 194 ≤ a.toNat ∧ a.toNat ≤ 223 from hle) (by omega)
  have hthree : ¬ (0xe0 ≤ a ∧ a ≤ 0xef) := fun hle ↦
    absurd (show 224 ≤ a.toNat ∧ a.toNat ≤ 239 from hle) (by omega)
  have hfour : ¬ (0xf0 ≤ a ∧ a ≤ 0xf4) := fun hle ↦
    absurd (show 240 ≤ a.toNat ∧ a.toNat ≤ 244 from hle) (by omega)
  rw [decodeFrom.eq_def]
  simp only [hone, htwo, hthree, hfour, ← Bool.decide_and, decide_false, Bool.false_eq_true,
    if_false]

end Leading

/-- One sequence is read after the other. -/
theorem Sequence.decodeFrom_append {c : Char} {s : List UInt8} (h : Sequence c s) (i : Nat)
    (rest : List UInt8) :
    decodeFrom i (s ++ rest) = (decodeFrom (i + s.length) rest).map (c :: ·) := by
  cases h with
  | one ha => exact decodeFrom_one i rest ha
  | two ha hb =>
    rw [List.cons_append, decodeFrom_two i _ ha]
    exact if_pos hb
  | three ha hb hc =>
    rw [List.cons_append, decodeFrom_three i _ ha]
    simp [hb, hc]
  | four ha hb hc hd =>
    rw [List.cons_append, decodeFrom_four i _ ha]
    simp [hb, hc, hd]

/-! ## Ill-formed beginnings -/

/-- How many continuation bytes a leading byte asks for. -/
def owed (a : UInt8) : Nat :=
  if 0xc2 ≤ a && a ≤ 0xdf then 1
  else if 0xe0 ≤ a && a ≤ 0xef then 2
  else if 0xf0 ≤ a && a ≤ 0xf4 then 3
  else 0

/-- What no text can go on with. -/
inductive IllFormed : List UInt8 → Prop
  /-- A continuation byte that nothing leads. -/
  | stray {a : UInt8} (rest : List UInt8) (ha : isTail a = true) : IllFormed (a :: rest)
  /-- A leading byte of two for what one byte encodes. -/
  | overlong₂ {a : UInt8} (rest : List UInt8) (ha : a = 0xc0 ∨ a = 0xc1) : IllFormed (a :: rest)
  /-- Three bytes for what two encode. -/
  | overlong₃ {b : UInt8} (rest : List UInt8) (hb : b < 0xa0) : IllFormed (0xe0 :: b :: rest)
  /-- Four bytes for what three encode. -/
  | overlong₄ {b : UInt8} (rest : List UInt8) (hb : b < 0x90) : IllFormed (0xf0 :: b :: rest)
  /-- A surrogate. -/
  | surrogate {b : UInt8} (rest : List UInt8) (hb : 0xa0 ≤ b) : IllFormed (0xed :: b :: rest)
  /-- A number above the last code point. -/
  | beyond {b : UInt8} (rest : List UInt8) (hb : 0x90 ≤ b) : IllFormed (0xf4 :: b :: rest)
  /-- A leading byte of numbers above the last code point, or of none. -/
  | above {a : UInt8} (rest : List UInt8) (ha : 0xf5 ≤ a) : IllFormed (a :: rest)
  /-- A sequence that breaks off: the next byte continues nothing, or there is none. -/
  | truncated {a : UInt8} (tail rest : List UInt8) (howed : tail.length < owed a)
    (hend : ∀ b ∈ rest.head?, isTail b = false) : IllFormed (a :: (tail ++ rest))

theorem decodeFrom_second_of_three {a b : UInt8} (ha : 0xe0 ≤ a ∧ a ≤ 0xef)
    (hb : ¬ ((secondOfThree a).1 ≤ b ∧ b ≤ (secondOfThree a).2)) (i : Nat) (rest : List UInt8) :
    decodeFrom i (a :: b :: rest) = .error ⟨i, some 1⟩ := by
  rw [decodeFrom_three i _ ha]
  exact if_neg (by rwa [Bool.and_eq_true, decide_eq_true_eq, decide_eq_true_eq])

theorem decodeFrom_second_of_four {a b : UInt8} (ha : 0xf0 ≤ a ∧ a ≤ 0xf4)
    (hb : ¬ ((secondOfFour a).1 ≤ b ∧ b ≤ (secondOfFour a).2)) (i : Nat) (rest : List UInt8) :
    decodeFrom i (a :: b :: rest) = .error ⟨i, some 1⟩ := by
  rw [decodeFrom_four i _ ha]
  exact if_neg (by rwa [Bool.and_eq_true, decide_eq_true_eq, decide_eq_true_eq])

theorem owed_two {a : UInt8} (h : 0xc2 ≤ a ∧ a ≤ 0xdf) : owed a = 1 := by
  simp [owed, h]

theorem owed_three {a : UInt8} (h : 0xe0 ≤ a ∧ a ≤ 0xef) : owed a = 2 := by
  have hlead : 224 ≤ a.toNat ∧ a.toNat ≤ 239 := h
  have htwo : ¬ a ≤ 0xdf := UInt8.not_le.2 (show 223 < a.toNat by omega)
  simp [owed, h, htwo]

theorem owed_four {a : UInt8} (h : 0xf0 ≤ a ∧ a ≤ 0xf4) : owed a = 3 := by
  have hlead : 240 ≤ a.toNat ∧ a.toNat ≤ 244 := h
  have htwo : ¬ a ≤ 0xdf := UInt8.not_le.2 (show 223 < a.toNat by omega)
  have hthree : ¬ a ≤ 0xef := UInt8.not_le.2 (show 239 < a.toNat by omega)
  simp [owed, h, htwo, hthree]

theorem owed_one {a : UInt8} (h : a < 0x80) : owed a = 0 := by
  have hlead : a.toNat < 128 := h
  have htwo : ¬ 0xc2 ≤ a := UInt8.not_le.2 (show a.toNat < 194 by omega)
  have hthree : ¬ 0xe0 ≤ a := UInt8.not_le.2 (show a.toNat < 224 by omega)
  have hfour : ¬ 0xf0 ≤ a := UInt8.not_le.2 (show a.toNat < 240 by omega)
  simp [owed, htwo, hthree, hfour]

/-- A sequence has all the continuation bytes that its leading byte asks for. -/
theorem Sequence.eq_cons {c : Char} {s : List UInt8} (h : Sequence c s) :
    ∃ a tails, s = a :: tails ∧ tails.length = owed a ∧ ∀ b ∈ tails, isTail b = true := by
  cases h with
  | one ha => exact ⟨_, [], rfl, (owed_one ha).symm, by simp⟩
  | two ha hb => exact ⟨_, _, rfl, (owed_two ha).symm, by simpa using hb⟩
  | three ha hb hc =>
    exact ⟨_, _, rfl, (owed_three ha).symm, by
      simpa using ⟨isTail_iff.2 (secondOfThree_iff.1 hb).1, hc⟩⟩
  | four ha hb hc hd =>
    exact ⟨_, _, rfl, (owed_four ha).symm, by
      simpa using ⟨isTail_iff.2 (secondOfFour_iff.1 hb).1, hc, hd⟩⟩

theorem IllFormed.of_leading {a : UInt8} (h : owed a ≠ 0) : IllFormed [a] :=
  .truncated [] [] (Nat.pos_of_ne_zero h) (by simp)

theorem IllFormed.of_second {a b : UInt8} (rest : List UInt8) (h : owed a ≠ 0)
    (hb : isTail b = false) : IllFormed (a :: b :: rest) :=
  .truncated [] (b :: rest) (Nat.pos_of_ne_zero h) (by simpa using hb)

/-- A second byte that a leading byte of three refuses. -/
theorem IllFormed.of_second_of_three {a b : UInt8} (rest : List UInt8) (ha : 0xe0 ≤ a ∧ a ≤ 0xef)
    (hb : ¬ ((secondOfThree a).1 ≤ b ∧ b ≤ (secondOfThree a).2)) :
    IllFormed (a :: b :: rest) := by
  cases htail : isTail b with
  | false => exact .of_second rest (by rw [owed_three ha]; decide) htail
  | true =>
    rw [secondOfThree_iff] at hb
    rw [isTail_iff] at htail
    by_cases hfirst : a.toNat = 224
    · obtain rfl : a = 0xe0 := UInt8.toNat_inj.1 hfirst
      exact .overlong₃ rest (show b.toNat < 160 by omega)
    · have hsurrogate : a.toNat = 237 := by omega
      obtain rfl : a = 0xed := UInt8.toNat_inj.1 hsurrogate
      exact .surrogate rest (show 160 ≤ b.toNat by omega)

/-- A second byte that a leading byte of four refuses. -/
theorem IllFormed.of_second_of_four {a b : UInt8} (rest : List UInt8) (ha : 0xf0 ≤ a ∧ a ≤ 0xf4)
    (hb : ¬ ((secondOfFour a).1 ≤ b ∧ b ≤ (secondOfFour a).2)) :
    IllFormed (a :: b :: rest) := by
  cases htail : isTail b with
  | false => exact .of_second rest (by rw [owed_four ha]; decide) htail
  | true =>
    rw [secondOfFour_iff] at hb
    rw [isTail_iff] at htail
    by_cases hfirst : a.toNat = 240
    · obtain rfl : a = 0xf0 := UInt8.toNat_inj.1 hfirst
      exact .overlong₄ rest (show b.toNat < 144 by omega)
    · have hlast : a.toNat = 244 := by omega
      obtain rfl : a = 0xf4 := UInt8.toNat_inj.1 hlast
      exact .beyond rest (show 144 ≤ b.toNat by omega)

/-- Bytes begin with a sequence, or they are ill-formed and are refused where they begin. -/
inductive Beginning (i : Nat) : List UInt8 → Prop
  | sequence {c : Char} {s : List UInt8} (h : Sequence c s) (rest : List UInt8) :
    Beginning i (s ++ rest)
  | illFormed {bytes : List UInt8} (length : Option Nat) (h : IllFormed bytes)
    (hrefused : decodeFrom i bytes = .error ⟨i, length⟩) : Beginning i bytes

namespace Beginning

variable {a : UInt8} (i : Nat) (rest : List UInt8)

theorem of_two (ha : 0xc2 ≤ a ∧ a ≤ 0xdf) : Beginning i (a :: rest) := by
  have howed : owed a ≠ 0 := by rw [owed_two ha]; decide
  cases rest with
  | nil => exact .illFormed _ (.of_leading howed) (decodeFrom_two i [] ha)
  | cons b rest =>
    have hrun := decodeFrom_two i (b :: rest) ha
    cases hb : isTail b with
    | true => exact .sequence (.two ha hb) rest
    | false =>
      refine .illFormed (some 1) (.of_second rest howed hb) ?_
      simpa [hb] using hrun

theorem of_three (ha : 0xe0 ≤ a ∧ a ≤ 0xef) : Beginning i (a :: rest) := by
  have howed : owed a = 2 := owed_three ha
  cases rest with
  | nil => exact .illFormed _ (.of_leading (by omega)) (decodeFrom_three i [] ha)
  | cons b rest =>
    by_cases hb : (secondOfThree a).1 ≤ b ∧ b ≤ (secondOfThree a).2
    · have hrun := decodeFrom_three i (b :: rest) ha
      cases rest with
      | nil =>
        refine .illFormed none
          (.truncated [b] [] (by simp [howed]) (by simp)) ?_
        simpa [hb] using hrun
      | cons c rest =>
        cases hc : isTail c with
        | true => exact .sequence (.three ha hb hc) rest
        | false =>
          refine .illFormed (some 2) (.truncated [b] (c :: rest)
            (by simp [howed]) (by simpa using hc)) ?_
          simpa [hb, hc] using hrun
    · exact .illFormed _ (.of_second_of_three rest ha hb) (decodeFrom_second_of_three ha hb i rest)

theorem of_four (ha : 0xf0 ≤ a ∧ a ≤ 0xf4) : Beginning i (a :: rest) := by
  have howed : owed a = 3 := owed_four ha
  cases rest with
  | nil => exact .illFormed _ (.of_leading (by omega)) (decodeFrom_four i [] ha)
  | cons b rest =>
    by_cases hb : (secondOfFour a).1 ≤ b ∧ b ≤ (secondOfFour a).2
    · have hrun := decodeFrom_four i (b :: rest) ha
      cases rest with
      | nil =>
        refine .illFormed none
          (.truncated [b] [] (by simp [howed]) (by simp)) ?_
        simpa [hb] using hrun
      | cons c rest =>
        cases hc : isTail c with
        | false =>
          refine .illFormed (some 2) (.truncated [b] (c :: rest)
            (by simp [howed]) (by simpa using hc)) ?_
          simpa [hb, hc] using hrun
        | true =>
          cases rest with
          | nil =>
            refine .illFormed none (.truncated [b, c] []
              (by simp [howed]) (by simp)) ?_
            simpa [hb, hc] using hrun
          | cons d rest =>
            cases hd : isTail d with
            | true => exact .sequence (.four ha hb hc hd) rest
            | false =>
              refine .illFormed (some 3) (.truncated [b, c] (d :: rest)
                (by simp [howed]) (by simpa using hd)) ?_
              simpa [hb, hc, hd] using hrun
    · exact .illFormed _ (.of_second_of_four rest ha hb) (decodeFrom_second_of_four ha hb i rest)

theorem of_stray (ha : 128 ≤ a.toNat ∧ a.toNat ≤ 193 ∨ 245 ≤ a.toNat) :
    Beginning i (a :: rest) := by
  refine .illFormed _ ?_ (decodeFrom_stray i rest ha)
  obtain ⟨hlow, hhigh⟩ | habove := ha
  · by_cases htail : a.toNat ≤ 191
    · exact .stray rest (isTail_iff.2 ⟨hlow, htail⟩)
    · have hlead : a.toNat = 192 ∨ a.toNat = 193 := by omega
      exact .overlong₂ rest (hlead.imp UInt8.toNat_inj.1 UInt8.toNat_inj.1)
  · exact .above rest habove

theorem of_cons (a : UInt8) : Beginning i (a :: rest) := by
  by_cases hone : a.toNat < 128
  · exact .sequence (.one hone) rest
  by_cases htwo : 194 ≤ a.toNat ∧ a.toNat ≤ 223
  · exact of_two i rest htwo
  by_cases hthree : 224 ≤ a.toNat ∧ a.toNat ≤ 239
  · exact of_three i rest hthree
  by_cases hfour : 240 ≤ a.toNat ∧ a.toNat ≤ 244
  · exact of_four i rest hfour
  · exact of_stray i rest (by omega)

end Beginning

/-! ## The bytes that are read -/

/-- What the characters of a text encode to. -/
def encode (text : List Char) : List UInt8 := text.flatMap String.utf8EncodeChar

theorem encode_cons (c : Char) (text : List Char) :
    encode (c :: text) = String.utf8EncodeChar c ++ encode text :=
  List.flatMap_cons

theorem decodeFrom_encode_append (text : List Char) (i : Nat) (rest : List UInt8) :
    decodeFrom i (encode text ++ rest) =
      (decodeFrom (i + (encode text).length) rest).map (text ++ ·) := by
  induction text generalizing i with
  | nil =>
    rw [show encode [] = [] from rfl, List.nil_append, List.length_nil, Nat.add_zero]
    cases decodeFrom i rest <;> rfl
  | cons c text ih =>
    rw [encode_cons, List.append_assoc, (Sequence.encode c).decodeFrom_append, ih,
      List.length_append, Nat.add_assoc]
    cases decodeFrom (i + ((String.utf8EncodeChar c).length + (encode text).length)) rest <;> rfl

/-- Bytes encode a text, perhaps with something ill-formed after it. -/
theorem exists_encode (bytes : List UInt8) :
    ∃ text rest, bytes = encode text ++ rest ∧ (rest = [] ∨ IllFormed rest) := by
  induction hlength : bytes.length using Nat.strongRecOn generalizing bytes with
  | ind n ih =>
    cases bytes with
    | nil => exact ⟨[], [], rfl, .inl rfl⟩
    | cons a bytes =>
      generalize hwhole : a :: bytes = whole at hlength
      cases hwhole ▸ Beginning.of_cons 0 bytes a with
      | illFormed _ h => exact ⟨[], whole, rfl, .inr h⟩
      | @sequence c s h remaining =>
        have hshorter : remaining.length < n := by
          obtain ⟨a, tails, rfl, -⟩ := h.eq_cons
          rw [← hlength, List.length_append, List.length_cons]
          omega
        obtain ⟨text, rest, rfl, hrest⟩ := ih _ hshorter remaining rfl
        refine ⟨c :: text, rest, ?_, hrest⟩
        rw [encode_cons, ← h.eq_encode, List.append_assoc]

/-- The byte after the shorter of two beginnings is in the longer one. -/
theorem head_mem_of_append_eq {tail tails rest rest' : List UInt8}
    (h : tail ++ rest = tails ++ rest') (hshorter : tail.length < tails.length) :
    ∃ b ∈ tails, rest.head? = some b := by
  obtain ⟨more, rfl, rfl⟩ | ⟨more, rfl, -⟩ := List.append_eq_append_iff.1 h
  · cases more with
    | nil => simp at hshorter
    | cons b more => exact ⟨b, by simp, rfl⟩
  · rw [List.length_append] at hshorter
    omega

/-- What is ill-formed is refused where it begins. -/
theorem IllFormed.decodeFrom_eq {bytes : List UInt8} (h : IllFormed bytes) (i : Nat) :
    ∃ length, decodeFrom i bytes = .error ⟨i, length⟩ := by
  cases h with
  | stray rest ha =>
    rw [isTail_iff] at ha
    exact ⟨_, decodeFrom_stray i _ (.inl (by omega))⟩
  | overlong₂ rest ha =>
    obtain rfl | rfl := ha
    · exact ⟨_, decodeFrom_stray i _ (.inl (by decide))⟩
    · exact ⟨_, decodeFrom_stray i _ (.inl (by decide))⟩
  | overlong₃ rest hb =>
    exact ⟨_, decodeFrom_second_of_three (by decide) (fun h ↦ UInt8.not_le.2 hb h.1) i rest⟩
  | overlong₄ rest hb =>
    exact ⟨_, decodeFrom_second_of_four (by decide) (fun h ↦ UInt8.not_le.2 hb h.1) i rest⟩
  | surrogate rest hb =>
    exact ⟨_, decodeFrom_second_of_three (by decide)
      (fun h ↦ absurd (UInt8.le_trans hb h.2) (by decide)) i rest⟩
  | beyond rest hb =>
    exact ⟨_, decodeFrom_second_of_four (by decide)
      (fun h ↦ absurd (UInt8.le_trans hb h.2) (by decide)) i rest⟩
  | above rest ha => exact ⟨_, decodeFrom_stray i _ (.inr ha)⟩
  | @truncated a tail rest howed hend =>
    generalize hwhole : a :: (tail ++ rest) = whole
    cases hwhole ▸ Beginning.of_cons i (tail ++ rest) a with
    | illFormed length _ hrefused => exact ⟨length, hrefused⟩
    | @sequence c s h remaining =>
      -- A sequence would have a continuation byte where this one breaks off.
      obtain ⟨a', tails, rfl, hlength, htails⟩ := h.eq_cons
      rw [List.cons_append, List.cons.injEq] at hwhole
      obtain ⟨rfl, hwhole⟩ := hwhole
      obtain ⟨b, hb, hhead⟩ := head_mem_of_append_eq hwhole (by omega)
      exact absurd (htails b hb) (by rw [hend b hhead]; decide)

theorem decode_encode (text : List Char) : decode (encode text) = .ok text := by
  have h := decodeFrom_encode_append text 0 []
  rw [List.append_nil] at h
  rw [decode, h]
  exact congrArg Except.ok (List.append_nil text)

/-- After a text something ill-formed is refused, and the index tells where it begins. -/
theorem decode_illFormed (text : List Char) {rest : List UInt8} (h : IllFormed rest) :
    ∃ length, decode (encode text ++ rest) = .error ⟨(encode text).length, length⟩ := by
  obtain ⟨length, hrefused⟩ := h.decodeFrom_eq (0 + (encode text).length)
  refine ⟨length, ?_⟩
  rw [decode, decodeFrom_encode_append, hrefused, Nat.zero_add]
  rfl

/-- The reader accepts the encodings of texts, and nothing else. -/
theorem decode_eq_ok_iff {bytes : List UInt8} {text : List Char} :
    decode bytes = .ok text ↔ bytes = encode text := by
  constructor
  · intro h
    obtain ⟨text', rest, rfl, rfl | hrest⟩ := exists_encode bytes
    · rw [List.append_nil, decode_encode] at h
      cases h
      exact List.append_nil _
    · obtain ⟨length, hrefused⟩ := decode_illFormed text' hrest
      cases hrefused.symm.trans h
  · rintro rfl
    exact decode_encode text

/-! ## The bytes of a string -/

theorem toList_loop (bytes : ByteArray) (i : Nat) (before : List UInt8) :
    ByteArray.toList.loop bytes i before = before.reverse ++ bytes.data.toList.drop i := by
  fun_induction ByteArray.toList.loop bytes i before with
  | case1 i before h ih =>
    have hi : i < bytes.data.toList.length := h
    rw [ih, List.drop_eq_getElem_cons hi, List.reverse_cons, List.append_assoc]
    simp [ByteArray.get!, h]
  | case2 i before h =>
    have hi : bytes.data.toList.length ≤ i := Nat.le_of_not_lt h
    rw [List.drop_eq_nil_of_le hi, List.append_nil]

/-- The bytes of a string encode its characters. -/
theorem toUTF8_toList (s : String) : s.toUTF8.toList = encode s.toList := by
  have hbytes : s.toUTF8 = (encode s.toList).toByteArray :=
    (congrArg String.toUTF8 String.ofList_toList).symm.trans String.toByteArray_ofList
  calc
    s.toUTF8.toList = s.toUTF8.data.toList := toList_loop s.toUTF8 0 []
    _ = encode s.toList := by rw [hbytes, List.toList_data_toByteArray]

/-- The bytes of a string are read as its characters, and of no other string. -/
theorem decode_eq_ok_iff_toUTF8 {bytes : List UInt8} {s : String} :
    decode bytes = .ok s.toList ↔ s.toUTF8.toList = bytes := by
  rw [decode_eq_ok_iff, toUTF8_toList, eq_comm]

end ScriptBridge.Text.Utf8
