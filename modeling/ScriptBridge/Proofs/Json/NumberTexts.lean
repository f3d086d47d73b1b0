import Mathlib.Algebra.Group.Nat.Defs
import Mathlib.Data.List.Induction
import ScriptBridge.Decimal.Style
import ScriptBridge.Proofs.Json.Scalars

/-!
# Written numbers are numbers

In every style the text of a double is a number of a JSON text: its whole part has no superfluous
zeros, and the point and the exponent stand between digits. All of that rests on the coefficient of
the decimal not being zero, which is so because zero rounds to no other double.
-/

namespace ScriptBridge.Json

open Decimal Shortest

variable {text : List Char}

/-! ## Decimal digits -/

theorem isDigits_toDigits (n : Nat) : IsDigits (Nat.toDigits 10 n) := by
  obtain ⟨d, s, hdigits, -⟩ := exists_toDigits n
  refine ⟨by simp [hdigits], fun c hc ↦ ?_⟩
  exact Nat.isDigit_of_mem_toDigits (by decide) (by decide) hc

/-- A positive number is multiplied by ten by a zero behind it. -/
theorem toDigits_append_replicate {n : Nat} (hn : n ≠ 0) (k : Nat) :
    Nat.toDigits 10 n ++ List.replicate k '0' = Nat.toDigits 10 (n * 10 ^ k) := by
  induction k with
  | zero => simp
  | succ k ih =>
    have hpos : 0 < n * 10 ^ k := Nat.mul_pos (Nat.pos_of_ne_zero hn) (Nat.pow_pos (by decide))
    rw [List.replicate_succ', ← List.append_assoc, ih, Nat.pow_succ, ← Nat.mul_assoc,
      Nat.toDigits_of_base_le (by decide) (by omega : 10 ≤ n * 10 ^ k * 10)]
    simp

/-- The first digits of a number are those of another one. -/
theorem exists_toDigits_of_append {n : Nat} {s t : List Char} (hs : s ≠ [])
    (h : Nat.toDigits 10 n = s ++ t) : ∃ m, s = Nat.toDigits 10 m := by
  induction t using List.reverseRecOn generalizing n with
  | nil => exact ⟨n, by simpa using h.symm⟩
  | append_singleton t c ih =>
    by_cases hsmall : n < 10
    · rw [Nat.toDigits_of_lt_base hsmall] at h
      have hlength := congrArg List.length h
      have hne := List.length_pos_iff.2 hs
      simp only [List.length_cons, List.length_nil, List.length_append] at hlength
      omega
    · rw [Nat.toDigits_of_base_le (by decide) (by omega), ← List.append_assoc] at h
      exact ih (List.append_inj' h rfl).1

/-! ## Layouts -/

variable {d : Shortest.Numeral}

theorem isUnsigned_toDigits (n : Nat) : IsUnsigned (Nat.toDigits 10 n) n [] := by
  simpa using IsUnsigned.mk (n := n) .absent .absent

theorem isUnsigned_fraction (n : Nat) {digits : List Char} (h : IsDigits digits) :
    IsUnsigned (Nat.toDigits 10 n ++ '.' :: digits) n ('.' :: digits) := by
  simpa using IsUnsigned.mk (n := n) (.present h) .absent

theorem isUnsigned_positional (keepsPoint : Bool) (hd : d.coefficient ≠ 0) :
    ∃ n tail, IsUnsigned (positional keepsPoint d) n tail := by
  obtain ⟨hne, hdigits⟩ : IsDigits d.digits := isDigits_toDigits d.coefficient
  simp only [positional]
  by_cases hwhole : d.leading + 1 ≤ 0
  · rw [if_pos hwhole]
    refine ⟨0, _, isUnsigned_fraction 0 ⟨by simp [hne], fun c hc ↦ ?_⟩⟩
    obtain hc | hc := List.mem_append.1 hc
    · rw [List.eq_of_mem_replicate hc]
      rfl
    · exact hdigits c hc
  rw [if_neg hwhole]
  obtain ⟨k, hk⟩ : ∃ k, (d.leading + 1).toNat = k + 1 := ⟨d.leading.toNat, by omega⟩
  rw [hk]
  by_cases hlength : k + 1 < d.digits.length
  · rw [if_pos hlength]
    obtain ⟨n, hn⟩ : ∃ n, d.digits.take (k + 1) = Nat.toDigits 10 n := by
      refine exists_toDigits_of_append ?_ (List.take_append_drop (k + 1) _).symm
      rw [← List.length_pos_iff, List.length_take]
      omega
    rw [hn]
    refine ⟨n, _, isUnsigned_fraction n ⟨?_, fun c hc ↦ hdigits c (List.mem_of_mem_drop hc)⟩⟩
    rw [← List.length_pos_iff, List.length_drop]
    omega
  · rw [if_neg hlength, Shortest.Numeral.digits, toDigits_append_replicate hd]
    split
    · exact ⟨_, _, isUnsigned_fraction _ ⟨by simp, List.forall_mem_singleton.2 rfl⟩⟩
    · rw [List.append_nil]
      exact ⟨_, _, isUnsigned_toDigits _⟩

theorem isUnsigned_scientific (d : Shortest.Numeral) :
    ∃ n tail, IsUnsigned (scientific d) n tail := by
  have hexponent : IsExponent ('e' :: (if d.leading < 0 then '-' else '+') ::
      Nat.toDigits 10 d.leading.natAbs) := by
    split
    · exact .present (.inl rfl) (.inr (.inr rfl)) (isDigits_toDigits d.leading.natAbs)
    · exact .present (.inl rfl) (.inr (.inl rfl)) (isDigits_toDigits d.leading.natAbs)
  obtain ⟨c, s, hdigits, -⟩ := exists_toDigits d.coefficient
  have hall := (isDigits_toDigits d.coefficient).2
  rw [hdigits] at hall
  obtain ⟨n, hn⟩ := exists_toDigits_of_append (List.cons_ne_nil c []) hdigits
  simp only [scientific, Shortest.Numeral.digits, hdigits]
  cases s with
  | nil =>
    have htext := IsUnsigned.mk (n := n) .absent hexponent
    rw [← hn] at htext
    exact ⟨n, _, htext⟩
  | cons c' s =>
    have hfraction : IsFraction ('.' :: c' :: s) :=
      .present ⟨List.cons_ne_nil _ _, (List.forall_mem_cons.1 hall).2⟩
    have htext := IsUnsigned.mk (n := n) hfraction hexponent
    rw [← hn] at htext
    exact ⟨n, _, htext⟩

theorem isUnsigned_writeDecimal (style : Style) (hd : d.coefficient ≠ 0) :
    ∃ n tail, IsUnsigned (style.writeDecimal d) n tail := by
  simp only [Style.writeDecimal]
  generalize (_ || _ : Bool) = usesExponent
  cases usesExponent
  · exact isUnsigned_positional _ hd
  · exact isUnsigned_scientific d

/-! ## The shortest decimal is not zero -/

/-- Zero does not round to a number above it. -/
theorem contains_zero {b : Binary} (hb : b.significand ≠ 0) (k : Int) :
    b.contains k 0 = false := by
  have hscale : (scale (b.exponent - 2) k).1 ≠ 0 :=
    Nat.mul_ne_zero (Nat.pow_pos (by decide)).ne' (Nat.pow_pos (by decide)).ne'
  have hlow : 0 < b.quarters.1 * (scale (b.exponent - 2) k).1 := by
    refine Nat.mul_pos ?_ (Nat.pos_of_ne_zero hscale)
    simp only [Binary.quarters]
    split <;> omega
  simp only [Binary.contains, Nat.zero_mul]
  split <;> simp [hlow.ne']

theorem onGrid?_coefficient_ne_zero {b : Binary} (hb : b.significand ≠ 0) {search : Search}
    {tie : Tie} {k : Int} (h : b.onGrid? search tie k = some d) : d.coefficient ≠ 0 := by
  have hcontains : ∀ c, b.contains k c = true → c ≠ 0 := by
    rintro c hc rfl
    rw [contains_zero hb] at hc
    cases hc
  simp only [Binary.onGrid?] at h
  split at h
  · next hc =>
    cases h
    exact hcontains _ hc
  · split at h
    · next hc =>
      cases h
      exact hcontains _ (Bool.and_eq_true_iff.1 hc).2
    · cases h

theorem trim_coefficient_ne_zero (hd : d.coefficient ≠ 0) (fuel : Nat) :
    (d.trim fuel).coefficient ≠ 0 := by
  induction fuel generalizing d with
  | zero => exact hd
  | succ fuel ih =>
    rw [Shortest.Numeral.trim]
    split
    · exact ih (by simp only; omega)
    · exact hd

theorem shortest_coefficient_ne_zero {b : Binary} (hb : b.significand ≠ 0) (search : Search)
    (tie : Tie) : (b.shortest search tie).coefficient ≠ 0 := by
  refine trim_coefficient_ne_zero ?_ 18
  cases hgrid : List.findSome? _ _ with
  | none => exact hb
  | some d =>
    obtain ⟨k, -, hk⟩ := List.exists_of_findSome?_eq_some hgrid
    exact onGrid?_coefficient_ne_zero hb hk

/-- A mask of ones keeps the last binary digits. -/
theorem toNat_and_ones (b : UInt64) {m : UInt64} (n : Nat) (hm : m.toNat = 2 ^ n - 1) :
    (b &&& m).toNat = b.toNat % 2 ^ n := by
  rw [UInt64.toNat_and, hm, Nat.and_two_pow_sub_one_eq_mod]

/-- A double that is not zero has a significand. -/
theorem significand_ne_zero {x : Float} (h : isZero x = false) :
    (Binary.ofBits (x.toBits &&& 0x7fffffffffffffff)).significand ≠ 0 := by
  have hbits : x.toBits.toNat % 2 ^ 63 ≠ 0 := by
    intro hzero
    rw [isZero, beq_eq_false_iff_ne, ne_eq, ← UInt64.toNat_inj, UInt64.toNat_shiftLeft,
      Nat.shiftLeft_eq] at h
    change ¬ x.toBits.toNat * 2 % 2 ^ 64 = 0 at h
    omega
  generalize hmagnitude : x.toBits &&& 0x7fffffffffffffff = magnitude
  have hnat := toNat_and_ones x.toBits (m := 0x7fffffffffffffff) 63 rfl
  have hfraction := toNat_and_ones magnitude (m := 0xfffffffffffff) 52 rfl
  have hbiased := toNat_and_ones (magnitude >>> 52) (m := 0x7ff) 11 rfl
  rw [hmagnitude] at hnat
  rw [UInt64.toNat_shiftRight, Nat.shiftRight_eq_div_pow] at hbiased
  change _ = magnitude.toNat / 2 ^ 52 % 2 ^ 11 at hbiased
  simp only [Binary.ofBits]
  split
  · next hzero =>
    rw [hbiased] at hzero
    simp only [hfraction]
    omega
  · simp

/-- In every style the text of a double is a value. -/
theorem isValue_styleWrite (style : Style) (x : Float) : IsValue (style.write x).toList := by
  have hmagnitude : ∃ n tail, IsUnsigned (if isZero x then
      if style.keepsPoint then ['0', '.', '0'] else ['0'] else style.writeMagnitude x) n tail := by
    split
    · split
      · exact ⟨0, _, isUnsigned_fraction 0 ⟨by simp, List.forall_mem_singleton.2 rfl⟩⟩
      · exact ⟨0, _, isUnsigned_toDigits 0⟩
    · next hzero =>
      exact isUnsigned_writeDecimal style
        (shortest_coefficient_ne_zero (significand_ne_zero (by simpa using hzero)) _ _)
  obtain ⟨n, tail, h⟩ := hmagnitude
  rw [Style.write, String.toList_ofList]
  split
  · exact .negated h
  · exact .unsigned h

end ScriptBridge.Json
