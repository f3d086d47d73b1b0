import Mathlib.Data.List.TakeWhile
import ScriptBridge.Text.Blank
import ScriptBridge.Text.Natural

/-!
# Numerals, and the blanks around a text

Reading a number gives up at the first digit with which it would reach the limit. Since further
digits never make a number smaller, what is read is exactly the numerals of the numbers below the
limit, however many zeros they begin with. Trimming takes off what is blank at the ends of a text,
and stops at the first characters that are not.
-/

namespace ScriptBridge.Text

/-! ## Numerals -/

/-- The text is a numeral of the number: one ASCII digit or more, possibly after one plus sign. -/
inductive Denotes : List Char → Nat → Prop
  | unsigned {digits : List Char} (hne : digits ≠ []) (h : ∀ c ∈ digits, c.isDigit = true) :
    Denotes digits (Nat.ofDigitChars 10 digits 0)
  | signed {digits : List Char} (hne : digits ≠ []) (h : ∀ c ∈ digits, c.isDigit = true) :
    Denotes ('+' :: digits) (Nat.ofDigitChars 10 digits 0)

theorem denotes_toDigits (n : Nat) : Denotes (Nat.toDigits 10 n) n := by
  have h : Denotes (Nat.toDigits 10 n) (Nat.ofDigitChars 10 (Nat.toDigits 10 n) 0) :=
    .unsigned Nat.toDigits_ne_nil fun c ↦ Nat.isDigit_of_mem_toDigits (by decide) (by decide)
  rwa [Nat.ofDigitChars_ten_toDigits] at h

theorem asciiDigit?_eq_some_iff {c : Char} {d : Nat} :
    asciiDigit? c = some d ↔ c.isDigit = true ∧ c.toNat - '0'.toNat = d := by
  have hdigit : c.isDigit = true ↔ '0' ≤ c ∧ c ≤ '9' := by
    simp [Char.isDigit, Char.le_def]
  rw [asciiDigit?, hdigit]
  split <;> simp [*]

theorem le_ofDigitChars (s : List Char) (value : Nat) : value ≤ Nat.ofDigitChars 10 s value := by
  rw [Nat.ofDigitChars_eq_ofDigitChars_zero]
  exact Nat.le_add_right_of_le (Nat.le_mul_of_pos_left value (Nat.pow_pos (by decide)))

/-- Giving up as soon as the limit is reached misses no number below it. -/
theorem digitsBelow?_eq_some_iff {limit value n : Nat} (hvalue : value < limit) (s : List Char) :
    digitsBelow? limit value s = some n ↔
      (∀ c ∈ s, c.isDigit = true) ∧ Nat.ofDigitChars 10 s value = n ∧ n < limit := by
  induction s generalizing value with
  | nil =>
    simp only [digitsBelow?, Option.some.injEq, Nat.ofDigitChars_nil, List.not_mem_nil]
    exact ⟨fun h ↦ ⟨nofun, h, h ▸ hvalue⟩, fun h ↦ h.2.1⟩
  | cons c s ih =>
    have hle := le_ofDigitChars s (10 * value + (c.toNat - '0'.toNat))
    simp only [digitsBelow?, Option.bind_eq_bind, Option.bind_eq_some_iff,
      asciiDigit?_eq_some_iff, Nat.ofDigitChars_cons, List.forall_mem_cons]
    constructor
    · rintro ⟨d, ⟨hc, rfl⟩, h⟩
      split at h
      · next hlt =>
        rw [ih hlt, Nat.mul_comm] at h
        exact ⟨⟨hc, h.1⟩, h.2⟩
      · cases h
    · rintro ⟨⟨hc, hs⟩, hn, hlimit⟩
      refine ⟨_, ⟨hc, rfl⟩, ?_⟩
      rw [if_pos (by omega), ih (by omega), Nat.mul_comm]
      exact ⟨hs, hn, hlimit⟩

/-- A text is read as a number exactly if it is a numeral of the number and that is below the
limit. -/
theorem naturalBelow?_eq_some_iff {limit n : Nat} (hlimit : 0 < limit) {s : List Char} :
    naturalBelow? limit s = some n ↔ Denotes s n ∧ n < limit := by
  unfold naturalBelow?
  split
  · simp only [reduceCtorEq, false_iff, not_and]
    rintro ⟨hne, -⟩
    exact absurd rfl hne
  · simp only [reduceCtorEq, false_iff, not_and]
    rintro (⟨-, h⟩ | ⟨hne, -⟩)
    · cases h '+' List.mem_cons_self
    · exact absurd rfl hne
  · next digits hne =>
    rw [digitsBelow?_eq_some_iff hlimit]
    constructor
    · rintro ⟨h, rfl, hn⟩
      exact ⟨.signed hne h, hn⟩
    · rintro ⟨⟨-, h⟩ | ⟨-, h⟩, hn⟩
      · cases h '+' List.mem_cons_self
      · exact ⟨h, rfl, hn⟩
  · next hne _ hsign =>
    rw [digitsBelow?_eq_some_iff hlimit]
    constructor
    · rintro ⟨h, rfl, hn⟩
      exact ⟨.unsigned hne h, hn⟩
    · rintro ⟨⟨-, h⟩ | ⟨-, -⟩, hn⟩
      · exact ⟨h, rfl, hn⟩
      · exact absurd rfl (hsign _)

/-- A number is read back from its numeral. -/
theorem naturalBelow?_toDigits {n limit : Nat} (h : n < limit) :
    naturalBelow? limit (Nat.toDigits 10 n) = some n :=
  (naturalBelow?_eq_some_iff (Nat.zero_lt_of_lt h)).2 ⟨denotes_toDigits n, h⟩

theorem getLast?_toDigits (n : Nat) : ∃ c, (Nat.toDigits 10 n).getLast? = some c ∧ c.isDigit := by
  obtain ⟨c, hc⟩ := Option.isSome_iff_exists.1
    (List.getLast?_isSome.2 (Nat.toDigits_ne_nil (n := n) (b := 10)))
  exact ⟨c, hc, Nat.isDigit_of_mem_toDigits (by decide) (by decide) (List.mem_of_getLast? hc)⟩

theorem not_mem_toDigits {c : Char} (h : c.isDigit = false) (n : Nat) :
    c ∉ Nat.toDigits 10 n := by
  intro hmem
  have hdigit : c.isDigit = true := Nat.isDigit_of_mem_toDigits (by decide) (by decide) hmem
  rw [h] at hdigit
  cases hdigit

theorem isBlank_of_isDigit {c : Char} (h : c.isDigit = true) : isBlank c = false := by
  have hbounds : 48 ≤ c.toNat ∧ c.toNat ≤ 57 := by
    simpa [Char.isDigit, UInt32.le_iff_toNat_le] using h
  simp only [isBlank, Bool.or_eq_false_iff, Bool.and_eq_false_iff, decide_eq_false_iff_not,
    beq_eq_false_iff_ne]
  omega

/-- A numeral has no blank in it. -/
theorem Denotes.isBlank_of_mem {s : List Char} {n : Nat} (h : Denotes s n) :
    ∀ c ∈ s, isBlank c = false := by
  intro c hc
  cases h with
  | unsigned _ h => exact isBlank_of_isDigit (h c hc)
  | signed _ h =>
    obtain rfl | hc := List.mem_cons.1 hc
    · rfl
    · exact isBlank_of_isDigit (h c hc)

/-! ## Blanks -/

/-- The text is this core with blanks around it. -/
def Padded (blank : Char → Bool) (core s : List Char) : Prop :=
  ∃ front back, (∀ c ∈ front, blank c = true) ∧ (∀ c ∈ back, blank c = true) ∧
    s = front ++ (core ++ back)

theorem trimEnd_append {s blanks : List Char} (hblank : ∀ c ∈ blanks, isBlank c = true)
    (hlast : ∀ c ∈ s.getLast?, isBlank c = false) : trimEnd (s ++ blanks) = s := by
  rw [trimEnd, List.reverse_append, List.dropWhile_append_of_pos (by simpa using hblank)]
  cases hs : s.reverse with
  | nil => simpa using hs.symm
  | cons c front =>
    have hc : isBlank c = false := hlast c (by rw [← List.head?_reverse, hs]; rfl)
    rw [List.dropWhile_cons_of_neg (by simp [hc]), ← hs, List.reverse_reverse]

/-- The blanks around a core go, and nothing of the core if it is not blank at its ends. -/
theorem Padded.trim_eq {core s : List Char} (h : Padded isBlank core s)
    (hfirst : ∀ c ∈ core.head?, isBlank c = false)
    (hlast : ∀ c ∈ core.getLast?, isBlank c = false) : trim s = core := by
  obtain ⟨front, back, hfront, hback, rfl⟩ := h
  rw [trim, List.dropWhile_append_of_pos hfront]
  cases core with
  | nil =>
    rw [List.nil_append, List.dropWhile_eq_nil_iff.2 (by simpa using hback)]
    rfl
  | cons c core =>
    rw [List.cons_append, List.dropWhile_cons_of_neg (by simp [hfirst c rfl]),
      ← List.cons_append, trimEnd_append hback hlast]

/-- A text is what trimming leaves of it, with blanks around. -/
theorem padded_trim (s : List Char) : Padded isBlank (trim s) s := by
  have hsplit : ∀ t : List Char,
      ∃ back, (∀ c ∈ back, isBlank c = true) ∧ t = trimEnd t ++ back := by
    intro t
    refine ⟨(t.reverse.takeWhile isBlank).reverse, fun c hc ↦ ?_, ?_⟩
    · exact List.mem_takeWhile_imp (List.mem_reverse.1 hc)
    · rw [trimEnd, ← List.reverse_append, List.takeWhile_append_dropWhile, List.reverse_reverse]
  obtain ⟨back, hback, hs⟩ := hsplit (s.dropWhile isBlank)
  refine ⟨s.takeWhile isBlank, back, fun c hc ↦ List.mem_takeWhile_imp hc, hback, ?_⟩
  rw [trim, ← hs, List.takeWhile_append_dropWhile]

end ScriptBridge.Text
