import ScriptBridge.Json.NumberReader
import ScriptBridge.Proofs.Json.Strings

/-!
# Reading a value without brackets

Readers pass over blanks in front of what they look for. A number ends where no digit, fraction or
exponent can go on; behind a whole value that is always so. Whoever only passes over a number finds
its end, however large it is. A number is read as a natural one exactly if it is written without a
sign, a fraction and an exponent, and is below the bound of significands.
-/

namespace ScriptBridge.Json

namespace Reader

/-! ## Steps of a reader -/

variable {α β : Type} {m : Reader α} {f : α → Reader β} {s s' front : List Char} {a : α} {c : Char}
  {fault : Fault}

theorem bind_of_ok (h : m s = .ok (a, s')) : (m >>= f) s = f a s' := by
  simp only [Bind.bind, StateT.bind, h, Except.bind]

theorem bind_of_error (h : m s = .error fault) : (m >>= f) s = .error fault := by
  simp only [Bind.bind, StateT.bind, h, Except.bind]

theorem map_of_ok (h : m s = .ok (a, s')) (g : α → β) : (g <$> m) s = .ok (g a, s') := by
  simp only [Functor.map, StateT.map, Bind.bind, Except.bind, h]
  rfl

theorem map_of_error (h : m s = .error fault) (g : α → β) : (g <$> m) s = .error fault := by
  simp only [Functor.map, StateT.map, Bind.bind, Except.bind, h]

theorem peekPastBlanks_cons (hfront : Blank front) (hc : isBlank c = false) (s : List Char) :
    peekPastBlanks (front ++ c :: s) = .ok (some c, c :: s) := by
  have hdrop : (front ++ c :: s).dropWhile isBlank = c :: s := by
    rw [List.dropWhile_append_of_pos hfront, List.dropWhile_cons_of_neg (by simp [hc])]
  have hskip : skipBlanks (front ++ c :: s) = .ok ((), c :: s) := by rw [skipBlanks, hdrop]
  rw [peekPastBlanks, bind_of_ok hskip]
  rfl

theorem peekPastBlanks_here (hc : isBlank c = false) (s : List Char) :
    peekPastBlanks (c :: s) = .ok (some c, c :: s) :=
  peekPastBlanks_cons (show Blank [] from nofun) hc s

theorem peekPastBlanks_nil (hfront : Blank front) : peekPastBlanks front = .ok (none, []) := by
  have hskip : skipBlanks front = .ok ((), []) := by
    rw [skipBlanks, List.dropWhile_eq_nil_iff.2 hfront]
  rw [peekPastBlanks, bind_of_ok hskip]
  rfl

@[simp]
theorem peek_bind (f : Option Char → Reader β) (s : List Char) : (peek >>= f) s = f s.head? s :=
  rfl

@[simp]
theorem advance_bind (f : Unit → Reader β) (s : List Char) : (advance >>= f) s = f () s.tail :=
  rfl

/-! ## Digits -/

theorem isDigit_eq (c : Char) : isDigit c = c.isDigit := by
  rw [Bool.eq_iff_iff]
  simp [isDigit, Char.isDigit, Char.le_def]

/-- No digit comes next. -/
def Digitless (s : List Char) : Prop := ∀ c ∈ s.head?, c.isDigit = false

theorem digits_append {ds : List Char} (hds : ∀ c ∈ ds, c.isDigit = true) (hs : Digitless s) :
    digits (ds ++ s) = .ok (ds, s) := by
  have hall : ∀ c ∈ ds, isDigit c = true := fun c hc ↦ by rw [isDigit_eq, hds c hc]
  have hnone : s.takeWhile isDigit = [] ∧ s.dropWhile isDigit = s := by
    cases s with
    | nil => exact ⟨rfl, rfl⟩
    | cons c s =>
      have hc : ¬ isDigit c = true := by simp [isDigit_eq, hs c rfl]
      exact ⟨List.takeWhile_cons_of_neg hc, List.dropWhile_cons_of_neg hc⟩
  rw [digits, List.takeWhile_append_of_pos hall, List.dropWhile_append_of_pos hall, hnone.1,
    hnone.2, List.append_nil]

end Reader

open Reader

/-- Behind a value there is a blank, a comma, a closing bracket, or nothing. -/
def Delimited (s : List Char) : Prop :=
  ∀ c ∈ s.head?, Reader.isBlank c = true ∨ c = ',' ∨ c = ']' ∨ c = '\x7d'

/-- Nothing that may go on with a number comes next. -/
theorem Delimited.head {s : List Char} (h : Delimited s) :
    Digitless s ∧ s.head? ≠ some '.' ∧ s.head? ≠ some 'e' ∧ s.head? ≠ some 'E' := by
  refine ⟨fun c hc ↦ ?_, fun hc ↦ ?_, fun hc ↦ ?_, fun hc ↦ ?_⟩
  · have hdelimiter := h c hc
    simp only [isBlank, Bool.or_eq_true, beq_iff_eq] at hdelimiter
    rcases hdelimiter with (((rfl | rfl) | rfl) | rfl) | rfl | rfl | rfl <;> rfl
  all_goals exact absurd (h _ hc) (by decide)

/-! ## The parts of a number -/

/-- No number begins with a zero unless it is that. -/
theorem toDigits_cases (n : Nat) : n = 0 ∧ Nat.toDigits 10 n = ['0'] ∨
    n ≠ 0 ∧ ∃ c digits, Nat.toDigits 10 n = c :: digits ∧ c ≠ '0' ∧ c.isDigit = true := by
  induction n using Nat.strongRecOn with
  | ind n ih =>
    by_cases hsmall : n < 10
    · have hall : ∀ n < 10, n = 0 ∨ Nat.digitChar n ≠ '0' ∧ (Nat.digitChar n).isDigit = true := by
        decide
      rw [Nat.toDigits_of_lt_base hsmall]
      obtain rfl | h := hall n hsmall
      · exact .inl ⟨rfl, rfl⟩
      · refine .inr ⟨fun hzero ↦ h.1 (hzero ▸ rfl), _, [], rfl, h⟩
    · obtain ⟨hzero, -⟩ | ⟨-, c, digits, hdigits, h⟩ := ih (n / 10) (by omega)
      · omega
      · refine .inr ⟨by omega, c, digits ++ [(n % 10).digitChar], ?_, h⟩
        rw [Nat.toDigits_of_base_le (by decide) (by omega), hdigits]
        rfl

theorem exists_toDigits (n : Nat) : ∃ d s, Nat.toDigits 10 n = d :: s ∧ d.isDigit = true := by
  obtain ⟨-, hdigits⟩ | ⟨-, d, s, hdigits, -, hd⟩ := toDigits_cases n
  · exact ⟨'0', [], hdigits, rfl⟩
  · exact ⟨d, s, hdigits, hd⟩

variable {fraction exponent rest : List Char}

theorem IsDigits.exists_cons {digits : List Char} (h : IsDigits digits) :
    ∃ d ds, digits = d :: ds ∧ d.isDigit = true ∧ ∀ c ∈ ds, c.isDigit = true := by
  obtain ⟨hne, h⟩ := h
  obtain ⟨d, ds, rfl⟩ := List.exists_cons_of_ne_nil hne
  exact ⟨d, ds, rfl, List.forall_mem_cons.1 h⟩

theorem ne_of_isDigit {c d : Char} (hc : c.isDigit = true) (hd : d.isDigit = false) : c ≠ d := by
  rintro rfl
  rw [hc] at hd
  cases hd

theorem discard_of_ok {α : Type} {m : Reader α} {s s' : List Char} {a : α}
    (h : m s = .ok (a, s')) : discard m s = .ok ((), s') :=
  map_of_ok h _

theorem exponentSign_append {sign digits : List Char}
    (hsign : sign = [] ∨ sign = ['+'] ∨ sign = ['-']) (h : IsDigits digits) (rest : List Char) :
    ∃ upward, exponentSign (sign ++ (digits ++ rest)) = .ok (upward, digits ++ rest) := by
  obtain ⟨d, ds, rfl, hd, -⟩ := h.exists_cons
  obtain rfl | rfl | rfl := hsign
  · refine ⟨true, ?_⟩
    have hplus : d ≠ '+' := ne_of_isDigit hd rfl
    have hminus : d ≠ '-' := ne_of_isDigit hd rfl
    simp [exponentSign, hplus, hminus]
    rfl
  · exact ⟨true, rfl⟩
  · exact ⟨false, rfl⟩

theorem ignoreExponent_append {mark : Char} {text : List Char} (h : IsExponent (mark :: text))
    (hrest : Digitless rest) : ignoreExponent (mark :: text ++ rest) = .ok ((), rest) := by
  cases h with
  | @present _ sign digits _ hsign h =>
    obtain ⟨upward, hread⟩ := exponentSign_append hsign h rest
    have hdigits := discard_of_ok (digits_append h.2 hrest)
    rw [ignoreExponent, List.cons_append, advance_bind, List.tail_cons, List.append_assoc,
      bind_of_ok hread]
    obtain ⟨d, ds, rfl, hd, -⟩ := h.exists_cons
    rw [peek_bind]
    simpa [isDigit_eq, hd] using hdigits

/-- An exponent does not begin with a digit, nor does what stands behind a number. -/
theorem IsExponent.digitless (h : IsExponent exponent) (hrest : Delimited rest) :
    Digitless (exponent ++ rest) := by
  cases h with
  | absent => exact hrest.head.1
  | present hmark =>
    intro c hc
    cases hc
    obtain rfl | rfl := hmark <;> rfl

theorem IsFraction.digitless (h : IsFraction fraction) (hexponent : IsExponent exponent)
    (hrest : Delimited rest) : Digitless (fraction ++ (exponent ++ rest)) := by
  cases h with
  | absent => exact hexponent.digitless hrest
  | present =>
    intro c hc
    cases hc
    rfl

/-- Behind a number without an exponent there is no mark of one, and an exponent is passed over
up to its end. -/
theorem IsExponent.ignored (h : IsExponent exponent) (hrest : Delimited rest) :
    exponent = [] ∨ ((exponent ++ rest).head? = some 'e' ∨ (exponent ++ rest).head? = some 'E') ∧
      ignoreExponent (exponent ++ rest) = .ok ((), rest) := by
  cases h with
  | absent => exact .inl rfl
  | present hmark hsign h =>
    have hread := ignoreExponent_append (.present hmark hsign h) hrest.head.1
    obtain rfl | rfl := hmark
    · exact .inr ⟨.inl rfl, hread⟩
    · exact .inr ⟨.inr rfl, hread⟩

theorem ignoreFraction_append {digits : List Char} (h : IsDigits digits)
    (hexponent : IsExponent exponent) (hrest : Delimited rest) :
    ignoreFraction ('.' :: (digits ++ (exponent ++ rest))) = .ok ((), rest) := by
  rw [ignoreFraction, advance_bind, List.tail_cons,
    bind_of_ok (digits_append h.2 (hexponent.digitless hrest)), List.isEmpty_eq_false_iff.2 h.1]
  simp only [Bool.false_eq_true, if_false, peek_bind]
  obtain rfl | ⟨he | hE, hread⟩ := hexponent.ignored hrest
  · obtain ⟨-, -, he, hE⟩ := hrest.head
    rw [List.nil_append]
    generalize rest.head? = next at he hE
    split
    · contradiction
    · contradiction
    · rfl
  · rw [he]
    exact hread
  · rw [hE]
    exact hread

/-- Which digits a number begins with is all the same to whoever passes over it. -/
theorem ignoreNumber_toDigits {s : List Char} (hs : Digitless s) (n : Nat) :
    ignoreNumber (Nat.toDigits 10 n ++ s) = ignoreNumber ('0' :: s) := by
  have hall := fun c ↦
    Nat.isDigit_of_mem_toDigits (b := 10) (n := n) (c := c) (by decide) (by decide)
  obtain ⟨-, hdigits⟩ | ⟨-, c, ds, hdigits, hzero, hc⟩ := toDigits_cases n
  · rw [hdigits, List.singleton_append]
  · rw [hdigits] at hall ⊢
    have hread := discard_of_ok (digits_append hall hs)
    simp only [ignoreNumber, List.cons_append, peek_bind, List.head?_cons, isDigit_eq, hc,
      if_true, advance_bind, List.tail_cons]
    refine (bind_of_ok hread).trans ?_
    cases s with
    | nil => rfl
    | cons d s => simp only [List.head?_cons, hs d rfl, Bool.false_eq_true, if_false]

/-- A number is passed over up to its end, however large it is. -/
theorem IsUnsigned.ignoreNumber_append {text tail : List Char} {n : Nat}
    (h : IsUnsigned text n tail) (hrest : Delimited rest) :
    ignoreNumber (text ++ rest) = .ok ((), rest) := by
  cases h with
  | @mk _ fraction exponent hfraction hexponent =>
    rw [List.append_assoc, List.append_assoc,
      ignoreNumber_toDigits (hfraction.digitless hexponent hrest)]
    cases hfraction with
    | present h => exact ignoreFraction_append h hexponent hrest
    | absent =>
      rw [List.nil_append]
      obtain rfl | ⟨hmark, hread⟩ := hexponent.ignored hrest
      · obtain ⟨hdigitless, hpoint, he, hE⟩ := hrest.head
        rw [List.nil_append]
        cases rest with
        | nil => rfl
        | cons c rest =>
          simp only [List.head?_cons] at hpoint he hE
          simp only [ignoreNumber, peek_bind, List.head?_cons, advance_bind, List.tail_cons,
            isDigit_eq, hdigitless c rfl, Bool.false_eq_true, if_false]
          rfl
      · rw [List.head?_eq_some_iff, List.head?_eq_some_iff] at hmark
        obtain ⟨s, hs⟩ | ⟨s, hs⟩ := hmark <;>
          · rw [hs] at hread ⊢
            exact hread

/-! ## Natural numbers -/

/-- The reader gives no natural number here. -/
def NoNatural (m : Reader Numeral) (s : List Char) : Prop :=
  ∀ n left, m s ≠ .ok (.natural n, left)

theorem noNatural_float (m : Reader Float) (s : List Char) :
    NoNatural (Numeral.float <$> m) s := by
  intro n left h
  cases hm : m s with
  | error fault => rw [map_of_error hm] at h; cases h
  | ok result => rw [map_of_ok hm] at h; cases h

theorem noNatural_afterLongInteger (positive : Bool) (significand : Nat) (exponent : Int)
    (s : List Char) : NoNatural (afterLongInteger positive significand exponent) s := by
  rw [NoNatural, afterLongInteger, peek_bind]
  generalize s.head? = next
  split <;> exact noNatural_float _ s

/-- What has a minus sign is not natural. -/
theorem noNatural_afterInteger_false (significand : Nat) (s : List Char) :
    NoNatural (afterInteger false significand) s := by
  rw [NoNatural, afterInteger, peek_bind]
  generalize s.head? = next
  split
  · exact noNatural_float _ s
  · exact noNatural_float _ s
  · exact noNatural_float _ s
  · simp only [Bool.false_eq_true, if_false]
    split <;> exact fun n left h ↦ by cases h

/-- What has a fraction or an exponent is not natural. -/
theorem noNatural_afterInteger {s : List Char}
    (h : s.head? = some '.' ∨ s.head? = some 'e' ∨ s.head? = some 'E') (positive : Bool)
    (significand : Nat) :
    NoNatural (afterInteger positive significand) s := by
  rw [NoNatural, afterInteger, peek_bind]
  obtain h | h | h := h <;> rw [h] <;> exact noNatural_float _ s

theorem afterInteger_delimited (hrest : Delimited rest) (n : Nat) :
    afterInteger true n rest = .ok (.natural n, rest) := by
  obtain ⟨-, hpoint, he, hE⟩ := hrest.head
  rw [afterInteger, peek_bind]
  generalize rest.head? = next at hpoint he hE
  split
  · contradiction
  · contradiction
  · contradiction
  · rfl

/-- All digits are gathered exactly if their number is below the limit. -/
theorem gather_eq {limit value : Nat} (hvalue : value < limit) (digits : List Char) :
    if Nat.ofDigitChars 10 digits value < limit then
      gather limit value digits = (Nat.ofDigitChars 10 digits value, [])
    else (gather limit value digits).2 ≠ [] := by
  induction digits generalizing value with
  | nil => simp [gather, hvalue]
  | cons c digits ih =>
    have hnext : 10 * value + (c.toNat - '0'.toNat) = value * 10 + digitValue c := by
      rw [Nat.mul_comm]
      rfl
    rw [Nat.ofDigitChars_cons, hnext, gather]
    have hle := Text.le_ofDigitChars digits (value * 10 + digitValue c)
    by_cases hlt : value * 10 + digitValue c < limit
    · simpa only [if_pos hlt] using ih hlt
    · rw [if_neg hlt, if_neg (by omega)]
      exact List.cons_ne_nil _ _

theorem noNatural_failNext (cause : Cause) (s : List Char) : NoNatural (failNext cause) s := by
  intro n left h
  cases h

/-- Behind a minus sign there is no natural number. -/
theorem noNatural_numeral_false (s : List Char) : NoNatural (numeral false) s := by
  rw [NoNatural, numeral, peek_bind]
  generalize s.head? = next
  split
  · exact fun n left h ↦ by cases h
  · rw [advance_bind, peek_bind]
    generalize s.tail.head? = next
    split
    · split
      · exact noNatural_failNext _ _
      · exact noNatural_afterInteger_false _ _
    · exact noNatural_afterInteger_false _ _
  · split
    · rw [bind_of_ok (m := digits) rfl]
      generalize gather significandLimit 0 (s.takeWhile isDigit) = gathered
      obtain ⟨significand, left⟩ := gathered
      dsimp only
      split
      · exact noNatural_afterInteger_false _ _
      · exact noNatural_afterLongInteger _ _ _ _
    · exact noNatural_failNext _ _

theorem IsUnsigned.text_eq {text tail : List Char} {n : Nat} (h : IsUnsigned text n tail) :
    text = Nat.toDigits 10 n ++ tail := by
  cases h
  rfl

/-- What stands behind the whole part of a number begins with a point or the mark of an exponent. -/
theorem IsUnsigned.head_tail {text tail : List Char} {n : Nat} (h : IsUnsigned text n tail)
    (hne : tail ≠ []) (rest : List Char) : (tail ++ rest).head? = some '.' ∨
      (tail ++ rest).head? = some 'e' ∨ (tail ++ rest).head? = some 'E' := by
  cases h with
  | mk hfraction hexponent =>
    cases hfraction with
    | present h => exact .inl rfl
    | absent =>
      cases hexponent with
      | absent => exact absurd rfl hne
      | present hmark => obtain rfl | rfl := hmark <;> simp

/-- How a number is read depends on its whole part only, and on what stands behind that. -/
theorem numeral_append (n : Nat) {s : List Char} (hs : Digitless s) (positive : Bool) :
    if n < significandLimit then
      numeral positive (Nat.toDigits 10 n ++ s) = afterInteger positive n s
    else ∃ significand exponent, numeral positive (Nat.toDigits 10 n ++ s) =
      afterLongInteger positive significand exponent s := by
  have hall := fun c ↦
    Nat.isDigit_of_mem_toDigits (b := 10) (n := n) (c := c) (by decide) (by decide)
  have hpositive : 0 < significandLimit := by decide
  have hgather := gather_eq hpositive (Nat.toDigits 10 n)
  rw [Nat.ofDigitChars_ten_toDigits] at hgather
  obtain ⟨rfl, hdigits⟩ | ⟨-, c, ds, hdigits, hzero, hc⟩ := toDigits_cases n
  · rw [if_pos (by decide), hdigits, numeral]
    cases s with
    | nil => rfl
    | cons d s =>
      have hd : isDigit d = false := by rw [isDigit_eq, hs d rfl]
      simp only [List.singleton_append, peek_bind, List.head?_cons, advance_bind, List.tail_cons,
        hd, Bool.false_eq_true, if_false]
  · have hread : numeral positive (Nat.toDigits 10 n ++ s) =
        (if (gather significandLimit 0 (Nat.toDigits 10 n)).2.isEmpty = true then
          afterInteger positive (gather significandLimit 0 (Nat.toDigits 10 n)).1
        else afterLongInteger positive (gather significandLimit 0 (Nat.toDigits 10 n)).1
          (gather significandLimit 0 (Nat.toDigits 10 n)).2.length) s := by
      have hdigit := digits_append hall hs
      rw [numeral, peek_bind]
      rw [hdigits] at hdigit ⊢
      simp only [List.cons_append, List.head?_cons, isDigit_eq, hc, if_true]
      exact bind_of_ok hdigit
    split at hgather
    · next hlt =>
      rw [if_pos hlt, hread, hgather]
      rfl
    · next hlt =>
      rw [if_neg hlt, hread, List.isEmpty_eq_false_iff.2 hgather]
      exact ⟨_, _, rfl⟩

/-- A numeral below the bound is read as its number. -/
theorem numeral_toDigits {n : Nat} (hn : n < significandLimit) (hrest : Delimited rest) :
    numeral true (Nat.toDigits 10 n ++ rest) = .ok (.natural n, rest) := by
  have hread := numeral_append n hrest.head.1 true
  rw [if_pos hn] at hread
  rw [hread, afterInteger_delimited hrest]

/-- A number with a fraction or an exponent, or not below the bound, is not read as a natural
number. -/
theorem IsUnsigned.noNatural {text tail : List Char} {n : Nat} (h : IsUnsigned text n tail)
    (hrest : Delimited rest) (hlarge : tail = [] → significandLimit ≤ n) :
    NoNatural (numeral true) (text ++ rest) := by
  have hhead := h.head_tail
  cases h with
  | @mk _ fraction exponent hfraction hexponent =>
    have hread := numeral_append n (hfraction.digitless hexponent hrest) true
    rw [NoNatural, List.append_assoc, List.append_assoc]
    split at hread
    · next hlt =>
      have hne : fraction ++ exponent ≠ [] := fun hnil ↦ absurd (hlarge hnil) (by omega)
      have hnext := hhead hne rest
      rw [List.append_assoc] at hnext
      rw [hread]
      exact noNatural_afterInteger hnext _ _
    · obtain ⟨significand, exponent, hread⟩ := hread
      rw [hread]
      exact noNatural_afterLongInteger _ _ _ _

end ScriptBridge.Json
