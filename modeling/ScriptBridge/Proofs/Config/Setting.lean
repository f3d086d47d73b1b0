import ScriptBridge.Config.Document
import ScriptBridge.Proofs.Json.Skipping

/-!
# The values of settings

A size is written as the decimal numeral of a number below the limit, a file name as a string in
any spelling, a switch as a truth value. Each reader of a setting reads what is written so, and
refuses every other value: other types, numbers with a sign, a fraction or an exponent, numbers that
reach the limit, and strings with a surrogate that stands alone.
-/

namespace ScriptBridge.Config

open Json Reader

namespace Document

variable {α β : Type} {m : Reader α} {a : α} {value front rest s : List Char}

/-- The text is a value for this setting. -/
inductive Writes : List Char → Setting → Prop
  | memoryLimit {n : Nat} (h : n < sizeLimit) : Writes (Nat.toDigits 10 n) (.memoryLimit n)
  | gcThreshold {n : Nat} (h : n < sizeLimit) : Writes (Nat.toDigits 10 n) (.gcThreshold n)
  | maxStackSize {n : Nat} (h : n < sizeLimit) : Writes (Nat.toDigits 10 n) (.maxStackSize n)
  | defaultFileName {text chars : List Char} (h : Spelling text chars) :
    Writes ('"' :: (text ++ ['"'])) (.defaultFileName (String.ofList chars))
  | strict : Writes ['t', 'r', 'u', 'e'] (.strict true)
  | sloppy : Writes ['f', 'a', 'l', 's', 'e'] (.strict false)

/-! ## Reading and refusing -/

/-- The reader gives `a` for this value, wherever it stands. -/
def Reads (m : Reader α) (value : List Char) (a : α) : Prop :=
  ∀ front rest, Blank front → Delimited rest → m (front ++ (value ++ rest)) = .ok (a, rest)

/-- The reader gives up here. -/
def Refuses (m : Reader α) (s : List Char) : Prop := ∃ fault, m s = .error fault

/-- The reader gives up over this value, wherever it stands. -/
def Rejects (m : Reader α) (value : List Char) : Prop :=
  ∀ front rest, Blank front → Delimited rest → Refuses m (front ++ (value ++ rest))

theorem Reads.map (h : Reads m value a) (f : α → β) : Reads (f <$> m) value (f a) :=
  fun front rest hfront hrest ↦ map_of_ok (h front rest hfront hrest) f

theorem Rejects.map (h : Rejects m value) (f : α → β) : Rejects (f <$> m) value := by
  intro front rest hfront hrest
  obtain ⟨fault, hfault⟩ := h front rest hfront hrest
  exact ⟨fault, map_of_error hfault f⟩

theorem refuses_fail (cause : Cause) (s : List Char) : Refuses (fail cause : Reader α) s :=
  ⟨_, rfl⟩

theorem refuses_failNext (cause : Cause) (s : List Char) :
    Refuses (failNext cause : Reader α) s :=
  ⟨_, rfl⟩

/-- What is refused after any beginning is refused as a whole. -/
theorem refuses_bind {f : α → Reader β} (h : ∀ a left, m s = .ok (a, left) → Refuses (f a) left) :
    Refuses (m >>= f) s := by
  cases hm : m s with
  | error fault => exact ⟨fault, bind_of_error hm⟩
  | ok result =>
    obtain ⟨a, left⟩ := result
    obtain ⟨fault, hfault⟩ := h a left hm
    exact ⟨fault, (bind_of_ok hm).trans hfault⟩

/-- Whatever comes next, it is refused. -/
theorem refuses_refuseType (expected : String) (s : List Char) :
    Refuses (refuseType expected : Reader α) s := by
  rw [Refuses, refuseType, peek_bind]
  generalize s.head? = next
  split
  iterate 4 exact refuses_bind fun _ _ _ ↦ refuses_bind fun _ _ _ ↦ refuses_fail _ _
  · exact refuses_bind fun _ _ _ ↦ refuses_fail _ _
  · exact refuses_fail _ _
  · exact refuses_fail _ _
  · split
    · exact refuses_bind fun _ _ _ ↦ refuses_fail _ _
    · exact refuses_failNext _ _
  · exact refuses_failNext _ _

/-! ## Sizes -/

theorem reads_readSize {n : Nat} (h : n < sizeLimit) : Reads readSize (Nat.toDigits 10 n) n := by
  intro front rest hfront hrest
  have hread := numeral_toDigits h hrest
  obtain ⟨d, s, hdigits, hd⟩ := exists_toDigits n
  rw [hdigits] at hread ⊢
  refine (bind_of_ok (peekPastBlanks_cons hfront (isBlank_of_isDigit hd) _)).trans ?_
  have hminus : d ≠ '-' := ne_of_isDigit hd rfl
  simp only [isDigit_eq, hd, if_true]
  exact bind_of_ok hread

/-- A number that is no natural one is no size. -/
theorem refuses_sizeOf {numeral : Numeral} (h : ∀ n, numeral ≠ .natural n) (s : List Char) :
    Refuses (sizeOf numeral) s := by
  cases numeral with
  | natural n => exact absurd rfl (h n)
  | negative n => exact refuses_fail _ _
  | float x => exact refuses_fail _ _

theorem refuses_numeral {positive : Bool} (h : NoNatural (numeral positive) s) :
    Refuses (do let n ← numeral positive; sizeOf n) s :=
  refuses_bind fun _ left hread ↦
    refuses_sizeOf (fun n hn ↦ h n left (hn ▸ hread)) left

/-- A value that begins neither with a digit nor with a minus sign is no number. -/
theorem refuses_readSize {c : Char} (hfront : Blank front) (hc : isBlank c = false)
    (hdigit : c.isDigit = false) (hminus : c ≠ '-') (s : List Char) :
    Refuses readSize (front ++ c :: s) := by
  rw [Refuses, readSize, bind_of_ok (peekPastBlanks_cons hfront hc s)]
  simp only [isDigit_eq, hdigit, Bool.false_eq_true, if_false]
  exact refuses_refuseType _ _

/-- Whatever is not the numeral of a number below the limit is no size. -/
theorem rejects_readSize (h : IsValue value)
    (hnot : ∀ n < sizeLimit, value ≠ Nat.toDigits 10 n) : Rejects readSize value := by
  intro front rest hfront hrest
  cases h with
  | @unsigned _ tail n h =>
    have hlarge : tail = [] → significandLimit ≤ n := by
      rintro rfl
      have htext := h.text_eq
      rw [List.append_nil] at htext
      exact Nat.le_of_not_lt fun hn ↦ hnot n hn htext
    have hnumeral := refuses_numeral (h.noNatural hrest hlarge)
    obtain ⟨d, s, rfl, hd⟩ := h.exists_cons
    have hminus : d ≠ '-' := ne_of_isDigit hd rfl
    rw [Refuses, readSize, List.cons_append,
      bind_of_ok (peekPastBlanks_cons hfront (isBlank_of_isDigit hd) _)]
    simp only [isDigit_eq, hd, if_true]
    exact hnumeral
  | negated h =>
    rw [Refuses, readSize, List.cons_append, bind_of_ok (peekPastBlanks_cons hfront rfl _)]
    exact refuses_numeral (noNatural_numeral_false _)
  | _ => exact refuses_readSize hfront rfl rfl (by decide) _

/-! ## Strings -/

theorem string_append {text chars : List Char} (h : Spelling text chars) (rest : List Char) :
    string ('"' :: (text ++ '"' :: rest)) = .ok (String.ofList chars, rest) := by
  rw [string, List.tail_cons, h.readString_eq]
  rfl

theorem refuses_string {text : List Char} (h : Quotable text)
    (hnone : ∀ chars, ¬ Spelling text chars) (rest : List Char) :
    Refuses string ('"' :: (text ++ '"' :: rest)) := by
  obtain ⟨fault, hread⟩ := h.readString_refuses hnone rest
  exact ⟨fault, by rw [string, List.tail_cons, hread]; rfl⟩

theorem reads_readText {text chars : List Char} (h : Spelling text chars) :
    Reads readText ('"' :: (text ++ ['"'])) (String.ofList chars) := by
  intro front rest hfront _
  rw [List.cons_append, List.append_assoc]
  exact (bind_of_ok (peekPastBlanks_cons hfront rfl _)).trans (string_append h rest)

/-- A value that does not begin with a quotation mark is no string. -/
theorem refuses_readText {c : Char} (hfront : Blank front) (hc : isBlank c = false)
    (hquote : c ≠ '"') (s : List Char) : Refuses readText (front ++ c :: s) := by
  rw [Refuses, readText, bind_of_ok (peekPastBlanks_cons hfront hc s)]
  simp only
  exact refuses_refuseType _ _

theorem rejects_readText (h : IsValue value)
    (hnot : ∀ text chars, Spelling text chars → value ≠ '"' :: (text ++ ['"'])) :
    Rejects readText value := by
  intro front rest hfront hrest
  cases h with
  | @string text h =>
    have hnone : ∀ chars, ¬ Spelling text chars := fun chars hs ↦ hnot text chars hs rfl
    rw [Refuses, readText, List.cons_append, bind_of_ok (peekPastBlanks_cons hfront rfl _),
      List.append_assoc]
    exact refuses_string h hnone rest
  | unsigned h =>
    obtain ⟨d, s, rfl, hd⟩ := h.exists_cons
    exact refuses_readText hfront (isBlank_of_isDigit hd) (ne_of_isDigit hd rfl) _
  | _ => exact refuses_readText hfront rfl (by decide) _

/-! ## Truth values -/

theorem reads_readBool_true : Reads readBool ['t', 'r', 'u', 'e'] true :=
  fun _ _ hfront _ ↦ bind_of_ok (peekPastBlanks_cons hfront rfl _)

theorem reads_readBool_false : Reads readBool ['f', 'a', 'l', 's', 'e'] false :=
  fun _ _ hfront _ ↦ bind_of_ok (peekPastBlanks_cons hfront rfl _)

theorem refuses_readBool {c : Char} (hfront : Blank front) (hc : isBlank c = false)
    (ht : c ≠ 't') (hf : c ≠ 'f') (s : List Char) : Refuses readBool (front ++ c :: s) := by
  rw [Refuses, readBool, bind_of_ok (peekPastBlanks_cons hfront hc s)]
  simp only
  exact refuses_refuseType _ _

theorem rejects_readBool (h : IsValue value) (htrue : value ≠ ['t', 'r', 'u', 'e'])
    (hfalse : value ≠ ['f', 'a', 'l', 's', 'e']) : Rejects readBool value := by
  intro front rest hfront hrest
  cases h with
  | trueWord => exact absurd rfl htrue
  | falseWord => exact absurd rfl hfalse
  | unsigned h =>
    obtain ⟨d, s, rfl, hd⟩ := h.exists_cons
    exact refuses_readBool hfront (isBlank_of_isDigit hd) (ne_of_isDigit hd rfl)
      (ne_of_isDigit hd rfl) _
  | _ => exact refuses_readBool hfront rfl (by decide) (by decide) _

/-! ## Settings -/

/-- What is written for a setting is read as that. -/
theorem Writes.reads {σ : Setting} (h : Writes value σ) : Reads (readSetting σ.field) value σ := by
  cases h with
  | memoryLimit h => exact (reads_readSize h).map _
  | gcThreshold h => exact (reads_readSize h).map _
  | maxStackSize h => exact (reads_readSize h).map _
  | defaultFileName h => exact (reads_readText h).map _
  | strict => exact reads_readBool_true.map _
  | sloppy => exact reads_readBool_false.map _

/-- A value that is not one for a setting is refused for it. -/
theorem rejects_readSetting {f : Field} (h : IsValue value)
    (hnot : ∀ σ : Setting, σ.field = f → ¬ Writes value σ) : Rejects (readSetting f) value := by
  have hsize : ∀ σ : Nat → Setting, (∀ n, (σ n).field = f) →
      (∀ n, n < sizeLimit → Writes (Nat.toDigits 10 n) (σ n)) →
      Rejects (σ <$> readSize) value := by
    intro σ hfield hwrites
    exact (rejects_readSize h fun n hn heq ↦ hnot (σ n) (hfield n) (heq ▸ hwrites n hn)).map _
  cases f with
  | memoryLimit => exact hsize _ (fun _ ↦ rfl) fun _ ↦ .memoryLimit
  | gcThreshold => exact hsize _ (fun _ ↦ rfl) fun _ ↦ .gcThreshold
  | maxStackSize => exact hsize _ (fun _ ↦ rfl) fun _ ↦ .maxStackSize
  | defaultFileName =>
    refine (rejects_readText h fun _ chars hs heq ↦ ?_).map _
    subst heq
    exact hnot (.defaultFileName (String.ofList chars)) rfl (.defaultFileName hs)
  | strict =>
    exact (rejects_readBool h (fun heq ↦ hnot (.strict true) rfl (heq ▸ .strict))
      (fun heq ↦ hnot (.strict false) rfl (heq ▸ .sloppy))).map _

/-- A text is at most one value for a setting. -/
theorem Writes.unique {σ σ' : Setting} (h : Writes value σ) (h' : Writes value σ')
    (hfield : σ.field = σ'.field) : σ = σ' := by
  have hread := h.reads [] [] nofun nofun
  rw [hfield, h'.reads [] [] nofun nofun] at hread
  cases hread
  rfl

end Document

end ScriptBridge.Config
