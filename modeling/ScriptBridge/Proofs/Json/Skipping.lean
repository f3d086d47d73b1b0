import ScriptBridge.Json.Skip
import ScriptBridge.Proofs.Json.Scalars

/-!
# Any value is passed over

Whoever passes over a value is next at what stands behind it, whatever the value is and however
deeply it is nested. The items of a bracket are passed over one after the other, each for less fuel
than it is long, so the fuel that the reader sets out with is enough for all brackets inside.
-/

namespace ScriptBridge.Json

open Reader

variable {front rest text item key value member : List Char} {items : List (List Char)}
  {bracket : Bracket} {stack : List Bracket} {behindItem : Bool}

/-! ## Items -/

/-- The character that closes a bracket. -/
def Bracket.closing : Bracket → Char
  | .list => ']'
  | .object => '\x7d'

theorem Bracket.isBlank_closing (bracket : Bracket) : isBlank bracket.closing = false := by
  cases bracket <;> rfl

/-- An item of a bracket: an element of a list, or a member of an object. -/
inductive IsItem : Bracket → List Char → Prop
  | element {item : List Char} (h : IsValue item) : IsItem .list item
  | member {entry : List Char × List Char} {item : List Char} (hmember : IsMember entry item)
    (h : IsValue entry.2) : IsItem .object item

/-- The text begins neither with a blank nor with a comma or a closing bracket. -/
def Opens (item : List Char) : Prop :=
  ∃ c s, item = c :: s ∧ isBlank c = false ∧ c ≠ ',' ∧ c ≠ ']' ∧ c ≠ '\x7d'

theorem IsUnsigned.exists_cons {tail : List Char} {n : Nat} (h : IsUnsigned text n tail) :
    ∃ d s, text = d :: s ∧ d.isDigit = true := by
  cases h with
  | @mk n =>
    obtain ⟨d, s, hdigits, hd⟩ := exists_toDigits n
    exact ⟨d, _, by rw [hdigits]; rfl, hd⟩

theorem isBlank_of_isDigit {c : Char} (h : c.isDigit = true) : isBlank c = false := by
  simp [isBlank, ne_of_isDigit h]

theorem IsValue.opens (h : IsValue value) : Opens value := by
  cases h with
  | unsigned h =>
    obtain ⟨d, s, rfl, hd⟩ := h.exists_cons
    exact ⟨d, s, rfl, isBlank_of_isDigit hd, ne_of_isDigit hd rfl, ne_of_isDigit hd rfl,
      ne_of_isDigit hd rfl⟩
  | _ => exact ⟨_, _, rfl, by decide⟩

theorem IsMember.opens {entry : List Char × List Char} (h : IsMember entry member) :
    Opens member := by
  cases h with
  | mk => exact ⟨_, _, rfl, by decide⟩

theorem IsItem.opens (h : IsItem bracket item) : Opens item := by
  cases h with
  | element h => exact h.opens
  | member hmember => exact hmember.opens

theorem exists_entry {entries : List (List Char × List Char)} {members : List (List Char)}
    (h : List.Forall₂ IsMember entries members) (hmember : member ∈ members) :
    ∃ entry ∈ entries, IsMember entry member := by
  induction h with
  | nil => cases hmember
  | cons hfirst _ ih =>
    obtain rfl | hmember := List.mem_cons.1 hmember
    · exact ⟨_, List.mem_cons_self, hfirst⟩
    · obtain ⟨entry, hentry, h⟩ := ih hmember
      exact ⟨entry, List.mem_cons_of_mem _ hentry, h⟩

/-! ## Between the items -/

/-- Behind an item there is a blank, a comma or the closing bracket. -/
theorem Listed.delimited (h : Listed true items text) (bracket : Bracket) (rest : List Char) :
    Delimited (text ++ bracket.closing :: rest) := by
  intro c hc
  cases h with
  | nil hblanks =>
    cases text with
    | nil =>
      cases hc
      cases bracket <;> simp [Bracket.closing]
    | cons d text =>
      cases hc
      exact .inl (hblanks _ List.mem_cons_self)
  | @next _ _ back _ _ hback =>
    cases back with
    | nil =>
      cases hc
      simp
    | cons d back =>
      cases hc
      exact .inl (hback _ List.mem_cons_self)

theorem Listed.length_le (h : Listed behindItem items text) :
    ∀ item ∈ items, item.length ≤ text.length := by
  induction h with
  | nil => exact nofun
  | first _ _ ih =>
    simp only [List.length_append]
    exact List.forall_mem_cons.2 ⟨by omega, fun item hitem ↦ by have := ih item hitem; omega⟩
  | next _ _ _ ih =>
    simp only [List.length_append, List.length_cons]
    exact List.forall_mem_cons.2 ⟨by omega, fun item hitem ↦ by have := ih item hitem; omega⟩

theorem Listed.length_le_length (h : Listed behindItem items text)
    (hitems : ∀ item ∈ items, Opens item) : items.length ≤ text.length := by
  have hpositive : ∀ {item}, Opens item → 0 < item.length := by
    rintro _ ⟨c, s, rfl, -⟩
    exact Nat.zero_lt_succ _
  induction h with
  | nil => exact Nat.zero_le _
  | first _ _ ih =>
    obtain ⟨hitem, hitems⟩ := List.forall_mem_cons.1 hitems
    have hlength := hpositive hitem
    have hrest := ih hitems
    simp only [List.length_cons, List.length_append]
    omega
  | next _ _ _ ih =>
    obtain ⟨-, hitems⟩ := List.forall_mem_cons.1 hitems
    have hrest := ih hitems
    simp only [List.length_cons, List.length_append]
    omega

theorem ignoreSeparator_closing (h : Listed behindItem [] text) (bracket : Bracket)
    (rest : List Char) :
    ignoreSeparator bracket behindItem (text ++ bracket.closing :: rest) = .ok (.closed, rest) := by
  cases h with
  | nil hblanks =>
    unfold ignoreSeparator
    rw [bind_of_ok (peekPastBlanks_cons hblanks bracket.isBlank_closing rest)]
    cases bracket <;> cases behindItem <;> rfl

theorem ignoreSeparator_item (h : Listed behindItem (item :: items) text) (hitem : Opens item)
    (bracket : Bracket) (rest : List Char) : ∃ front text', Blank front ∧
      Listed true items text' ∧ front.length + item.length + text'.length ≤ text.length ∧
      ignoreSeparator bracket behindItem (text ++ rest) =
        .ok (.item, front ++ (item ++ (text' ++ rest))) := by
  unfold ignoreSeparator
  cases h with
  | @first _ text' front _ hfront h =>
    obtain ⟨c, s, rfl, hc, hcomma, hlist, hobject⟩ := hitem
    refine ⟨[], text', nofun, h, by simp; omega, ?_⟩
    rw [List.append_assoc, List.append_assoc, List.cons_append,
      bind_of_ok (peekPastBlanks_cons hfront hc _)]
    cases bracket <;> simp [hlist, hobject] <;> rfl
  | @next _ text' back front _ hback hfront h =>
    refine ⟨front, text', hfront, h, by simp; omega, ?_⟩
    rw [List.append_assoc, List.cons_append, bind_of_ok (peekPastBlanks_cons hback rfl _)]
    simp
    rfl

theorem ignoreString_append (h : Quotable text) (rest : List Char) :
    ignoreString ('"' :: (text ++ '"' :: rest)) = .ok ((), rest) := by
  rw [ignoreString, List.tail_cons, h.skipString_eq]
  rfl

/-- A key is passed over with the colon behind it; the value is next. -/
theorem ignoreKey_append (h : IsMember (key, value) member) (hfront : Blank front)
    (rest : List Char) : ∃ before, Blank before ∧ value.length < member.length ∧
      ignoreKey (front ++ (member ++ rest)) = .ok ((), before ++ (value ++ rest)) := by
  cases h with
  | @mk _ _ behind before hkey hbehind hbefore =>
    refine ⟨before, hbefore, ?_, ?_⟩
    · simp only [List.length_cons, List.length_append]
      omega
    · unfold ignoreKey
      simp only [List.cons_append, List.append_assoc]
      refine (bind_of_ok (peekPastBlanks_cons hfront rfl _)).trans ?_
      refine (bind_of_ok (ignoreString_append hkey _)).trans ?_
      exact bind_of_ok (peekPastBlanks_cons hbehind rfl _)

/-! ## One value -/

/-- A value without brackets is passed over as a whole; of any other value the items are next. -/
theorem IsValue.ignoreStart_append (h : IsValue value) (hfront : Blank front)
    (hrest : Delimited rest) : ignoreStart (front ++ (value ++ rest)) = .ok (none, rest) ∨
      ∃ bracket items text, Listed false items text ∧ (∀ item ∈ items, IsItem bracket item) ∧
        value.length = text.length + 2 ∧ ignoreStart (front ++ (value ++ rest)) =
          .ok (some bracket, text ++ bracket.closing :: rest) := by
  unfold ignoreStart
  cases h with
  | nullWord => exact .inl (bind_of_ok (peekPastBlanks_cons hfront rfl _))
  | trueWord => exact .inl (bind_of_ok (peekPastBlanks_cons hfront rfl _))
  | falseWord => exact .inl (bind_of_ok (peekPastBlanks_cons hfront rfl _))
  | unsigned h =>
    have hread := h.ignoreNumber_append hrest
    obtain ⟨d, s, rfl, hd⟩ := h.exists_cons
    refine .inl ((bind_of_ok (peekPastBlanks_cons hfront (isBlank_of_isDigit hd) _)).trans ?_)
    -- A digit is none of the characters that the reader looks for first.
    have hn : d ≠ 'n' := ne_of_isDigit hd rfl
    have ht : d ≠ 't' := ne_of_isDigit hd rfl
    have hf : d ≠ 'f' := ne_of_isDigit hd rfl
    have hminus : d ≠ '-' := ne_of_isDigit hd rfl
    have hquote : d ≠ '"' := ne_of_isDigit hd rfl
    have hlist : d ≠ '[' := ne_of_isDigit hd rfl
    have hobject : d ≠ '\x7b' := ne_of_isDigit hd rfl
    simp only [isDigit_eq, hd, if_true]
    exact bind_of_ok hread
  | negated h =>
    refine .inl ((bind_of_ok (peekPastBlanks_cons hfront rfl _)).trans ?_)
    exact (advance_bind _ _).trans (bind_of_ok (h.ignoreNumber_append hrest))
  | string h =>
    have hread := ignoreString_append h rest
    rw [List.cons_append, List.append_assoc]
    exact .inl ((bind_of_ok (peekPastBlanks_cons hfront rfl _)).trans (bind_of_ok hread))
  | @list items text hitems h =>
    refine .inr ⟨.list, items, text, h, fun item hitem ↦ .element (hitems item hitem), by simp, ?_⟩
    rw [List.cons_append, List.append_assoc]
    exact bind_of_ok (peekPastBlanks_cons hfront rfl _)
  | @object entries members text hvalues hmembers h =>
    refine .inr ⟨.object, members, text, h, fun member hmember ↦ ?_, by simp, ?_⟩
    · obtain ⟨entry, hentry, hmember⟩ := exists_entry hmembers hmember
      exact .member hmember (hvalues entry hentry)
    · rw [List.cons_append, List.append_assoc]
      exact bind_of_ok (peekPastBlanks_cons hfront rfl _)

/-! ## Brackets inside brackets -/

/-- Passes over a value inside these brackets, and over what is left of the brackets. -/
def ignoreFrom (fuel : Nat) (stack : List Bracket) : Reader Unit := do
  match ← ignoreStart with
  | none => ignoreInside fuel true stack
  | some inner => ignoreInside fuel false (inner :: stack)

/-- Passes over an item of the innermost bracket, and over what is left of the brackets. -/
def ignoreItem (fuel : Nat) (bracket : Bracket) (stack : List Bracket) : Reader Unit := do
  if bracket = .object then ignoreKey
  ignoreFrom fuel (bracket :: stack)

theorem ignoreInside_succ (fuel : Nat) (behindItem : Bool) (bracket : Bracket)
    (stack : List Bracket) : ignoreInside (fuel + 1) behindItem (bracket :: stack) = (do
      match ← ignoreSeparator bracket behindItem with
      | .closed => ignoreInside fuel true stack
      | .item => ignoreItem fuel bracket stack) :=
  rfl

/-- The item is passed over wherever it stands inside the bracket, for less fuel than it is
long. -/
def Passed (bracket : Bracket) (item : List Char) : Prop :=
  ∀ front rest stack, Blank front → Delimited rest → ∃ k < item.length, ∀ fuel,
    ignoreItem (fuel + k) bracket stack (front ++ (item ++ rest)) =
      ignoreInside fuel true (bracket :: stack) rest

/-- With its items a whole bracket is passed over. -/
theorem ignoreInside_listed (h : Listed behindItem items text)
    (hitems : ∀ item ∈ items, Opens item ∧ Passed bracket item) (stack : List Bracket)
    (rest : List Char) : ∃ k ≤ text.length + 1, ∀ fuel,
      ignoreInside (fuel + k) behindItem (bracket :: stack) (text ++ bracket.closing :: rest) =
        ignoreInside fuel true stack rest := by
  induction items generalizing behindItem text with
  | nil =>
    refine ⟨1, by omega, fun fuel ↦ ?_⟩
    rw [ignoreInside_succ]
    exact bind_of_ok (ignoreSeparator_closing h bracket rest)
  | cons item items ih =>
    obtain ⟨⟨hopens, hpassed⟩, hitems⟩ := List.forall_mem_cons.1 hitems
    obtain ⟨front, text', hfront, h', hlength, hread⟩ :=
      ignoreSeparator_item h hopens bracket (bracket.closing :: rest)
    obtain ⟨k, hk, hitem⟩ := hpassed front _ stack hfront (h'.delimited bracket rest)
    obtain ⟨l, hl, hrest⟩ := ih h' hitems
    refine ⟨l + k + 1, by omega, fun fuel ↦ ?_⟩
    rw [← hrest fuel, ← hitem (fuel + l), ← Nat.add_assoc, ← Nat.add_assoc, ignoreInside_succ]
    exact bind_of_ok hread

/-- A value is passed over if everything shorter is that may be an item of it. -/
theorem IsValue.ignoreFrom_append (h : IsValue value)
    (hshorter : ∀ bracket item, item.length < value.length → IsItem bracket item →
      Passed bracket item)
    (hfront : Blank front) (hrest : Delimited rest) (stack : List Bracket) :
    ∃ k < value.length, ∀ fuel, ignoreFrom (fuel + k) stack (front ++ (value ++ rest)) =
      ignoreInside fuel true stack rest := by
  obtain hread | ⟨bracket, items, text, hlisted, hitems, hlength, hread⟩ :=
    h.ignoreStart_append hfront hrest
  · obtain ⟨c, s, rfl, -⟩ := h.opens
    exact ⟨0, Nat.zero_lt_succ _, fun fuel ↦ bind_of_ok hread⟩
  · have hpassed : ∀ item ∈ items, Opens item ∧ Passed bracket item := by
      intro item hitem
      have hle := hlisted.length_le item hitem
      exact ⟨(hitems item hitem).opens, hshorter bracket item (by omega) (hitems item hitem)⟩
    obtain ⟨k, hk, hinside⟩ := ignoreInside_listed hlisted hpassed stack rest
    exact ⟨k, by omega, fun fuel ↦ (bind_of_ok hread).trans (hinside fuel)⟩

theorem IsItem.passed (h : IsItem bracket item) : Passed bracket item := by
  induction hn : item.length using Nat.strongRecOn generalizing bracket item with
  | ind n ih =>
    subst hn
    intro front rest stack hfront hrest
    cases h with
    | element h =>
      exact h.ignoreFrom_append (fun _ _ hlt hitem ↦ ih _ hlt hitem rfl) hfront hrest
        (.list :: stack)
    | member hmember h =>
      obtain ⟨before, hbefore, hlength, hkey⟩ := ignoreKey_append hmember hfront rest
      obtain ⟨k, hk, hread⟩ := h.ignoreFrom_append
        (fun _ _ hlt hitem ↦ ih _ (by omega) hitem rfl) hbefore hrest (.object :: stack)
      exact ⟨k, by omega, fun fuel ↦ (bind_of_ok hkey).trans (hread fuel)⟩

/-- A value of any nesting is passed over up to its end. -/
theorem IsValue.ignoreValue_append (h : IsValue value) (hfront : Blank front)
    (hrest : Delimited rest) : ignoreValue (front ++ (value ++ rest)) = .ok ((), rest) := by
  obtain hread | ⟨bracket, items, text, hlisted, hitems, -, hread⟩ :=
    h.ignoreStart_append hfront hrest
  · exact bind_of_ok hread
  · obtain ⟨k, hk, hinside⟩ := ignoreInside_listed hlisted
      (fun item hitem ↦ ⟨(hitems item hitem).opens, (hitems item hitem).passed⟩) [] rest
    have hfuel : (text ++ bracket.closing :: rest).length + 2 =
        text.length + rest.length + 2 - k + 1 + k := by
      simp only [List.length_append, List.length_cons]
      omega
    refine (bind_of_ok hread).trans ((bind_of_ok (m := get) rfl).trans ?_)
    rw [hfuel, hinside]
    rfl

end ScriptBridge.Json
