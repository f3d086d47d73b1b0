import ScriptBridge.Proofs.Config.Setting

/-!
# What a configuration document says

An object text is read entry by entry. What an entry contributes depends on its key and on the keys
before it: nothing if the key is no setting, the setting it names if that is new and the value is
one for it; otherwise the document is refused. Hence the document is read exactly if its entries are
proper, and what it says does not depend on their order. An array text gives the first settings in
their order.
-/

namespace ScriptBridge.Config

open Json Reader

/-! ## Settings of a configuration -/

/-- What a configuration has for a setting. -/
def setting (config : Config) : Field → Setting
  | .memoryLimit => .memoryLimit config.memoryLimit
  | .gcThreshold => .gcThreshold config.gcThreshold
  | .maxStackSize => .maxStackSize config.maxStackSize
  | .defaultFileName => .defaultFileName config.defaultFileName
  | .strict => .strict config.strict

theorem ext_setting {config config' : Config}
    (h : ∀ f, config.setting f = config'.setting f) : config = config' := by
  have hlimit := h .memoryLimit
  have hthreshold := h .gcThreshold
  have hstack := h .maxStackSize
  have hname := h .defaultFileName
  have hstrict := h .strict
  cases config
  cases config'
  simp_all [setting]

theorem setting_apply (config : Config) (σ : Setting) (f : Field) :
    (config.apply σ).setting f = if σ.field = f then σ else config.setting f := by
  cases σ <;> cases f <;> rfl

theorem setting_applyAll_of_notMem {settings : List Setting} {f : Field}
    (h : f ∉ settings.map (·.field)) (config : Config) :
    (config.applyAll settings).setting f = config.setting f := by
  induction settings generalizing config with
  | nil => rfl
  | cons σ settings ih =>
    rw [List.map_cons, List.mem_cons, not_or] at h
    rw [applyAll, List.foldl_cons, ← applyAll, ih h.2, setting_apply, if_neg (Ne.symm h.1)]

/-- Of settings that are all for different fields each is in force in the end. -/
theorem setting_applyAll_of_mem {settings : List Setting}
    (hnodup : (settings.map (·.field)).Nodup) {σ : Setting} (h : σ ∈ settings) (config : Config) :
    (config.applyAll settings).setting σ.field = σ := by
  induction settings generalizing config with
  | nil => cases h
  | cons first settings ih =>
    rw [List.map_cons, List.nodup_cons] at hnodup
    rw [applyAll, List.foldl_cons, ← applyAll]
    obtain rfl | h := List.mem_cons.1 h
    · rw [setting_applyAll_of_notMem hnodup.1, setting_apply, if_pos rfl]
    · exact ih hnodup.2 h _

namespace Document

variable {front rest text key value member : List Char} {fields : List Field}
  {entry : List Char × List Char} {entries : List (List Char × List Char)}
  {members : List (List Char)} {settings written : List Setting} {behindItem : Bool}

/-! ## Keys -/

/-- The text spells the key of the setting. -/
def Names (key : List Char) (f : Field) : Prop := Spelling key f.key.toList

theorem ofKey?_eq_some {s : String} {f : Field} (h : Field.ofKey? s = some f) : f.key = s := by
  have hfound := List.find?_some h
  simpa using hfound

/-- A key that spells something else names no setting. -/
theorem ofKey?_eq_none {chars : List Char} (hs : Spelling key chars)
    (hunknown : ∀ f, ¬ Names key f) : Field.ofKey? (String.ofList chars) = none := by
  cases hkey : Field.ofKey? (String.ofList chars) with
  | none => rfl
  | some f =>
    have hchars : f.key.toList = chars := by rw [ofKey?_eq_some hkey, String.toList_ofList]
    exact absurd (show Spelling key f.key.toList from hchars ▸ hs) (hunknown f)

theorem Names.ofKey?_eq {chars : List Char} {f : Field} (h : Names key f)
    (hs : Spelling key chars) : Field.ofKey? (String.ofList chars) = some f := by
  rw [hs.unique h, String.ofList_toList, Field.ofKey?_key]

/-- A text names one setting at most. -/
theorem Names.unique {f g : Field} (h : Names key f) (h' : Names key g) : f = g := by
  have hkey := h'.ofKey?_eq h
  rw [h.ofKey?_eq h] at hkey
  cases hkey
  rfl

/-! ## One entry -/

/-- What an entry contributes, if the settings `seen` have occurred before. -/
inductive Contributes (seen : List Field) : List Char × List Char → List Setting → Prop
  | nothing {key value chars : List Char} (hkey : Spelling key chars)
    (hunknown : ∀ f, ¬ Names key f) : Contributes seen (key, value) []
  | setting {key value : List Char} {σ : Setting} (hkey : Names key σ.field)
    (hnew : σ.field ∉ seen) (hvalue : Writes value σ) : Contributes seen (key, value) [σ]

theorem hasKey_closing (h : Listed behindItem [] text) (rest : List Char) :
    hasKey (!behindItem) (text ++ '\x7d' :: rest) = .ok (false, '\x7d' :: rest) := by
  cases h with
  | nil hblanks =>
    rw [hasKey, bind_of_ok (peekPastBlanks_cons hblanks rfl rest)]
    rfl

theorem hasKey_member {s : List Char} (h : Listed behindItem (('"' :: s) :: members) text)
    (rest : List Char) : ∃ text', Listed true members text' ∧
      hasKey (!behindItem) (text ++ rest) = .ok (true, '"' :: (s ++ (text' ++ rest))) := by
  unfold hasKey
  cases h with
  | @first _ text' front _ hfront h =>
    refine ⟨text', h, ?_⟩
    rw [List.append_assoc, List.append_assoc, List.cons_append,
      bind_of_ok (peekPastBlanks_cons hfront rfl _)]
    rfl
  | @next _ text' back front _ hback hfront h =>
    refine ⟨text', h, ?_⟩
    rw [List.append_assoc, List.cons_append, bind_of_ok (peekPastBlanks_cons hback rfl _),
      List.append_assoc, List.append_assoc]
    exact (advance_bind _ _).trans (bind_of_ok (peekPastBlanks_cons hfront (c := '"') rfl _))

theorem readColon_append (hfront : Blank front) (rest : List Char) :
    readColon (front ++ ':' :: rest) = .ok ((), rest) :=
  bind_of_ok (peekPastBlanks_cons hfront rfl rest)

theorem refuses_refuseDuplicate (f : Field) (s : List Char) : Refuses (refuseDuplicate f) s := by
  refine refuses_bind fun next left _ ↦ ?_
  split
  · exact refuses_bind fun _ _ _ ↦ refuses_fail _ _
  · exact refuses_fail _ _

theorem any_field_eq_false_iff {f : Field} :
    (settings.any fun σ ↦ σ.field == f) = false ↔ f ∉ settings.map (·.field) := by
  simp [List.any_eq_false, List.mem_map]

/-- An entry is read with what it contributes, and the next one follows. -/
theorem readFields_contributes {new : List Setting}
    (h : Listed behindItem (member :: members) text) (hmember : IsMember entry member)
    (hvalue : IsValue entry.2) (hnew : Contributes (settings.map (·.field)) entry new)
    (fuel : Nat) (rest : List Char) : ∃ text', Listed true members text' ∧
      readFields (fuel + 1) (!behindItem) settings (text ++ '\x7d' :: rest) =
        readFields fuel false (settings ++ new) (text' ++ '\x7d' :: rest) := by
  cases hmember with
  | mk _ hbehind hbefore =>
    obtain ⟨text', h', hread⟩ := hasKey_member h ('\x7d' :: rest)
    have hrest := h'.delimited .object rest
    refine ⟨text', h', ?_⟩
    simp only [List.append_assoc, List.cons_append] at hread
    refine (bind_of_ok hread).trans ?_
    cases hnew with
    | nothing hkey hunknown =>
      refine (bind_of_ok (string_append hkey _)).trans ?_
      rw [ofKey?_eq_none hkey hunknown, List.append_nil]
      refine (bind_of_ok (readColon_append hbehind _)).trans ?_
      exact bind_of_ok (hvalue.ignoreValue_append hbefore hrest)
    | setting hkey hfresh hwrites =>
      refine (bind_of_ok (string_append hkey _)).trans ?_
      rw [hkey.ofKey?_eq hkey]
      simp only [any_field_eq_false_iff.2 hfresh]
      refine (bind_of_ok (readColon_append hbehind _)).trans ?_
      exact bind_of_ok (hwrites.reads _ _ hbefore hrest)

/-- An entry that cannot contribute is refused: its key spells no string, or the setting occurred
before, or the value is none for it. -/
theorem refuses_readFields (h : Listed behindItem (member :: members) text)
    (hmember : IsMember entry member) (hvalue : IsValue entry.2)
    (hnone : ∀ new, ¬ Contributes (settings.map (·.field)) entry new) (fuel : Nat)
    (rest : List Char) :
    Refuses (readFields (fuel + 1) (!behindItem) settings) (text ++ '\x7d' :: rest) := by
  cases hmember with
  | @mk key value _ _ hquotable hbehind hbefore =>
    obtain ⟨text', h', hread⟩ := hasKey_member h ('\x7d' :: rest)
    have hrest := h'.delimited .object rest
    simp only [List.append_assoc, List.cons_append] at hread
    rw [Refuses, readFields, bind_of_ok hread, if_pos rfl]
    by_cases hspelled : ∃ chars, Spelling key chars
    · obtain ⟨chars, hkey⟩ := hspelled
      rw [bind_of_ok (string_append hkey _)]
      by_cases hknown : ∃ f, Names key f
      · obtain ⟨f, hname⟩ := hknown
        rw [hname.ofKey?_eq hkey]
        by_cases hfresh : f ∈ settings.map (·.field)
        · have hany : (settings.any fun σ ↦ σ.field == f) = true := by
            rw [← Bool.not_eq_false, any_field_eq_false_iff]
            exact fun hnot ↦ hnot hfresh
          simp only [hany, if_true]
          exact refuses_refuseDuplicate f _
        · have hrejects : Rejects (readSetting f) value := by
            refine rejects_readSetting hvalue fun σ hfield hwrites ↦ ?_
            subst hfield
            exact hnone _ (.setting hname hfresh hwrites)
          simp only [any_field_eq_false_iff.2 hfresh]
          obtain ⟨fault, hfault⟩ := hrejects _ _ hbefore hrest
          exact ⟨fault, (bind_of_ok (readColon_append hbehind _)).trans (bind_of_error hfault)⟩
      · exact absurd (.nothing hkey (not_exists.1 hknown)) (hnone [])
    · obtain ⟨fault, hfault⟩ := refuses_string hquotable (not_exists.1 hspelled) _
      exact ⟨fault, bind_of_error hfault⟩

/-! ## All entries -/

/-- What the entries contribute together. -/
inductive Collected : List Field → List (List Char × List Char) → List Setting → Prop
  | nil {seen : List Field} : Collected seen [] []
  | cons {seen : List Field} {entry : List Char × List Char}
    {entries : List (List Char × List Char)} {new written : List Setting}
    (hfirst : Contributes seen entry new)
    (h : Collected (seen ++ new.map (·.field)) entries written) :
    Collected seen (entry :: entries) (new ++ written)

theorem readFields_collected (settings : List Setting) (h : Listed behindItem members text)
    (hmembers : List.Forall₂ IsMember entries members)
    (hvalues : ∀ entry ∈ entries, IsValue entry.2)
    (hwritten : Collected (settings.map (·.field)) entries written) {fuel : Nat}
    (hfuel : entries.length < fuel) (rest : List Char) :
    readFields fuel (!behindItem) settings (text ++ '\x7d' :: rest) =
      .ok (settings ++ written, '\x7d' :: rest) := by
  obtain _ | fuel := fuel
  · cases hfuel
  induction hmembers generalizing behindItem text settings written fuel with
  | nil =>
    cases hwritten
    refine (bind_of_ok (hasKey_closing h rest)).trans ?_
    rw [List.append_nil]
    rfl
  | cons hmember _ ih =>
    obtain ⟨hvalue, hvalues⟩ := List.forall_mem_cons.1 hvalues
    cases hwritten with
    | @cons _ _ _ new written hfirst hwritten =>
      obtain ⟨text', h', hread⟩ := readFields_contributes h hmember hvalue hfirst fuel rest
      rw [← List.map_append] at hwritten
      obtain _ | fuel := fuel
      · simp at hfuel
      · rw [hread, ← List.append_assoc]
        exact ih _ h' hvalues hwritten fuel (by simpa using hfuel)

theorem refuses_readFields_uncollected (settings : List Setting)
    (h : Listed behindItem members text)
    (hmembers : List.Forall₂ IsMember entries members)
    (hvalues : ∀ entry ∈ entries, IsValue entry.2)
    (hnone : ∀ written, ¬ Collected (settings.map (·.field)) entries written) {fuel : Nat}
    (hfuel : entries.length < fuel) (rest : List Char) :
    Refuses (readFields fuel (!behindItem) settings) (text ++ '\x7d' :: rest) := by
  obtain _ | fuel := fuel
  · cases hfuel
  induction hmembers generalizing behindItem text settings fuel with
  | nil => exact absurd .nil (hnone [])
  | @cons entry _ _ _ hmember _ ih =>
    obtain ⟨hvalue, hvalues⟩ := List.forall_mem_cons.1 hvalues
    by_cases hfirst : ∃ new, Contributes (settings.map (·.field)) entry new
    · obtain ⟨new, hfirst⟩ := hfirst
      obtain ⟨text', h', hread⟩ := readFields_contributes h hmember hvalue hfirst fuel rest
      obtain _ | fuel := fuel
      · simp at hfuel
      · rw [Refuses, hread]
        refine ih _ h' hvalues (fun written hwritten ↦ hnone (new ++ written) (.cons hfirst ?_))
          fuel (by simpa using hfuel)
        rwa [← List.map_append]
    · exact refuses_readFields h hmember hvalue (not_exists.1 hfirst) fuel rest

/-- Every key spells a string, no setting is named by two entries, and whatever is named has a value
that is one for it. -/
structure Proper (entries : List (List Char × List Char)) : Prop where
  spelled : ∀ entry ∈ entries, ∃ chars, Spelling entry.1 chars
  distinct : entries.Pairwise fun entry entry' ↦ ∀ f, ¬ (Names entry.1 f ∧ Names entry'.1 f)
  fitting : ∀ entry ∈ entries, ∀ f, Names entry.1 f → ∃ σ : Setting, σ.field = f ∧ Writes entry.2 σ

theorem proper_nil : Proper [] :=
  ⟨nofun, .nil, nofun⟩

theorem proper_cons_iff : Proper (entry :: entries) ↔
    Proper entries ∧ (∃ chars, Spelling entry.1 chars) ∧
      (∀ entry' ∈ entries, ∀ f, ¬ (Names entry.1 f ∧ Names entry'.1 f)) ∧
      ∀ f, Names entry.1 f → ∃ σ : Setting, σ.field = f ∧ Writes entry.2 σ := by
  constructor
  · rintro ⟨hspelled, hdistinct, hfitting⟩
    rw [List.forall_mem_cons] at hspelled hfitting
    rw [List.pairwise_cons] at hdistinct
    exact ⟨⟨hspelled.2, hdistinct.2, hfitting.2⟩, hspelled.1, hdistinct.1, hfitting.1⟩
  · rintro ⟨⟨hspelled, hdistinct, hfitting⟩, hkey, hfirst, hvalue⟩
    exact ⟨List.forall_mem_cons.2 ⟨hkey, hspelled⟩, List.pairwise_cons.2 ⟨hfirst, hdistinct⟩,
      List.forall_mem_cons.2 ⟨hvalue, hfitting⟩⟩

/-- Proper entries are all collected, unless a setting of theirs occurred before. -/
theorem Proper.collected (h : Proper entries) {seen : List Field}
    (hfresh : ∀ entry ∈ entries, ∀ f ∈ seen, ¬ Names entry.1 f) :
    ∃ written, Collected seen entries written := by
  induction entries generalizing seen with
  | nil => exact ⟨[], .nil⟩
  | cons entry entries ih =>
    obtain ⟨h, ⟨chars, hkey⟩, hfirst, hvalue⟩ := proper_cons_iff.1 h
    obtain ⟨hnew, hfresh⟩ := List.forall_mem_cons.1 hfresh
    by_cases hknown : ∃ f, Names entry.1 f
    · obtain ⟨f, hname⟩ := hknown
      obtain ⟨σ, rfl, hwrites⟩ := hvalue f hname
      have hnext : ∀ entry' ∈ entries, ∀ g ∈ seen ++ [σ.field], ¬ Names entry'.1 g := by
        intro entry' hentry' g hg hname'
        obtain hg | hg := List.mem_append.1 hg
        · exact hfresh entry' hentry' g hg hname'
        · rw [List.mem_singleton.1 hg] at hname'
          exact hfirst entry' hentry' σ.field ⟨hname, hname'⟩
      obtain ⟨written, hwritten⟩ := ih h hnext
      exact ⟨_, .cons (.setting hname (fun hmem ↦ hnew _ hmem hname) hwrites) hwritten⟩
    · have hnext : ∀ entry' ∈ entries, ∀ g ∈ seen ++ [], ¬ Names entry'.1 g := by
        simpa using hfresh
      obtain ⟨written, hwritten⟩ := ih h hnext
      exact ⟨_, .cons (.nothing hkey (not_exists.1 hknown)) hwritten⟩

/-- What can be collected is proper, and names nothing that occurred before. -/
theorem Collected.proper {seen : List Field} (h : Collected seen entries written) :
    Proper entries ∧ ∀ entry ∈ entries, ∀ f ∈ seen, ¬ Names entry.1 f := by
  induction h with
  | nil => exact ⟨proper_nil, nofun⟩
  | @cons seen entry entries new written hfirst _ ih =>
    obtain ⟨hproper, hfresh⟩ := ih
    have hrest : ∀ entry' ∈ entries, ∀ f ∈ seen, ¬ Names entry'.1 f := fun entry' hentry' f hf ↦
      hfresh entry' hentry' f (List.mem_append_left _ hf)
    cases hfirst with
    | nothing hkey hunknown =>
      exact ⟨proper_cons_iff.2 ⟨hproper, ⟨_, hkey⟩, fun _ _ f hf ↦ hunknown f hf.1,
        fun f hf ↦ absurd hf (hunknown f)⟩,
        List.forall_mem_cons.2 ⟨fun f _ ↦ hunknown f, hrest⟩⟩
    | @setting _ _ σ hkey hnew hvalue =>
      refine ⟨proper_cons_iff.2 ⟨hproper, ⟨_, hkey⟩, fun entry' hentry' f hf ↦ ?_, fun f hf ↦
        ⟨σ, hkey.unique hf, hvalue⟩⟩, List.forall_mem_cons.2 ⟨fun f hf hname ↦ ?_, hrest⟩⟩
      · refine hfresh entry' hentry' σ.field (by simp) ?_
        rw [hkey.unique hf.1]
        exact hf.2
      · rw [hname.unique hkey] at hf
        exact hnew hf

/-- What is collected are the settings that the entries name, with their values. -/
theorem Collected.mem_iff {seen : List Field} (h : Collected seen entries written) (σ : Setting) :
    σ ∈ written ↔ ∃ entry ∈ entries, Names entry.1 σ.field ∧ Writes entry.2 σ := by
  induction h with
  | nil => simp
  | cons hfirst _ ih =>
    simp only [List.mem_append, ih, List.mem_cons, or_and_right, exists_or, exists_eq_left]
    refine or_congr_left ?_
    cases hfirst with
    | nothing _ hunknown =>
      exact ⟨nofun, fun h ↦ absurd h.1 (hunknown _)⟩
    | @setting _ _ σ' hkey _ hvalue =>
      rw [List.mem_singleton]
      constructor
      · rintro rfl
        exact ⟨hkey, hvalue⟩
      · rintro ⟨hname, hwrites⟩
        exact hwrites.unique hvalue (hname.unique hkey)

theorem Collected.nodup {seen : List Field} (h : Collected seen entries written) :
    (written.map (·.field)).Nodup := by
  induction h with
  | nil => exact .nil
  | @cons seen entry entries new written hfirst h ih =>
    rw [List.map_append]
    refine List.nodup_append.2 ⟨?_, ih, ?_⟩
    · cases hfirst <;> simp
    · rintro f hf _ hf' rfl
      obtain ⟨σ, hσ, rfl⟩ := List.mem_map.1 hf'
      obtain ⟨entry, hentry, hname, -⟩ := (h.mem_iff σ).1 hσ
      exact h.proper.2 entry hentry σ.field (List.mem_append_right _ hf) hname

/-! ## Objects -/

theorem finish_of_blank (h : Blank rest) (settings : List Setting) :
    readDocument.finish settings rest = .ok (settings, []) :=
  bind_of_ok (peekPastBlanks_nil h)

theorem closeObject_append (rest : List Char) : closeObject ('\x7d' :: rest) = .ok ((), rest) :=
  bind_of_ok (peekPastBlanks_here rfl rest)

/-- The reader sets out with more fuel than there are entries. -/
theorem length_entries_lt (hmembers : List.Forall₂ IsMember entries members)
    (h : Listed behindItem members text) (rest : List Char) :
    entries.length < (text ++ rest).length + 1 := by
  have hlength := h.length_le_length fun member hmember ↦ by
    obtain ⟨entry, -, hmember⟩ := exists_entry hmembers hmember
    exact hmember.opens
  have hsame := hmembers.length_eq
  simp only [List.length_append]
  omega

theorem readDocument_object (h : ObjectText entries text)
    (hwritten : Collected [] entries written) : readDocument text = .ok (written, []) := by
  obtain ⟨hvalues, members, inner, hmembers, hlisted, front, back, hfront, hback, rfl⟩ := h
  have hfuel := length_entries_lt hmembers hlisted ('\x7d' :: back)
  have hread : readFields ((inner ++ '\x7d' :: back).length + 1) true []
      (inner ++ '\x7d' :: back) = .ok (written, '\x7d' :: back) :=
    readFields_collected [] hlisted hmembers hvalues hwritten hfuel back
  rw [List.cons_append, List.append_assoc]
  refine (bind_of_ok (peekPastBlanks_cons hfront rfl _)).trans ?_
  refine (advance_bind _ _).trans ((bind_of_ok (m := get) rfl).trans ?_)
  exact (bind_of_ok hread).trans
    ((bind_of_ok (closeObject_append back)).trans (finish_of_blank hback _))

theorem refuses_readDocument (h : ObjectText entries text)
    (hnone : ∀ written, ¬ Collected [] entries written) : Refuses readDocument text := by
  obtain ⟨hvalues, members, inner, hmembers, hlisted, front, back, hfront, hback, rfl⟩ := h
  have hfuel := length_entries_lt hmembers hlisted ('\x7d' :: back)
  obtain ⟨fault, hfault⟩ : Refuses (readFields ((inner ++ '\x7d' :: back).length + 1) true [])
      (inner ++ '\x7d' :: back) :=
    refuses_readFields_uncollected [] hlisted hmembers hvalues hnone hfuel back
  refine ⟨fault, ?_⟩
  rw [List.cons_append, List.append_assoc]
  refine (bind_of_ok (peekPastBlanks_cons hfront rfl _)).trans ?_
  exact (advance_bind _ _).trans ((bind_of_ok (m := get) rfl).trans (bind_of_error hfault))

/-! ## Arrays -/

theorem hasElement_closing (h : Listed behindItem [] text) (rest : List Char) :
    hasElement (!behindItem) (text ++ ']' :: rest) = .ok (false, ']' :: rest) := by
  cases h with
  | nil hblanks =>
    rw [hasElement, bind_of_ok (peekPastBlanks_cons hblanks rfl rest)]
    rfl

theorem hasElement_item {item : List Char} {items : List (List Char)}
    (h : Listed behindItem (item :: items) text) (hitem : Opens item) (rest : List Char) :
    ∃ text', Listed true items text' ∧
      hasElement (!behindItem) (text ++ rest) = .ok (true, item ++ (text' ++ rest)) := by
  unfold hasElement
  obtain ⟨c, s, rfl, hc, -, hlist, -⟩ := hitem
  cases h with
  | @first _ text' front _ hfront h =>
    refine ⟨text', h, ?_⟩
    rw [List.append_assoc, List.append_assoc, List.cons_append,
      bind_of_ok (peekPastBlanks_cons hfront hc _)]
    simp only
    rfl
  | @next _ text' back front _ hback hfront h =>
    refine ⟨text', h, ?_⟩
    rw [List.append_assoc, List.cons_append, bind_of_ok (peekPastBlanks_cons hback rfl _),
      List.append_assoc, List.append_assoc, List.cons_append]
    refine (advance_bind _ _).trans ((bind_of_ok (peekPastBlanks_cons hfront hc _)).trans ?_)
    simp only
    rfl

theorem closeList_append (h : Blank front) (rest : List Char) :
    closeList (front ++ ']' :: rest) = .ok ((), rest) :=
  bind_of_ok (peekPastBlanks_cons h rfl rest)

/-- Elements that are values for the next settings are read, and the closing bracket comes next. -/
theorem readElements_listed (settings : List Setting) {elements : List (List Char)}
    (h : Listed behindItem elements text) (hvalues : ∀ element ∈ elements, IsValue element)
    (hwritten : List.Forall₂ Writes elements written)
    (hfields : written.map (·.field) <+: fields) (rest : List Char) :
    ∃ left, readElements fields (!behindItem) settings (text ++ ']' :: rest) =
      .ok (settings ++ written, left) ∧ closeList left = .ok ((), rest) := by
  induction hwritten generalizing behindItem text settings fields with
  | nil =>
    rw [List.append_nil]
    cases fields with
    | nil =>
      cases h with
      | nil hblanks => exact ⟨_, rfl, closeList_append hblanks rest⟩
    | cons f fields =>
      exact ⟨_, bind_of_ok (hasElement_closing h rest),
        closeList_append (show Blank [] from nofun) rest⟩
  | @cons element σ elements written hwrites _ ih =>
    obtain ⟨hvalue, hvalues⟩ := List.forall_mem_cons.1 hvalues
    obtain ⟨fields, rfl⟩ := hfields
    obtain ⟨text', h', hread⟩ := hasElement_item h hvalue.opens (']' :: rest)
    obtain ⟨left, helements, hclose⟩ :=
      ih (settings ++ [σ]) h' hvalues (List.prefix_append _ fields)
    refine ⟨left, ?_, hclose⟩
    refine (bind_of_ok hread).trans ?_
    refine (bind_of_ok (hwrites.reads [] _ nofun (h'.delimited .list rest))).trans ?_
    rw [List.append_assoc] at helements
    exact helements

theorem readDocument_array {elements : List (List Char)} (h : ArrayText elements text)
    (hwritten : List.Forall₂ Writes elements written)
    (hfields : written.map (·.field) <+: Field.all) : readDocument text = .ok (written, []) := by
  obtain ⟨hvalues, inner, hlisted, front, back, hfront, hback, rfl⟩ := h
  rw [List.cons_append, List.append_assoc]
  obtain ⟨left, hread, hclose⟩ := readElements_listed [] hlisted hvalues hwritten hfields back
  refine (bind_of_ok (peekPastBlanks_cons hfront rfl _)).trans ?_
  refine (advance_bind _ _).trans ((bind_of_ok hread).trans ?_)
  exact (bind_of_ok hclose).trans (finish_of_blank hback _)

/-! ## What a document says -/

/-- The configuration that the entries ask for: what one of them names is as it is written there,
the rest is as nobody changed it. -/
structure Replaced (entries : List (List Char × List Char)) (config : Config) : Prop where
  written : ∀ entry ∈ entries, ∀ σ : Setting, Names entry.1 σ.field → Writes entry.2 σ →
    config.setting σ.field = σ
  unwritten : ∀ f, (∀ entry ∈ entries, ¬ Names entry.1 f) →
    config.setting f = Config.default.setting f

theorem Collected.replaced (h : Collected [] entries written) :
    Replaced entries (Config.default.applyAll written) where
  written entry hentry σ hname hwrites :=
    setting_applyAll_of_mem h.nodup ((h.mem_iff σ).2 ⟨entry, hentry, hname, hwrites⟩) _
  unwritten f hnone := by
    refine setting_applyAll_of_notMem (fun hf ↦ ?_) _
    obtain ⟨σ, hσ, rfl⟩ := List.mem_map.1 hf
    obtain ⟨entry, hentry, hname, -⟩ := (h.mem_iff σ).1 hσ
    exact hnone entry hentry hname

/-- Proper entries ask for one configuration only. -/
theorem Replaced.unique {config config' : Config} (hproper : Proper entries)
    (h : Replaced entries config) (h' : Replaced entries config') : config = config' := by
  refine ext_setting fun f ↦ ?_
  by_cases hnamed : ∃ entry ∈ entries, Names entry.1 f
  · obtain ⟨entry, hentry, hname⟩ := hnamed
    obtain ⟨σ, rfl, hwrites⟩ := hproper.fitting entry hentry f hname
    rw [h.written entry hentry σ hname hwrites, h'.written entry hentry σ hname hwrites]
  · have hnone : ∀ entry ∈ entries, ¬ Names entry.1 f := fun entry hentry hname ↦
      hnamed ⟨entry, hentry, hname⟩
    rw [h.unwritten f hnone, h'.unwritten f hnone]

/-- The order of the entries is irrelevant for what they ask for. -/
theorem Replaced.perm {entries' : List (List Char × List Char)} {config : Config}
    (h : Replaced entries config) (hperm : entries'.Perm entries) : Replaced entries' config where
  written entry hentry := h.written entry (hperm.mem_iff.1 hentry)
  unwritten f hnone := h.unwritten f fun entry hentry ↦ hnone entry (hperm.mem_iff.2 hentry)

theorem Proper.perm {entries' : List (List Char × List Char)} (h : Proper entries)
    (hperm : entries'.Perm entries) : Proper entries' where
  spelled entry hentry := h.spelled entry (hperm.mem_iff.1 hentry)
  distinct := (hperm.pairwise_iff fun hxy f hf ↦ hxy f hf.symm).2 h.distinct
  fitting entry hentry := h.fitting entry (hperm.mem_iff.1 hentry)

end Document

open Document

theorem ofJson_of_readDocument {text : String} {settings : List Setting} {left : List Char}
    (h : readDocument text.toList = .ok (settings, left)) :
    ofJson text = .ok (Config.default.applyAll settings) := by
  rw [ofJson, h]

theorem ofJson_object {entries : List (List Char × List Char)} {text : String}
    (h : ObjectText entries text.toList) (hproper : Proper entries) :
    ∃ config, ofJson text = .ok config ∧ Replaced entries config := by
  have hfresh : ∀ entry ∈ entries, ∀ f ∈ [], ¬ Names entry.1 f := nofun
  obtain ⟨written, hwritten⟩ := hproper.collected hfresh
  exact ⟨_, ofJson_of_readDocument (readDocument_object h hwritten), hwritten.replaced⟩

theorem ofJson_refuses {entries : List (List Char × List Char)} {text : String}
    (h : ObjectText entries text.toList) (himproper : ¬ Proper entries) :
    ∃ refusal, ofJson text = .error refusal := by
  obtain ⟨fault, hfault⟩ :=
    refuses_readDocument h fun _ hwritten ↦ himproper hwritten.proper.1
  exact ⟨_, by rw [ofJson, hfault]⟩

/-- A document overrides exactly what it names. If the text is an object whose keys name different
settings, each with a value for it, next to whatever else is no setting, then the configuration is
the default with these settings replaced, in whatever order the entries are and however they are
written; if a setting is named twice or has no value for it, the document is refused. If the text is
an array of values for the first settings, these are replaced. -/
theorem ofJson_overrides (text : String) :
    (∀ entries, ObjectText entries text.toList →
      (Proper entries → ∃ config, ofJson text = .ok config ∧ Replaced entries config ∧
        ∀ entries' text', entries'.Perm entries → ObjectText entries' text'.toList →
          ofJson text' = .ok config) ∧
      (¬ Proper entries → ∃ refusal, ofJson text = .error refusal)) ∧
    ∀ elements settings, ArrayText elements text.toList → List.Forall₂ Writes elements settings →
      settings.map (·.field) <+: Field.all →
      ∃ config, ofJson text = .ok config ∧ (∀ σ ∈ settings, config.setting σ.field = σ) ∧
        ∀ f, f ∉ settings.map (·.field) → config.setting f = Config.default.setting f := by
  refine ⟨fun entries h ↦ ⟨fun hproper ↦ ?_, ofJson_refuses h⟩,
    fun elements settings h hwrites hfields ↦ ?_⟩
  · obtain ⟨config, hread, hreplaced⟩ := ofJson_object h hproper
    refine ⟨config, hread, hreplaced, fun entries' text' hperm h' ↦ ?_⟩
    obtain ⟨config', hread', hreplaced'⟩ := ofJson_object h' (hproper.perm hperm)
    rw [hread', (hreplaced'.unique (hproper.perm hperm) (hreplaced.perm hperm))]
  · have hnodup : (settings.map (·.field)).Nodup :=
      hfields.sublist.nodup (by decide)
    exact ⟨_, ofJson_of_readDocument (readDocument_array h hwrites hfields),
      fun σ hσ ↦ setting_applyAll_of_mem hnodup hσ _,
      fun f hf ↦ setting_applyAll_of_notMem hf _⟩

/-- The key of a setting is written with an escape, next to a key that is none. -/
theorem ofJson_overrides_escaped :
    ofJson " \x7b\"\\u0073trict\" : true, \"x\":[null, \x7b\x7d]\x7d" =
      .ok { Config.default with strict := true } := by
  have hnothing : Blank [] := nofun
  have hspace : Blank " ".toList := by decide +kernel
  have hkey : Names "\\u0073trict".toList .strict := by
    have hdigit : ∀ n < 10, IsHexDigit (Nat.digitChar n) n := fun n hn ↦ ⟨by omega, .inl rfl⟩
    have hescape : UnitEscape "\\u0073".toList 0x73 :=
      .mk (hdigit 0 (by decide)) (hdigit 0 (by decide)) (hdigit 7 (by decide))
        (hdigit 3 (by decide)) rfl
    have hrest : Spelling "trict".toList "trict".toList := spelling_of_isPlain (by simp [IsPlain])
    exact .units (c := 's') (.cons hescape .nil) hrest
  have hother : Spelling "x".toList "x".toList := spelling_of_isPlain (by simp [IsPlain])
  have hunknown : ∀ f, ¬ Names "x".toList f := by
    intro f hname
    have hchars := hother.unique hname
    revert hchars
    cases f <;> decide
  have hlist : IsValue "[null, \x7b\x7d]".toList := by
    have hnone : ∀ entry ∈ ([] : List (List Char × List Char)), IsValue entry.2 := nofun
    have hobject : IsValue "\x7b\x7d".toList := .object hnone .nil (.nil hnothing)
    have hitems : ∀ item ∈ ["null".toList, "\x7b\x7d".toList], IsValue item :=
      List.forall_mem_cons.2 ⟨.nullWord, List.forall_mem_singleton.2 hobject⟩
    exact .list hitems (.first hnothing (.next hnothing hspace (.nil hnothing)))
  have hmembers : List.Forall₂ IsMember [("\\u0073trict".toList, "true".toList),
      ("x".toList, "[null, \x7b\x7d]".toList)]
      ["\"\\u0073trict\" : true".toList, "\"x\":[null, \x7b\x7d]".toList] :=
    .cons (.mk hkey.quotable hspace hspace) (.cons (.mk hother.quotable hnothing hnothing) .nil)
  have htext : ObjectText [("\\u0073trict".toList, "true".toList),
      ("x".toList, "[null, \x7b\x7d]".toList)]
      " \x7b\"\\u0073trict\" : true, \"x\":[null, \x7b\x7d]\x7d".toList :=
    ⟨List.forall_mem_cons.2 ⟨.trueWord, List.forall_mem_singleton.2 hlist⟩, _, _, hmembers,
      .first hnothing (.next hnothing hspace (.nil hnothing)), " ".toList, [], hspace, hnothing,
      by decide⟩
  have hproper : Proper [("\\u0073trict".toList, "true".toList),
      ("x".toList, "[null, \x7b\x7d]".toList)] :=
    ⟨List.forall_mem_cons.2 ⟨⟨_, hkey⟩, List.forall_mem_singleton.2 ⟨_, hother⟩⟩,
      List.pairwise_pair.2 fun f hf ↦ hunknown f hf.2,
      List.forall_mem_cons.2 ⟨fun f hf ↦ ⟨.strict true, hkey.unique hf, .strict⟩,
        List.forall_mem_singleton.2 fun f hf ↦ absurd hf (hunknown f)⟩⟩
  obtain ⟨config, hread, hreplaced, -⟩ := ((ofJson_overrides _).1 _ htext).1 hproper
  rw [hread, Except.ok.injEq]
  refine ext_setting fun f ↦ ?_
  have hunwritten : f ≠ .strict → config.setting f = Config.default.setting f := fun hf ↦
    hreplaced.unwritten f (List.forall_mem_cons.2 ⟨fun hname ↦ hf (hname.unique hkey),
      List.forall_mem_singleton.2 (hunknown f)⟩)
  cases f with
  | strict => exact hreplaced.written _ (List.mem_cons_self ..) (.strict true) hkey .strict
  | _ => exact hunwritten (by decide)

end ScriptBridge.Config
