import ScriptBridge.Proofs.Script.Safe

/-!
# Edits of objects

An edit changes an object without making it a carrier or a carrier something else. It refers to
nothing new but what it is said to, and the property of carriers it changes only if that has been
named. Reading goes the other way: what is found under a key is shown by the object, unless the key
is that of carriers.
-/

namespace ScriptBridge.Script

open Machine

variable {t : Prop} {pins : List Datum} {needs ids more : List ObjectId} {id : ObjectId}
  {key : String} {o : Object} {p : Property} {f g : Object → Object}

/-! ## References of new values -/

/-- What can be wrapped is no object. -/
theorem Datum.references_of_primitiveType? {type : PrimitiveType}
    {d : Datum} (h : d.primitiveType? = some type) : d.references = [] := by
  cases d with
  | object id => cases h
  | _ => rfl

section

variable {x : Float}

@[simp, grind =]
theorem Datum.references_object : (Datum.object id).references = [id] := rfl

@[simp, grind =]
theorem Datum.references_undefined : Datum.undefined.references = [] := rfl

@[simp, grind =]
theorem Datum.references_null : Datum.null.references = [] := rfl

@[simp, grind =]
theorem Datum.references_boolean {b : Bool} : (Datum.boolean b).references = [] := rfl

@[simp, grind =]
theorem Datum.references_integer {n : Int32} : (Datum.integer n).references = [] := rfl

@[simp, grind =]
theorem Datum.references_double : (Datum.double x).references = [] := rfl

@[simp, grind =]
theorem Datum.references_string {units : Text.Units} : (Datum.string units).references = [] := rfl

@[simp, grind =]
theorem Datum.references_symbol {number : Nat} {description : Option Text.Units} :
    (Datum.symbol number description).references = [] :=
  rfl

@[simp, grind =]
theorem Datum.references_bigint {n : Int} : (Datum.bigint n).references = [] := rfl

@[simp, grind =]
theorem Content.references_data {d : Datum} : (Content.data d).references = d.references := rfl

@[simp, grind =]
theorem Content.references_accessor {getter setter : Option ObjectId} :
    (Content.accessor getter setter).references = getter.toList ++ setter.toList :=
  rfl

@[simp, grind =]
theorem Content.references_deferred : Content.deferred.references = [] := rfl

end

@[simp, grind =]
theorem Datum.references_ofFloat (x : Float) : (Datum.ofFloat x).references = [] := by
  unfold Datum.ofFloat
  split <;> rfl

@[simp, grind =]
theorem Datum.references_natural (n : Nat) : (Datum.natural n).references = [] :=
  references_ofFloat _

@[simp, grind =]
theorem Datum.references_ofInt (n : Int) : (Datum.ofInt n).references = [] := references_ofFloat _

@[simp, grind =]
theorem Datum.references_literal (x : Float) : (Datum.literal x).references = [] := by
  unfold Datum.literal
  split
  · rfl
  · exact references_ofFloat x

@[simp, grind =]
theorem Datum.references_text (s : String) : (Datum.text s).references = [] := rfl

/-- A unit of a text is a text. -/
theorem references_unitOf? {units : Text.Units} {unit : Datum}
    (h : Interp.unitOf? units key = some unit) : unit.references = [] := by
  unfold Interp.unitOf? at h
  split at h
  · cases h
    exact Datum.references_natural _
  · obtain ⟨n, -, rfl⟩ := Option.map_eq_some_iff.mp h
    rfl

namespace Object

/-! ## Entries -/

theorem mem_putEntry {entry : String × Property} {entries : List (String × Property)}
    (h : entry ∈ putEntry key p entries) : entry = (key, p) ∨ entry ∈ entries := by
  induction entries with
  | nil => exact .inl (List.mem_singleton.mp h)
  | cons first entries ih =>
    obtain ⟨k, q⟩ := first
    rw [putEntry] at h
    split at h
    · next hk =>
      subst hk
      exact (List.mem_cons.mp h).imp_right (List.mem_cons_of_mem _)
    · rcases List.mem_cons.mp h with rfl | h
      · exact .inr (List.mem_cons_self ..)
      · exact (ih h).imp_right (List.mem_cons_of_mem _)

theorem contentsAt_putEntry {other : String} (h : key ≠ other)
    (entries : List (String × Property)) :
    contentsAt other (putEntry key p entries) = contentsAt other entries := by
  induction entries with
  | nil => simp [putEntry, contentsAt, h]
  | cons first entries ih =>
    obtain ⟨k, q⟩ := first
    by_cases hk : k = key
    · simp [putEntry, contentsAt, hk, h]
    · simp [putEntry, contentsAt, hk, ih]

theorem mem_of_own? (h : o.own? key = some p) : (key, p) ∈ o.properties := by
  rw [own?, List.lookup_eq_some_iff] at h
  obtain ⟨before, after, hsplit, -⟩ := h
  rw [hsplit]
  simp

/-- The objects that the property of a key refers to. -/
def refsAt (o : Object) (key : String) : List ObjectId :=
  ((o.own? key).map fun p ↦ p.content.references).getD []

theorem refsAt_eq (h : o.own? key = some p) : o.refsAt key = p.content.references := by
  rw [refsAt, h, Option.map_some, Option.getD_some]

theorem mem_references_of_refsAt (h : id ∈ o.refsAt key) : id ∈ o.references := by
  cases hown : o.own? key with
  | none => simp [refsAt, hown] at h
  | some p =>
    rw [refsAt_eq hown] at h
    exact mem_references.mpr (.inr (.inr ⟨_, mem_of_own? hown, h⟩))

/-- A function shows what it is made of. -/
theorem mem_shown_of_callable? {callable : Callable} (h : o.callable? = some callable)
    (hid : id ∈ (Kind.function callable).references) : id ∈ o.shown := by
  unfold callable? at h
  split at h
  · next hkind =>
    cases h
    exact mem_shown.mpr (.inr (.inl (hkind ▸ hid)))
  · cases h

theorem mem_shown_of_refsAt (hkey : key ≠ payloadKey) (h : id ∈ o.refsAt key) : id ∈ o.shown := by
  cases hown : o.own? key with
  | none => simp [refsAt, hown] at h
  | some p =>
    rw [refsAt_eq hown] at h
    exact mem_shown.mpr (.inr (.inr ⟨_, mem_of_own? hown, hkey, h⟩))

/-! ## Edits -/

/-- What a change of objects does. -/
structure Edit (t : Prop) (ids : List ObjectId) (f : Object → Object) : Prop where
  payload? : ∀ o, (f o).payload? = o.payload?
  native? : ∀ o, (f o).native? = o.native?
  references : ∀ {o id}, id ∈ (f o).references → id ∈ o.references ∨ id ∈ ids
  shown : ∀ {o id}, id ∈ (f o).shown → id ∈ o.shown ∨ id ∈ ids
  hidden : t ∨ ∀ o, (f o).hidden = o.hidden

namespace Edit

theorem comp (hg : Edit t more g) (hf : Edit t ids f) : Edit t (ids ++ more) fun o ↦ g (f o) where
  payload? o := (hg.payload? (f o)).trans (hf.payload? o)
  native? o := (hg.native? (f o)).trans (hf.native? o)
  references h := by
    rcases hg.references h with h | h
    · exact (hf.references h).imp_right (List.mem_append_left _)
    · exact .inr (List.mem_append_right _ h)
  shown h := by
    rcases hg.shown h with h | h
    · exact (hf.shown h).imp_right (List.mem_append_left _)
    · exact .inr (List.mem_append_right _ h)
  hidden := by
    rcases hg.hidden with h | hsame
    · exact .inl h
    · exact hf.hidden.imp_right fun h o ↦ (hsame (f o)).trans (h o)

/-- A change of the list of properties, entry by entry. -/
theorem of_properties {g : List (String × Property) → List (String × Property)}
    (hmem : ∀ {l : List (String × Property)} {entry}, entry ∈ g l →
      (∃ old ∈ l, old.1 = entry.1 ∧
        ∀ id ∈ entry.2.content.references, id ∈ old.2.content.references) ∨
      ∀ id ∈ entry.2.content.references, id ∈ ids)
    (hhidden : t ∨ ∀ l, contentsAt payloadKey (g l) = contentsAt payloadKey l) :
    Edit t ids fun o ↦ { o with properties := g o.properties } where
  payload? _ := rfl
  native? _ := rfl
  references {o id} h := by
    rcases mem_references.mp h with h | h | ⟨entry, hentry, hid⟩
    · exact .inl (mem_references.mpr (.inl h))
    · exact .inl (mem_references.mpr (.inr (.inl h)))
    · rcases hmem hentry with ⟨old, hold, -, hrefs⟩ | hrefs
      · exact .inl (mem_references.mpr (.inr (.inr ⟨old, hold, hrefs id hid⟩)))
      · exact .inr (hrefs id hid)
  shown {o id} h := by
    rcases mem_shown.mp h with h | h | ⟨entry, hentry, hkey, hid⟩
    · exact .inl (mem_shown.mpr (.inl h))
    · exact .inl (mem_shown.mpr (.inr (.inl h)))
    · rcases hmem hentry with ⟨old, hold, hsame, hrefs⟩ | hrefs
      · exact .inl (mem_shown.mpr (.inr (.inr ⟨old, hold, hsame ▸ hkey, hrefs id hid⟩)))
      · exact .inr (hrefs id hid)
  hidden := hhidden.imp_right fun h o ↦ h o.properties

theorem put (hkey : key = payloadKey → t) :
    Edit t p.content.references fun o : Object ↦ o.put key p := by
  apply of_properties
  · intro l entry hentry
    rcases mem_putEntry hentry with rfl | hold
    · exact .inr fun _ h ↦ h
    · exact .inl ⟨entry, hold, rfl, fun _ h ↦ h⟩
  · by_cases h : key = payloadKey
    · exact .inl (hkey h)
    · exact .inr (contentsAt_putEntry h)

theorem erase (hkey : key = payloadKey → t) : Edit t [] fun o : Object ↦ o.erase key := by
  apply of_properties
  · intro l entry hentry
    exact .inl ⟨entry, List.mem_of_mem_filter hentry, rfl, fun _ h ↦ h⟩
  · by_cases h : key = payloadKey
    · exact .inl (hkey h)
    · refine .inr fun l ↦ ?_
      induction l with
      | nil => rfl
      | cons entry l ih =>
        obtain ⟨k, q⟩ := entry
        by_cases hk : k = key
        · simpa [contentsAt, hk, h] using ih
        · simp [contentsAt, hk, ih]

/-- What is left of the entries of an array that is cut to a length. -/
def cut (n : Nat) (entries : List (String × Property)) : List (String × Property) :=
  (entries.filter fun (key, _) ↦ (arrayIndex? key).all (· < n)).map fun (key, p) ↦
    if key = "length" then (key, { p with content := .data (.natural n) }) else (key, p)

theorem withLength (n : Nat) : Edit t [] fun o : Object ↦ o.withLength n := by
  have hcut : Edit t [] fun o : Object ↦ { o with properties := cut n o.properties } := by
    apply of_properties
    · intro l entry hentry
      obtain ⟨⟨k, q⟩, hold, rfl⟩ := List.mem_map.mp hentry
      refine .inl ⟨(k, q), List.mem_of_mem_filter hold, ?_⟩
      by_cases hk : k = "length"
      · simp only [hk, if_true, true_and]
        intro id hid
        rw [show (Content.data (.natural n)).references = [] from Datum.references_natural n] at hid
        cases hid
      · simp [hk]
    · refine .inr fun l ↦ ?_
      induction l with
      | nil => rfl
      | cons entry l ih =>
        obtain ⟨k, q⟩ := entry
        by_cases hk : k = payloadKey
        · -- The property of carriers is neither an element nor the length.
          have hindex : arrayIndex? payloadKey = none := rfl
          have hlength : payloadKey ≠ "length" := by decide
          simpa [cut, contentsAt, hk, hindex, hlength] using ih
        · by_cases hlength : k = "length" <;> by_cases hkept : (arrayIndex? k).all (· < n) <;>
            simp_all [cut, contentsAt]
  exact hcut

/-- Which edit is made may depend on the object. -/
theorem choose (h : ∀ o, ∃ g, Edit t ids g ∧ f o = g o) : Edit t ids f where
  payload? o := by
    obtain ⟨g, hg, heq⟩ := h o
    rw [heq, hg.payload? o]
  native? o := by
    obtain ⟨g, hg, heq⟩ := h o
    rw [heq, hg.native? o]
  references {o id} hid := by
    obtain ⟨g, hg, heq⟩ := h o
    exact hg.references (heq ▸ hid)
  shown {o id} hid := by
    obtain ⟨g, hg, heq⟩ := h o
    exact hg.shown (heq ▸ hid)
  hidden := by
    by_cases ht : t
    · exact .inl ht
    · refine .inr fun o ↦ ?_
      obtain ⟨g, hg, heq⟩ := h o
      rw [heq, hg.hidden.resolve_left ht o]

theorem grow (hkey : key = payloadKey → t) :
    Edit t p.content.references fun o : Object ↦ o.grow key p := by
  apply choose
  intro o
  have hlength (n : Nat) : Edit t p.content.references fun o : Object ↦
      (o.put key p).withLength n := by
    simpa using (withLength n).comp (put hkey)
  unfold Object.grow
  dsimp only
  split
  · split
    · split
      · exact ⟨_, hlength _, rfl⟩
      · exact ⟨_, put hkey, rfl⟩
    · exact ⟨_, put hkey, rfl⟩
  · exact ⟨_, put hkey, rfl⟩

theorem fixLength : Edit t [] Object.fixLength := by
  have hkey : "length" ≠ payloadKey := by decide
  constructor
  · intro o
    unfold Object.fixLength
    split <;> rfl
  · intro o
    unfold Object.fixLength
    split <;> rfl
  · intro o id hid
    unfold Object.fixLength at hid
    split at hid
    · next p hp =>
      refine .inl (((put (t := False) hkey).references hid).elim (fun h ↦ h) fun h ↦ ?_)
      exact mem_references_of_refsAt (refsAt_eq hp ▸ h)
    · exact .inl hid
  · intro o id hid
    unfold Object.fixLength at hid
    split at hid
    · next p hp =>
      refine .inl (((put (t := False) hkey).shown hid).elim (fun h ↦ h) fun h ↦ ?_)
      exact mem_shown_of_refsAt hkey (refsAt_eq hp ▸ h)
    · exact .inl hid
  · refine .inr fun o ↦ ?_
    unfold Object.fixLength
    split
    · exact contentsAt_putEntry hkey _
    · rfl

/-- The prototype, the class name and whether there may be more properties are not looked at by
anybody but the object. -/
theorem withPrototype (prototype : Option ObjectId) :
    Edit t prototype.toList fun o : Object ↦ { o with prototype } where
  payload? _ := rfl
  native? _ := rfl
  references {o id} h := by
    rcases mem_references.mp h with h | h
    · exact .inr (Option.mem_toList.mpr h)
    · exact .inl (mem_references.mpr (.inr h))
  shown {o id} h := by
    rcases mem_shown.mp h with h | h
    · exact .inr (Option.mem_toList.mpr h)
    · exact .inl (mem_shown.mpr (.inr h))
  hidden := .inr fun _ ↦ rfl

theorem frozenEntries : Edit t [] fun o : Object ↦
    { o with properties := o.properties.map fun (key, p) ↦ (key, p.frozen) } := by
  apply of_properties
  · intro l entry hentry
    obtain ⟨old, hold, rfl⟩ := List.mem_map.mp hentry
    exact .inl ⟨old, hold, rfl, fun _ h ↦ h⟩
  · refine .inr fun l ↦ ?_
    induction l with
    | nil => rfl
    | cons entry l ih =>
      obtain ⟨k, q⟩ := entry
      simp only [List.map_cons, contentsAt, ih]
      rfl

theorem frozen : Edit t [] Object.frozen := by
  have hclosed : Edit t [] fun o : Object ↦ { o with extensible := false } :=
    ⟨fun _ ↦ rfl, fun _ ↦ rfl, fun h ↦ .inl h, fun h ↦ .inl h, .inr fun _ ↦ rfl⟩
  exact hclosed.comp frozenEntries

theorem rejected (reason : Datum) : Edit t reason.references
    fun o : Object ↦ o.rejected reason where
  payload? o := by
    unfold Object.rejected
    split
    · next h => simp [Object.payload?, h]
    · rfl
  native? o := by
    unfold Object.rejected
    split
    · next h => simp [Object.native?, h]
    · rfl
  references {o id} hid := by
    unfold Object.rejected at hid
    split at hid
    · rcases mem_references.mp hid with h | h | h
      · exact .inl (mem_references.mpr (.inl h))
      · exact .inr h
      · exact .inl (mem_references.mpr (.inr (.inr h)))
    · exact .inl hid
  shown {o id} hid := by
    unfold Object.rejected at hid
    split at hid
    · rcases mem_shown.mp hid with h | h | h
      · exact .inl (mem_shown.mpr (.inl h))
      · exact .inr h
      · exact .inl (mem_shown.mpr (.inr (.inr h)))
    · exact .inl hid
  hidden := .inr fun o ↦ by
    unfold Object.rejected
    split <;> rfl

end Edit

end Object

/-! ## New objects -/

/-- A number is no key of carriers. -/
theorem toString_ne_payloadKey (n : Nat) : toString n ≠ payloadKey := by
  intro h
  have hmem : '_' ∈ (toString n).toList := by
    rw [h]
    decide
  rw [Nat.toString_eq_repr, Nat.repr, String.toList_ofList] at hmem
  exact absurd (Nat.isDigit_of_mem_toDigits (by decide) (by decide) hmem) (by decide)

namespace Placeable

theorem empty {kind : Kind} {prototype : Option ObjectId}
    (hprototype : Known pins needs prototype.toList) (hkind : Known pins needs kind.references)
    (hpayload : (Object.empty kind prototype).payload? = none)
    (hnative : (Object.empty kind prototype).native? = none) :
    Placeable pins needs (.empty kind prototype) where
  references := by simpa [Object.references, Object.empty] using ⟨hprototype, hkind⟩
  payload? := hpayload
  native? := hnative
  hidden := rfl

theorem ordinary {prototype : Option ObjectId} (h : Known pins needs prototype.toList) :
    Placeable pins needs (.empty .ordinary prototype) :=
  empty h known_nil rfl rfl

/-- Entries may be given to an object that has none. -/
theorem withEntries {entries : List (String × Property)} {kind : Kind} {prototype : Option ObjectId}
    (ho : Placeable pins needs (.empty kind prototype))
    (h : ∀ entry ∈ entries, entry.1 ≠ payloadKey ∧ Known pins needs entry.2.content.references) :
    Placeable pins needs { Object.empty kind prototype with properties := entries } where
  references x hx := by
    rcases Object.mem_references.mp hx with hx | hx | ⟨entry, hentry, hx⟩
    · exact ho.references x (Object.mem_references.mpr (.inl hx))
    · exact ho.references x (Object.mem_references.mpr (.inr (.inl hx)))
    · exact (h entry hentry).2 x hx
  payload? := ho.payload?
  native? := ho.native?
  hidden := by
    rw [List.eq_nil_iff_forall_not_mem]
    intro c hc
    obtain ⟨entry, hentry, hkey, -⟩ := Object.mem_hidden.mp hc
    exact (h entry hentry).1 hkey

/-- An edit keeps an object from becoming a carrier. -/
theorem edit (ho : Placeable pins needs o) (hf : Object.Edit False ids f)
    (hids : Known pins needs ids) : Placeable pins needs (f o) where
  references x hx := (hf.references hx).elim (ho.references x) (hids x)
  payload? := (hf.payload? o).trans ho.payload?
  native? := (hf.native? o).trans ho.native?
  hidden := (hf.hidden.resolve_left not_false o).trans ho.hidden

theorem put (ho : Placeable pins needs o) (hkey : key ≠ payloadKey)
    (hp : Known pins needs p.content.references) : Placeable pins needs (o.put key p) :=
  ho.edit (.put hkey) hp

theorem withData {value : Datum} {flags : Flags} (ho : Placeable pins needs o)
    (hkey : key ≠ payloadKey) (hvalue : Known pins needs value.references) :
    Placeable pins needs (o.withData key value flags) :=
  ho.put hkey hvalue

end Placeable

/-! ## What may be read -/

namespace Machine

variable {m : Machine}

/-- An object that is not there refers to nothing. -/
theorem Sound.offers_shown (h : Sound m) {x : ObjectId} (hid : id ∈ (m.object x).shown) :
    m.Offers id := by
  cases hx : m.heap[x]? with
  | some o =>
    rw [object_of_getElem? hx] at hid
    exact h.shown hx hid
  | none =>
    rw [object, hx, Option.getD_none] at hid
    cases hid

theorem Sound.offers_references (h : Sound m) (htouched : m.ledger.isTouched = true)
    {x : ObjectId} (hid : id ∈ (m.object x).references) : m.Offers id := by
  refine ⟨?_, fun hfalse ↦ by rw [htouched] at hfalse; cases hfalse⟩
  cases hx : m.heap[x]? with
  | some o =>
    rw [object_of_getElem? hx] at hid
    exact h.references hx hid
  | none =>
    rw [object, hx, Option.getD_none] at hid
    cases hid

theorem Sound.offers_refsAt (h : Sound m) (hkey : key = payloadKey → m.ledger.isTouched = true)
    {x : ObjectId} (hid : id ∈ (m.object x).refsAt key) : m.Offers id := by
  by_cases hpayload : key = payloadKey
  · exact h.offers_references (hkey hpayload) (Object.mem_references_of_refsAt hid)
  · exact h.offers_shown (Object.mem_shown_of_refsAt hpayload hid)

/-- An object shows its prototypes. -/
theorem Sound.offers_chain (h : Sound m) {x : ObjectId} (hx : m.Offers x) :
    ∀ id ∈ m.chain x, m.Offers id := by
  suffices hwithin : ∀ steps x, m.Offers x → ∀ id ∈ m.chainWithin steps x, m.Offers id from
    hwithin _ x hx
  intro steps
  induction steps with
  | zero =>
    intro x _ id hid
    cases hid
  | succ steps ih =>
    intro x hx
    rw [chainWithin]
    refine List.forall_mem_cons.mpr ⟨hx, ?_⟩
    cases hparent : (m.object x).prototype with
    | none => exact List.forall_mem_nil _
    | some parent =>
      exact ih parent (h.offers_shown (Object.mem_shown.mpr (.inl hparent)))

end Machine

/-- The objects that a search for a property gives. -/
def foundRefs : Option (ObjectId × Property) → List ObjectId
  | some (owner, p) => owner :: p.content.references
  | none => []

@[simp, grind =]
theorem foundRefs_none : foundRefs none = [] := rfl

@[simp, grind =]
theorem foundRefs_some {owner : ObjectId} :
    foundRefs (some (owner, p)) = owner :: p.content.references :=
  rfl

theorem Machine.Sound.offers_find {m : Machine} (h : Sound m)
    (hkey : key = payloadKey → m.ledger.isTouched = true) {x : ObjectId} (hx : m.Offers x) :
    ∀ id ∈ foundRefs (m.find? x key), m.Offers id := by
  cases hfind : m.find? x key with
  | none => exact List.forall_mem_nil _
  | some found =>
    obtain ⟨owner, hchain, hown⟩ := List.exists_of_findSome?_eq_some hfind
    obtain ⟨p, hp, rfl⟩ := Option.map_eq_some_iff.mp hown
    refine List.forall_mem_cons.mpr ⟨h.offers_chain hx owner hchain, fun id hid ↦ ?_⟩
    exact h.offers_refsAt hkey (Object.refsAt_eq hp ▸ hid)

namespace Safe

theorem edit (hf : Object.Edit t ids f) (hids : Known pins needs ids) (id : ObjectId) :
    Safe t pins needs (Interp.update id f) fun _ ↦ needs := by
  apply Safe.update
  intro m _ ht hknown
  have hoffers {x : ObjectId} (hx : x ∈ ids) : m.Offers x :=
    hknown x fun y hy ↦ hids y (List.mem_singleton.mp hy ▸ hx)
  refine ⟨hf.payload?, hf.native?, fun h ↦ (hf.references h).imp_right hoffers,
    fun _ _ _ h ↦ (hf.shown h).imp_right hoffers, fun htouched ↦ hf.hidden.resolve_left fun h ↦ ?_⟩
  rw [ht h] at htouched
  cases htouched

theorem object (id : ObjectId) :
    Safe t pins needs (Interp.object id) fun o ↦ o.shown ++ needs :=
  Safe.view fun _ hm _ _ _ _ hid ↦ hm.offers_shown hid

/-- Looking at an object for the property of a key. -/
theorem objectAt (hkey : key = payloadKey → t) (id : ObjectId) :
    Safe t pins needs (Interp.object id) fun o ↦ o.refsAt key ++ needs :=
  Safe.view fun _ hm ht _ _ _ hid ↦ hm.offers_refsAt (fun h ↦ ht (hkey h)) hid

theorem find (hkey : key = payloadKey → t) (hid : Known pins needs [id]) :
    Safe t pins needs (Interp.view (·.find? id key)) fun found ↦ foundRefs found ++ needs :=
  Safe.view fun _ hm ht hpins hneeds ↦ hm.offers_find (fun h ↦ ht (hkey h))
    (hid.offers hm hpins hneeds id (List.mem_singleton_self id))

end Safe

end ScriptBridge.Script
