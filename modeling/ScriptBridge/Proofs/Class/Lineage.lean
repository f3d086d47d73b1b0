import ScriptBridge.Class.Catalog

/-!
# Lineages in a catalog

A catalog only takes in classes whose parent it knows, so the parent of a class is an older class of
the same catalog. This stays so whatever is asked of the catalog, and it is why the lineage of a
known class consists of known classes.
-/

namespace ScriptBridge.Catalog

variable {c : Catalog} {id other : ClassId} {entry : ClassEntry}

/-! ## Look-ups -/

theorem get?_insert (c : Catalog) (id other : ClassId) (entry : ClassEntry) (next : Nat) :
    (⟨c.classes.insert id entry, next⟩ : Catalog).get? other =
      if id = other then some entry else c.get? other := by
  simp only [get?, Std.ExtTreeMap.getElem?_insert, Std.LawfulEqCmp.compare_eq_iff_eq]

theorem get?_modify (c : Catalog) (id other : ClassId) (f : ClassEntry → ClassEntry) :
    ({ c with classes := c.classes.modify id f } : Catalog).get? other =
      if id = other then (c.get? other).map f else c.get? other := by
  simp only [get?, Std.ExtTreeMap.getElem?_modify, Std.LawfulEqCmp.compare_eq_iff_eq]
  split
  · next h => rw [h]
  · rfl

theorem get?_clear (c : Catalog) (id : ClassId) : c.clear.get? id = none := by
  simp [clear, get?]

/-- The name of a class. -/
def name? (c : Catalog) (id : ClassId) : Option String :=
  (c.get? id).map fun entry ↦ entry.spec.name

/-- What a creation adds: a class with the next number, whose parent is known. -/
theorem create_ok {name : String} {parent : Option ClassId}
    {constructor : Option NativeConstructor} {after : Catalog}
    (h : c.create name parent constructor = .ok (id, after)) :
    ∃ entry : ClassEntry, id = ⟨c.next⟩ ∧ after = ⟨c.classes.insert id entry, c.next + 1⟩ ∧
      entry.parent = parent ∧ entry.installed = false ∧
      entry.spec = ⟨name, parent.bind c.name?, constructor, none⟩ ∧
      ∀ p, parent = some p → ∃ known, c.get? p = some known := by
  cases parent with
  | none =>
    cases h
    exact ⟨_, rfl, rfl, rfl, rfl, rfl, fun p hp ↦ by cases hp⟩
  | some p =>
    simp only [create] at h
    cases hp : c.get? p with
    | none =>
      rw [hp] at h
      cases h
    | some known =>
      rw [hp] at h
      cases h
      refine ⟨_, rfl, rfl, rfl, rfl, ?_, ?_⟩
      · rw [Option.bind_some, name?, hp]
        rfl
      · rintro _ ⟨⟩
        exact ⟨known, hp⟩

/-- What a definition changes: a known class gets another finalizer. -/
theorem defineFinalizer_ok {tag : String} {after : Catalog}
    (h : c.defineFinalizer id tag = .ok after) : (∃ entry, c.get? id = some entry) ∧
      after = { c with classes := c.classes.modify id fun entry ↦
        { entry with spec := { entry.spec with finalizer := some tag } } } := by
  unfold Catalog.defineFinalizer at h
  split at h
  · next hknown =>
    cases h
    rw [← Std.ExtTreeMap.isSome_getElem?_eq_contains] at hknown
    exact ⟨Option.isSome_iff_exists.mp hknown, rfl⟩
  · cases h

theorem spec?_defineFinalizer {tag : String} {after : Catalog}
    (h : c.defineFinalizer id tag = .ok after) (other : ClassId) : after.spec? other =
      if id = other then (c.spec? other).map ({ · with finalizer := some tag })
      else c.spec? other := by
  obtain ⟨-, rfl⟩ := defineFinalizer_ok h
  rw [spec?, get?_modify, spec?]
  split
  · cases c.get? other <;> rfl
  · rfl

theorem isInstalled_defineFinalizer {tag : String} {after : Catalog}
    (h : c.defineFinalizer id tag = .ok after) (other : ClassId) :
    after.isInstalled other = c.isInstalled other := by
  obtain ⟨-, rfl⟩ := defineFinalizer_ok h
  rw [isInstalled, get?_modify, isInstalled]
  split
  · cases c.get? other <;> rfl
  · rfl

/-! ## Parents -/

/-- Every parent is an older class of the catalog. -/
structure Lineal (c : Catalog) : Prop where
  index_lt : ∀ {id entry}, c.get? id = some entry → id.index < c.next
  parent : ∀ {id entry p}, c.get? id = some entry → entry.parent = some p →
    p.index < id.index ∧ ∃ known, c.get? p = some known

theorem lineal_clear (c : Catalog) : c.clear.Lineal where
  index_lt h := by
    rw [get?_clear] at h
    cases h
  parent h := by
    rw [get?_clear] at h
    cases h

theorem lineal_empty : empty.Lineal := lineal_clear empty

theorem Lineal.create (hc : c.Lineal) {name : String} {parent : Option ClassId}
    {constructor : Option NativeConstructor} {after : Catalog}
    (h : c.create name parent constructor = .ok (id, after)) : after.Lineal := by
  obtain ⟨entry, rfl, rfl, hparent, -, -, hknown⟩ := create_ok h
  have hkept : ∀ {p known}, c.get? p = some known →
      (⟨c.classes.insert ⟨c.next⟩ entry, c.next + 1⟩ : Catalog).get? p = some known := by
    intro p known hp
    rw [get?_insert, if_neg, hp]
    rintro rfl
    exact Nat.lt_irrefl _ (hc.index_lt hp)
  constructor
  · intro id found hfound
    rw [get?_insert] at hfound
    split at hfound
    · next hid => exact hid ▸ Nat.lt_succ_self c.next
    · exact Nat.lt_succ_of_lt (hc.index_lt hfound)
  · intro id found p hfound hp
    rw [get?_insert] at hfound
    split at hfound
    · next hid =>
      cases hfound
      obtain ⟨known, hold⟩ := hknown p (hparent.symm.trans hp)
      exact ⟨hid ▸ hc.index_lt hold, known, hkept hold⟩
    · obtain ⟨hlt, known, hold⟩ := hc.parent hfound hp
      exact ⟨hlt, known, hkept hold⟩

/-- Classes may change as long as they keep their parents. -/
theorem Lineal.modify (hc : c.Lineal) (id : ClassId) {f : ClassEntry → ClassEntry}
    (hf : ∀ entry, (f entry).parent = entry.parent) :
    ({ c with classes := c.classes.modify id f } : Catalog).Lineal := by
  have hback : ∀ {other entry},
      ({ c with classes := c.classes.modify id f } : Catalog).get? other = some entry →
        ∃ old, c.get? other = some old ∧ entry.parent = old.parent := by
    intro other entry hentry
    rw [get?_modify] at hentry
    split at hentry
    · obtain ⟨old, hold, rfl⟩ := Option.map_eq_some_iff.mp hentry
      exact ⟨old, hold, hf old⟩
    · exact ⟨entry, hentry, rfl⟩
  have hkept : ∀ {p known}, c.get? p = some known →
      ∃ later, ({ c with classes := c.classes.modify id f } : Catalog).get? p = some later := by
    intro p known hp
    rw [get?_modify, hp]
    split
    · exact ⟨f known, rfl⟩
    · exact ⟨known, rfl⟩
  constructor
  · intro other entry hentry
    obtain ⟨old, hold, -⟩ := hback hentry
    exact hc.index_lt hold
  · intro other entry p hentry hp
    obtain ⟨old, hold, hsame⟩ := hback hentry
    obtain ⟨hlt, known, hknown⟩ := hc.parent hold (hsame.symm.trans hp)
    exact ⟨hlt, hkept hknown⟩

theorem Lineal.defineFinalizer (hc : c.Lineal) {tag : String} {after : Catalog}
    (h : c.defineFinalizer id tag = .ok after) : after.Lineal := by
  obtain ⟨-, rfl⟩ := defineFinalizer_ok h
  exact hc.modify id fun _ ↦ rfl

theorem Lineal.markInstalled (hc : c.Lineal) (id : ClassId) : (c.markInstalled id).Lineal :=
  hc.modify id fun _ ↦ rfl

/-! ## Lineages -/

theorem ancestors_of_unknown (h : c.get? id = none) (fuel : Nat) : c.ancestors fuel id = [] := by
  cases fuel <;> simp [ancestors, parent?, h]

theorem lineage_of_unknown (h : c.get? id = none) : c.lineage id = [id] := by
  rw [lineage, ancestors_of_unknown h]
  rfl

/-- An ancestor is the parent of some class. -/
theorem exists_child_of_mem_ancestors {fuel : Nat} (h : other ∈ c.ancestors fuel id) :
    ∃ child, c.parent? child = some other := by
  induction fuel generalizing id with
  | zero => cases h
  | succ fuel ih =>
    unfold ancestors at h
    split at h
    · cases h
    · next parent hparent =>
      rcases List.mem_cons.mp h with rfl | hrest
      · exact ⟨id, hparent⟩
      · exact ih hrest

/-- All classes in the lineage of a known class are known. -/
theorem Lineal.known_of_mem_lineage (hc : c.Lineal) (h : c.get? id = some entry)
    (hmem : other ∈ c.lineage id) : ∃ known, c.get? other = some known := by
  rw [lineage, List.mem_reverse, List.mem_cons] at hmem
  rcases hmem with rfl | hancestor
  · exact ⟨entry, h⟩
  · obtain ⟨child, hparent⟩ := exists_child_of_mem_ancestors hancestor
    obtain ⟨found, hfound, hparent⟩ := Option.bind_eq_some_iff.mp hparent
    exact (hc.parent hfound hparent).2

/-! ## Catalogs without installed classes -/

/-- No class is installed. -/
def Pristine (c : Catalog) : Prop := ∀ id, c.isInstalled id = false

theorem pristine_clear (c : Catalog) : c.clear.Pristine := by
  intro id
  rw [isInstalled, get?_clear, Option.any_none]

/-- A new class is not installed. -/
theorem Pristine.create (hc : c.Pristine) {name : String} {parent : Option ClassId}
    {constructor : Option NativeConstructor} {after : Catalog}
    (h : c.create name parent constructor = .ok (id, after)) : after.Pristine := by
  obtain ⟨entry, rfl, rfl, -, hinstalled, -, -⟩ := create_ok h
  intro other
  rw [isInstalled, get?_insert]
  split
  · rw [Option.any_some, hinstalled]
  · exact hc other

theorem Pristine.defineFinalizer (hc : c.Pristine) {tag : String} {after : Catalog}
    (h : c.defineFinalizer id tag = .ok after) : after.Pristine :=
  fun other ↦ (isInstalled_defineFinalizer h other).trans (hc other)

end ScriptBridge.Catalog
