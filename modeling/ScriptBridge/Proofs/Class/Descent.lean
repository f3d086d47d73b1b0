import ScriptBridge.Proofs.Class.Lineage

/-!
# The order of installation

The lineage of a class is the whole walk from a root down to the class: every class in it follows
its parent, and the numbers grow. So what is missing of a lineage can be installed in its order, and
if it is, every installed class has an installed parent, even if the installation stops half-way.
A class also has the name of its parent on record, and names do not change.
-/

namespace ScriptBridge.Catalog

variable {c : Catalog} {id other p : ClassId} {entry : ClassEntry} {line : List ClassId}

/-! ## Names of parents -/

/-- Every class has the name of its parent on record. -/
def Named (c : Catalog) : Prop :=
  ∀ id entry, c.get? id = some entry → entry.spec.parent = entry.parent.bind c.name?

theorem named_clear (c : Catalog) : c.clear.Named := by
  intro id entry h
  rw [get?_clear] at h
  cases h

/-- A new class takes no name away. -/
theorem Named.create (hc : c.Named) (hlineal : c.Lineal) {name : String} {parent : Option ClassId}
    {constructor : Option NativeConstructor} {after : Catalog}
    (h : c.create name parent constructor = .ok (id, after)) : after.Named := by
  obtain ⟨entry, rfl, rfl, hparent, -, hspec, hknown⟩ := create_ok h
  have hkept : ∀ {parent : Option ClassId},
      (∀ p, parent = some p → ∃ known, c.get? p = some known) →
        parent.bind (⟨c.classes.insert ⟨c.next⟩ entry, c.next + 1⟩ : Catalog).name? =
          parent.bind c.name? := by
    intro parent hknown
    cases parent with
    | none => rfl
    | some p =>
      obtain ⟨known, hp⟩ := hknown p rfl
      rw [Option.bind_some, Option.bind_some, name?, name?, get?_insert, if_neg]
      rintro rfl
      exact Nat.lt_irrefl _ (hlineal.index_lt hp)
  intro other found hfound
  rw [get?_insert] at hfound
  split at hfound
  · cases hfound
    rw [hparent, hkept hknown, hspec]
  · rw [hkept fun p hp ↦ (hlineal.parent hfound hp).2, hc other found hfound]

/-- Classes may change as long as they keep what they and their parents are called. -/
theorem Named.modify (hc : c.Named) (id : ClassId) {f : ClassEntry → ClassEntry}
    (hname : ∀ entry, (f entry).spec.name = entry.spec.name)
    (hparent : ∀ entry, (f entry).parent = entry.parent)
    (hrecord : ∀ entry, (f entry).spec.parent = entry.spec.parent) :
    ({ c with classes := c.classes.modify id f } : Catalog).Named := by
  have hnames : ({ c with classes := c.classes.modify id f } : Catalog).name? = c.name? := by
    funext other
    rw [name?, name?, get?_modify]
    split
    · cases c.get? other <;> simp [hname]
    · rfl
  intro other entry hentry
  rw [hnames]
  rw [get?_modify] at hentry
  split at hentry
  · obtain ⟨old, hold, rfl⟩ := Option.map_eq_some_iff.mp hentry
    rw [hrecord, hparent, hc other old hold]
  · exact hc other entry hentry

theorem Named.defineFinalizer (hc : c.Named) {tag : String} {after : Catalog}
    (h : c.defineFinalizer id tag = .ok after) : after.Named := by
  obtain ⟨-, rfl⟩ := defineFinalizer_ok h
  exact hc.modify id (fun _ ↦ rfl) (fun _ ↦ rfl) fun _ ↦ rfl

theorem Named.markInstalled (hc : c.Named) (id : ClassId) : (c.markInstalled id).Named :=
  hc.modify id (fun _ ↦ rfl) (fun _ ↦ rfl) fun _ ↦ rfl

/-! ## Walks -/

/-- The walk from a root down to a class. -/
inductive Descends (c : Catalog) : ClassId → List ClassId → Prop
  | root {id : ClassId} (h : c.parent? id = none) : Descends c id [id]
  | child {id p : ClassId} {line : List ClassId} (h : c.parent? id = some p)
    (hp : Descends c p line) : Descends c id (line ++ [id])

theorem Lineal.parent?_lt (hc : c.Lineal) (h : c.parent? id = some p) : p.index < id.index := by
  obtain ⟨entry, hentry, hp⟩ := Option.bind_eq_some_iff.mp h
  exact (hc.parent hentry hp).1

/-- As many steps as the number of a class says lead to a root. -/
theorem Lineal.descends_of_le (hc : c.Lineal) {fuel : Nat} (h : id.index ≤ fuel) :
    c.Descends id (id :: c.ancestors fuel id).reverse := by
  induction fuel generalizing id with
  | zero =>
    refine .root ?_
    cases hp : c.parent? id with
    | none => rfl
    | some p => exact absurd (hc.parent?_lt hp) (by omega)
  | succ fuel ih =>
    cases hp : c.parent? id with
    | none =>
      rw [ancestors, hp]
      exact .root hp
    | some p =>
      have hlt := hc.parent?_lt hp
      rw [ancestors, hp, List.reverse_cons]
      exact .child hp (ih (by omega))

theorem Lineal.descends (hc : c.Lineal) (id : ClassId) : c.Descends id (c.lineage id) :=
  hc.descends_of_le (Nat.le_refl _)

namespace Descends

theorem self_mem (h : c.Descends id line) : id ∈ line := by
  cases h <;> simp

/-- The walk has the parent of every class in it. -/
theorem parent_mem (h : c.Descends id line) (hmem : other ∈ line)
    (hp : c.parent? other = some p) : p ∈ line := by
  induction h with
  | root hroot =>
    rw [List.mem_singleton.mp hmem, hroot] at hp
    cases hp
  | child hparent hwalk ih =>
    rw [List.mem_append, List.mem_singleton] at hmem ⊢
    rcases hmem with hmem | rfl
    · exact .inl (ih hmem)
    · rw [hparent, Option.some.injEq] at hp
      exact .inl (hp ▸ hwalk.self_mem)

theorem index_le (h : c.Descends id line) (hc : c.Lineal) (hmem : other ∈ line) :
    other.index ≤ id.index := by
  induction h with
  | root => exact Nat.le_of_eq (congrArg _ (List.mem_singleton.mp hmem))
  | child hparent _ ih =>
    rw [List.mem_append, List.mem_singleton] at hmem
    rcases hmem with hmem | rfl
    · exact Nat.le_of_lt (Nat.lt_of_le_of_lt (ih hmem) (hc.parent?_lt hparent))
    · exact Nat.le_refl _

/-- Numbers grow from the root downwards. -/
theorem sorted (h : c.Descends id line) (hc : c.Lineal) :
    line.Pairwise fun a b ↦ a.index < b.index := by
  induction h with
  | root => exact List.pairwise_singleton _ _
  | child hparent hwalk ih =>
    refine List.pairwise_append.mpr ⟨ih, List.pairwise_singleton _ _, ?_⟩
    intro a ha b hb
    rw [List.mem_singleton.mp hb]
    exact Nat.lt_of_le_of_lt (hwalk.index_le hc ha) (hc.parent?_lt hparent)

end Descends

/-! ## Missing classes -/

/-- What is not installed yet of a class and its ancestors, the root first. -/
def missing (c : Catalog) (id : ClassId) : List ClassId :=
  (c.lineage id).filter fun other ↦ !c.isInstalled other

theorem mem_missing : other ∈ c.missing id ↔
    other ∈ c.lineage id ∧ c.isInstalled other = false := by
  simp [missing]

theorem Lineal.missing_sorted (hc : c.Lineal) (id : ClassId) :
    (c.missing id).Pairwise fun a b ↦ a.index < b.index :=
  ((hc.descends id).sorted hc).filter _

theorem Lineal.missing_nodup (hc : c.Lineal) (id : ClassId) : (c.missing id).Nodup := by
  refine (hc.missing_sorted id).imp fun hlt heq ↦ ?_
  exact Nat.lt_irrefl _ (heq ▸ hlt)

/-- The parent of a missing class is installed, or it is missing as well and comes first. -/
theorem Lineal.parent_before (hc : c.Lineal) {before after : List ClassId}
    (hsplit : c.missing id = before ++ other :: after) (hp : c.parent? other = some p) :
    c.isInstalled p = true ∨ p ∈ before := by
  cases hinstalled : c.isInstalled p with
  | true => exact .inl rfl
  | false =>
    have hother : other ∈ c.missing id := hsplit ▸ List.mem_append_right _ List.mem_cons_self
    have hmissing : p ∈ c.missing id :=
      mem_missing.mpr ⟨(hc.descends id).parent_mem (mem_missing.mp hother).1 hp, hinstalled⟩
    have hsorted := hc.missing_sorted id
    rw [hsplit, List.pairwise_append, List.pairwise_cons] at hsorted
    have hlt := hc.parent?_lt hp
    rw [hsplit, List.mem_append, List.mem_cons] at hmissing
    rcases hmissing with hbefore | rfl | hafter
    · exact .inr hbefore
    · exact absurd hlt (Nat.lt_irrefl _)
    · exact absurd (hsorted.2.1.1 p hafter) (Nat.lt_asymm hlt)

/-- Every installed class has an installed parent, unless it has none. -/
def Grounded (c : Catalog) : Prop :=
  ∀ id p, c.isInstalled id = true → c.parent? id = some p → c.isInstalled p = true

theorem Pristine.grounded (h : c.Pristine) : c.Grounded := by
  intro id p hinstalled
  rw [h id] at hinstalled
  cases hinstalled

/-- Classes may change as long as they stay installed, or not, and keep their parents. -/
theorem Grounded.modify (hc : c.Grounded) (id : ClassId) {f : ClassEntry → ClassEntry}
    (hinstalled : ∀ entry, (f entry).installed = entry.installed)
    (hparent : ∀ entry, (f entry).parent = entry.parent) :
    ({ c with classes := c.classes.modify id f } : Catalog).Grounded := by
  let after : Catalog := { c with classes := c.classes.modify id f }
  have hsame : ∀ other, after.isInstalled other = c.isInstalled other := by
    intro other
    rw [isInstalled, isInstalled, get?_modify]
    split
    · cases c.get? other <;> simp [hinstalled]
    · rfl
  have hparents : ∀ other, after.parent? other = c.parent? other := by
    intro other
    rw [parent?, parent?, get?_modify]
    split
    · cases c.get? other <;> simp [hparent]
    · rfl
  intro other p hother hp
  rw [hsame] at hother ⊢
  exact hc other p hother (hparents other ▸ hp)

theorem Grounded.defineFinalizer (hc : c.Grounded) {tag : String} {after : Catalog}
    (h : c.defineFinalizer id tag = .ok after) : after.Grounded := by
  obtain ⟨-, rfl⟩ := defineFinalizer_ok h
  exact hc.modify id (fun _ ↦ rfl) fun _ ↦ rfl

theorem Grounded.create (hc : c.Grounded) (hlineal : c.Lineal) {name : String}
    {parent : Option ClassId} {constructor : Option NativeConstructor} {after : Catalog}
    (h : c.create name parent constructor = .ok (id, after)) : after.Grounded := by
  obtain ⟨entry, rfl, rfl, -, hfresh, -, -⟩ := create_ok h
  have hold : ∀ {other}, other ≠ ⟨c.next⟩ →
      (⟨c.classes.insert ⟨c.next⟩ entry, c.next + 1⟩ : Catalog).get? other = c.get? other := by
    intro other hne
    rw [get?_insert, if_neg hne.symm]
  intro other p hother hp
  by_cases hnew : other = ⟨c.next⟩
  · rw [isInstalled, get?_insert, if_pos hnew.symm, Option.any_some, hfresh] at hother
    cases hother
  · rw [isInstalled, hold hnew] at hother
    rw [parent?, hold hnew] at hp
    obtain ⟨found, hfound, hparent⟩ := Option.bind_eq_some_iff.mp hp
    obtain ⟨-, known, hknown⟩ := hlineal.parent hfound hparent
    rw [isInstalled, hold]
    · exact hc other p hother hp
    · rintro rfl
      exact Nat.lt_irrefl _ (hlineal.index_lt hknown)

/-! ## Marking -/

theorem get?_markInstalled (c : Catalog) (id other : ClassId) : (c.markInstalled id).get? other =
    if id = other then (c.get? other).map ({ · with installed := true }) else c.get? other :=
  get?_modify c id other _

/-- Marking classes touches nothing else about them. -/
theorem spec?_markInstalled (c : Catalog) (id : ClassId) :
    (c.markInstalled id).spec? = c.spec? := by
  funext other
  rw [spec?, spec?, get?_markInstalled]
  split
  · cases c.get? other <;> rfl
  · rfl

theorem parent?_markInstalled (c : Catalog) (id : ClassId) :
    (c.markInstalled id).parent? = c.parent? := by
  funext other
  rw [parent?, parent?, get?_markInstalled]
  split
  · cases c.get? other <;> rfl
  · rfl

theorem isInstalled_markInstalled_of_ne (c : Catalog) (h : id ≠ other) :
    (c.markInstalled id).isInstalled other = c.isInstalled other := by
  rw [isInstalled, get?_markInstalled, if_neg h, isInstalled]

theorem isInstalled_markInstalled_self (h : c.get? id = some entry) :
    (c.markInstalled id).isInstalled id = true := by
  rw [isInstalled, get?_markInstalled, if_pos rfl, h]
  rfl

theorem isSome_get?_markInstalled (c : Catalog) (id other : ClassId) :
    ((c.markInstalled id).get? other).isSome = (c.get? other).isSome := by
  rw [get?_markInstalled]
  split
  · rw [Option.isSome_map]
  · rfl

/-- All that marking several classes changes. -/
theorem isInstalled_foldl_markInstalled {ids : List ClassId}
    (hknown : ∀ id ∈ ids, (c.get? id).isSome = true) :
    (ids.foldl markInstalled c).isInstalled other = true ↔
      c.isInstalled other = true ∨ other ∈ ids := by
  induction ids generalizing c with
  | nil => simp
  | cons id rest ih =>
    have hrest : ∀ other ∈ rest, ((c.markInstalled id).get? other).isSome = true := by
      intro other hmem
      rw [isSome_get?_markInstalled]
      exact hknown other (List.mem_cons_of_mem _ hmem)
    rw [List.foldl_cons, ih hrest, List.mem_cons]
    by_cases heq : id = other
    · subst heq
      obtain ⟨entry, hentry⟩ := Option.isSome_iff_exists.mp (hknown id List.mem_cons_self)
      simp [isInstalled_markInstalled_self hentry]
    · rw [isInstalled_markInstalled_of_ne c heq]
      simp [Ne.symm heq]

theorem spec?_foldl_markInstalled (ids : List ClassId) (c : Catalog) :
    (ids.foldl markInstalled c).spec? = c.spec? :=
  ids.foldlRecOn _ (motive := fun after ↦ after.spec? = c.spec?) rfl fun after hsame id _ ↦
    (spec?_markInstalled after id).trans hsame

theorem parent?_foldl_markInstalled (ids : List ClassId) (c : Catalog) :
    (ids.foldl markInstalled c).parent? = c.parent? :=
  ids.foldlRecOn _ (motive := fun after ↦ after.parent? = c.parent?) rfl fun after hsame id _ ↦
    (parent?_markInstalled after id).trans hsame

theorem ancestors_congr {after : Catalog} (h : after.parent? = c.parent?) (fuel : Nat)
    (id : ClassId) : after.ancestors fuel id = c.ancestors fuel id := by
  induction fuel generalizing id with
  | zero => rfl
  | succ fuel ih =>
    rw [ancestors, ancestors, h]
    cases c.parent? id with
    | none => rfl
    | some p => exact congrArg (p :: ·) (ih p)

theorem lineage_foldl_markInstalled (ids : List ClassId) (c : Catalog) (id : ClassId) :
    (ids.foldl markInstalled c).lineage id = c.lineage id := by
  rw [lineage, lineage, ancestors_congr (parent?_foldl_markInstalled ids c)]

section Partly

variable (hc : c.Lineal) {done rest : List ClassId} (hsplit : c.missing id = done ++ rest)
  (hknown : ∀ other ∈ done, (c.get? other).isSome = true)

include hc hsplit hknown

/-- After a part of what was missing, the rest is missing. -/
theorem Lineal.missing_foldl_markInstalled :
    (done.foldl Catalog.markInstalled c).missing id = rest := by
  have hsorted := hc.missing_sorted id
  rw [hsplit, List.pairwise_append] at hsorted
  have hgone : (c.missing id).filter (fun other ↦ !decide (other ∈ done)) = rest := by
    rw [hsplit, List.filter_append, List.filter_eq_nil_iff.mpr, List.filter_eq_self.mpr,
      List.nil_append]
    · intro other hmem
      have hnot : other ∉ done := fun hdone ↦ Nat.lt_irrefl _ (hsorted.2.2 other hdone other hmem)
      simp [hnot]
    · intro other hmem
      simp [hmem]
  have hmarked : ∀ other, (done.foldl Catalog.markInstalled c).isInstalled other =
      (c.isInstalled other || decide (other ∈ done)) := by
    intro other
    rw [Bool.eq_iff_iff, isInstalled_foldl_markInstalled hknown]
    simp
  rw [missing, lineage_foldl_markInstalled, ← hgone, missing, List.filter_filter]
  apply List.filter_congr
  intro other _
  rw [hmarked, Bool.not_or, Bool.and_comm]

/-- A part of what was missing is enough for parents, since they come first. -/
theorem Lineal.grounded_foldl_markInstalled (hgrounded : c.Grounded) :
    (done.foldl Catalog.markInstalled c).Grounded := by
  intro other p hother hp
  rw [parent?_foldl_markInstalled] at hp
  rw [isInstalled_foldl_markInstalled hknown] at hother ⊢
  rcases hother with hold | hdone
  · exact .inl (hgrounded other p hold hp)
  · obtain ⟨before, after, rfl⟩ := List.append_of_mem hdone
    rw [List.append_assoc, List.cons_append] at hsplit
    exact (hc.parent_before hsplit hp).imp_right (List.mem_append_left _)

end Partly

end ScriptBridge.Catalog
