import ScriptBridge.Proofs.Registry.Lookup

/-!
# Coherent registries

A registry is coherent if its indexes lead to wrappers that bear the name asked for, if the numbers
in use are below the next one, and if the two directions of every edge agree. The last part is what
a removal relies on: it visits the edges of the removed wrapper only, and in a coherent registry no
other wrapper knows of it. Every operation keeps a registry coherent.
-/

namespace ScriptBridge.Registry

/-- The indexes and the two directions of the edges agree with the wrappers. -/
structure Coherent (r : Registry) : Prop where
  native_of_find? : ∀ {native id}, r.find? native = some id →
    ∃ w, r.get? id = some w ∧ w.native = native
  handle_of_findByHandle? : ∀ {handle id}, r.findByHandle? handle = some id →
    ∃ w, r.get? id = some w ∧ w.handle = handle
  index_lt : ∀ {id w}, r.get? id = some w → id.index < r.next
  parent_of_child : ∀ {owner child w}, r.get? owner = some w → child ∈ w.children →
    ∃ v, r.get? child = some v ∧ owner ∈ v.parents
  child_of_parent : ∀ {owner child v}, r.get? child = some v → owner ∈ v.parents →
    ∃ w, r.get? owner = some w ∧ child ∈ w.children

variable {r : Registry} {id asked owner child : WrapperId} {w : Wrapper}

/-- The next number is not in use. -/
theorem Coherent.get?_next (hr : r.Coherent) : r.get? ⟨r.next⟩ = none := by
  cases h : r.get? ⟨r.next⟩ with
  | none => rfl
  | some w => exact absurd (hr.index_lt h) (Nat.lt_irrefl _)

theorem Coherent.ne_next (hr : r.Coherent) (h : r.get? id = some w) :
    (⟨r.next⟩ : WrapperId) ≠ id := by
  rintro rfl
  rw [hr.get?_next] at h
  cases h

theorem Coherent.live_of_hasEdge (hr : r.Coherent) (h : r.hasEdge owner child = true) :
    (∃ w, r.get? owner = some w) ∧ ∃ v, r.get? child = some v := by
  obtain ⟨w, hw, hchild⟩ := hasEdge_iff.mp h
  obtain ⟨v, hv, -⟩ := hr.parent_of_child hw hchild
  exact ⟨⟨w, hw⟩, ⟨v, hv⟩⟩

/-! ## Removal from a coherent registry -/

/-- In a coherent registry a removal cuts the removed wrapper out of all others. -/
theorem Coherent.get?_remove (hr : r.Coherent) (id asked : WrapperId) :
    (r.remove id).2.get? asked =
      if id = asked then none else (r.get? asked).map (Wrapper.without id) := by
  by_cases hid : id = asked
  · subst hid
    cases h : r.get? id with
    | none => rw [remove_of_unknown h, if_pos rfl, h]
    | some w => rw [Registry.get?_remove h, if_pos rfl, if_pos rfl]
  rw [if_neg hid]
  cases hasked : r.get? asked with
  | none =>
    cases h : r.get? id with
    | none => rw [remove_of_unknown h, hasked]; rfl
    | some w => rw [Registry.get?_remove h, if_neg hid, hasked]; rfl
  | some v =>
    -- What the removed wrapper does not know of is not there on the other side either.
    cases h : r.get? id with
    | none =>
      have hchild : id ∉ v.children := fun hmem ↦ by
        obtain ⟨u, hu, -⟩ := hr.parent_of_child hasked hmem
        rw [h] at hu
        cases hu
      have hparent : id ∉ v.parents := fun hmem ↦ by
        obtain ⟨u, hu, -⟩ := hr.child_of_parent hasked hmem
        rw [h] at hu
        cases hu
      rw [remove_of_unknown h, hasked, Option.map_some, Wrapper.without,
        Wrapper.dropChild_of_notMem hchild, Wrapper.dropParent_of_notMem hparent]
    | some w =>
      rw [Registry.get?_remove h, if_neg hid, hasked]
      simp only [Option.map_some, Option.some.injEq]
      have hchild : asked ∉ w.parents → id ∉ v.children := fun hnot hmem ↦ by
        obtain ⟨u, hu, hmem⟩ := hr.parent_of_child hasked hmem
        rw [h, Option.some.injEq] at hu
        exact hnot (hu ▸ hmem)
      have hparent : asked ∉ w.children → id ∉ v.parents := fun hnot hmem ↦ by
        obtain ⟨u, hu, hmem⟩ := hr.child_of_parent hasked hmem
        rw [h, Option.some.injEq] at hu
        exact hnot (hu ▸ hmem)
      have hfirst : (if asked ∈ w.parents then v.dropChild id else v) = v.dropChild id := by
        split
        · rfl
        · next hnot => exact (Wrapper.dropChild_of_notMem (hchild hnot)).symm
      rw [hfirst, Wrapper.without]
      split
      · rfl
      · next hnot => exact (Wrapper.dropParent_of_notMem (w := v.dropChild id) (hparent hnot)).symm

theorem Coherent.get?_remove_of_ne (hr : r.Coherent) (h : asked ≠ id) :
    (r.remove id).2.get? asked = (r.get? asked).map (Wrapper.without id) := by
  rw [hr.get?_remove, if_neg h.symm]

/-- What is left after a removal was there before. -/
theorem Coherent.of_get?_remove (hr : r.Coherent) (h : (r.remove id).2.get? asked = some w) :
    asked ≠ id ∧ ∃ v, r.get? asked = some v ∧ w = v.without id := by
  rw [hr.get?_remove] at h
  split at h
  · cases h
  · next hne =>
    obtain ⟨v, hv, rfl⟩ := Option.map_eq_some_iff.mp h
    exact ⟨Ne.symm hne, v, hv, rfl⟩

theorem Coherent.remove (hr : r.Coherent) (id : WrapperId) : (r.remove id).2.Coherent := by
  cases h : r.get? id with
  | none => rw [remove_of_unknown h]; exact hr
  | some w =>
    constructor
    · intro native found hfind
      rw [find?_remove h] at hfind
      split at hfind
      · cases hfind
      · next hkept =>
        obtain ⟨v, hv, hnative⟩ := hr.native_of_find? hfind
        have hne : found ≠ id := by
          rintro rfl
          rw [h, Option.some.injEq] at hv
          subst hv
          exact hkept ⟨hnative, hnative ▸ hfind⟩
        exact ⟨v.without id, by rw [hr.get?_remove_of_ne hne, hv]; rfl, hnative⟩
    · intro handle found hfind
      rw [findByHandle?_remove h] at hfind
      split at hfind
      · cases hfind
      · next hkept =>
        obtain ⟨v, hv, hhandle⟩ := hr.handle_of_findByHandle? hfind
        have hne : found ≠ id := by
          rintro rfl
          rw [h, Option.some.injEq] at hv
          subst hv
          exact hkept ⟨hhandle, hhandle ▸ hfind⟩
        exact ⟨v.without id, by rw [hr.get?_remove_of_ne hne, hv]; rfl, hhandle⟩
    · intro left v hv
      obtain ⟨-, u, hu, -⟩ := hr.of_get?_remove hv
      rw [next_remove]
      exact hr.index_lt hu
    · intro owner child v hv hchild
      obtain ⟨howner, u, hu, rfl⟩ := hr.of_get?_remove hv
      obtain ⟨hne, hchild⟩ := Wrapper.mem_children_without.mp hchild
      obtain ⟨t, ht, hparent⟩ := hr.parent_of_child hu hchild
      exact ⟨t.without id, by rw [hr.get?_remove_of_ne hne, ht]; rfl,
        Wrapper.mem_parents_without.mpr ⟨howner, hparent⟩⟩
    · intro owner child v hv hparent
      obtain ⟨hchild, u, hu, rfl⟩ := hr.of_get?_remove hv
      obtain ⟨hne, hparent⟩ := Wrapper.mem_parents_without.mp hparent
      obtain ⟨t, ht, hmem⟩ := hr.child_of_parent hu hparent
      exact ⟨t.without id, by rw [hr.get?_remove_of_ne hne, ht]; rfl,
        Wrapper.mem_children_without.mpr ⟨hchild, hmem⟩⟩

/-- A removal takes away exactly the edges that touch the removed wrapper. -/
theorem Coherent.hasEdge_remove (hr : r.Coherent) (id : WrapperId) {owner child : WrapperId} :
    (r.remove id).2.hasEdge owner child = true ↔
      owner ≠ id ∧ child ≠ id ∧ r.hasEdge owner child = true := by
  constructor
  · intro h
    obtain ⟨w, hw, hchild⟩ := hasEdge_iff.mp h
    obtain ⟨howner, v, hv, rfl⟩ := hr.of_get?_remove hw
    obtain ⟨hne, hchild⟩ := Wrapper.mem_children_without.mp hchild
    exact ⟨howner, hne, hasEdge_iff.mpr ⟨v, hv, hchild⟩⟩
  · rintro ⟨howner, hne, h⟩
    obtain ⟨v, hv, hchild⟩ := hasEdge_iff.mp h
    exact hasEdge_iff.mpr ⟨v.without id, by rw [hr.get?_remove_of_ne howner, hv]; rfl,
      Wrapper.mem_children_without.mpr ⟨hne, hchild⟩⟩

/-! ## Insertion -/

theorem Coherent.get?_insert_of_some (hr : r.Coherent) (native : NativeId) (handle : Handle)
    (rooted : Bool) (h : r.get? id = some w) :
    (r.insert native handle rooted).2.get? id = some w := by
  rw [get?_insert, if_neg (hr.ne_next h), h]

theorem Coherent.insert (hr : r.Coherent) (native : NativeId) (handle : Handle) (rooted : Bool) :
    (r.insert native handle rooted).2.Coherent := by
  constructor
  · intro asked found hfind
    rw [find?_insert] at hfind
    split at hfind
    · next heq =>
      cases hfind
      exact ⟨_, get?_insert_self r native handle rooted, heq⟩
    · obtain ⟨v, hv, hnative⟩ := hr.native_of_find? hfind
      exact ⟨v, hr.get?_insert_of_some native handle rooted hv, hnative⟩
  · intro asked found hfind
    rw [findByHandle?_insert] at hfind
    split at hfind
    · next heq =>
      cases hfind
      exact ⟨_, get?_insert_self r native handle rooted, heq⟩
    · obtain ⟨v, hv, hhandle⟩ := hr.handle_of_findByHandle? hfind
      exact ⟨v, hr.get?_insert_of_some native handle rooted hv, hhandle⟩
  · intro id v hv
    rw [get?_insert] at hv
    split at hv
    · next heq => exact heq ▸ Nat.lt_succ_self r.next
    · exact Nat.lt_succ_of_lt (hr.index_lt hv)
  · intro owner child v hv hchild
    rw [get?_insert] at hv
    split at hv
    · cases hv
      exact absurd hchild Std.ExtTreeSet.not_mem_empty
    · obtain ⟨u, hu, hparent⟩ := hr.parent_of_child hv hchild
      exact ⟨u, hr.get?_insert_of_some native handle rooted hu, hparent⟩
  · intro owner child v hv hparent
    rw [get?_insert] at hv
    split at hv
    · cases hv
      exact absurd hparent Std.ExtTreeSet.not_mem_empty
    · obtain ⟨u, hu, hchild⟩ := hr.child_of_parent hv hparent
      exact ⟨u, hr.get?_insert_of_some native handle rooted hu, hchild⟩

/-- A new wrapper has no edges. -/
theorem Coherent.hasEdge_insert (hr : r.Coherent) (native : NativeId) (handle : Handle)
    (rooted : Bool) (owner child : WrapperId) :
    (r.insert native handle rooted).2.hasEdge owner child = r.hasEdge owner child := by
  by_cases heq : (⟨r.next⟩ : WrapperId) = owner
  · subst heq
    rw [hasEdge, hasEdge, get?_insert, if_pos rfl, hr.get?_next, Option.any_some,
      Wrapper.hasChild_fresh, Option.any_none]
  · rw [hasEdge, hasEdge, get?_insert, if_neg heq]

end ScriptBridge.Registry
