import Mathlib.Data.List.Nodup
import Mathlib.Data.List.Perm.Subperm
import ScriptBridge.Proofs.Registry.Removal

/-!
# The entries of a registry

A registry lists its wrappers in the order of their numbers, and the mapped native objects in the
order of their addresses. Every wrapper is in the first list once. A coherent registry has no
wrapper in the second list twice, since a wrapper bears one native object only; so there are no more
mapped native objects than wrappers. Removals take the handles of the removed wrappers out of the
list of all handles, each as often as it belongs to a removed wrapper.
-/

namespace ScriptBridge.Registry

variable {r : Registry} {id : WrapperId} {w : Wrapper} {native : NativeId}

/-- The wrapper is there. -/
def Live (r : Registry) (id : WrapperId) : Prop := ∃ w, r.get? id = some w

theorem mem_entries : (id, w) ∈ r.entries ↔ r.get? id = some w :=
  Std.ExtTreeMap.mem_toList_iff_getElem?_eq_some

theorem mem_nativeEntries : (native, id) ∈ r.nativeEntries ↔ r.find? native = some id :=
  Std.ExtTreeMap.mem_toList_iff_getElem?_eq_some

theorem mem_map_snd_nativeEntries :
    id ∈ r.nativeEntries.map Prod.snd ↔ ∃ native, r.find? native = some id := by
  rw [List.mem_map]
  constructor
  · rintro ⟨⟨native, id⟩, hentry, rfl⟩
    exact ⟨native, mem_nativeEntries.mp hentry⟩
  · rintro ⟨native, hfind⟩
    exact ⟨(native, id), mem_nativeEntries.mpr hfind, rfl⟩

theorem mem_map_fst_entries : id ∈ r.entries.map Prod.fst ↔ r.Live id := by
  rw [List.mem_map, Live]
  constructor
  · rintro ⟨⟨id, w⟩, hmem, rfl⟩
    exact ⟨w, mem_entries.mp hmem⟩
  · rintro ⟨w, hw⟩
    exact ⟨(id, w), mem_entries.mpr hw, rfl⟩

/-- Wrappers are listed in the order of their numbers. -/
theorem pairwise_entries (r : Registry) :
    (r.entries.map Prod.fst).Pairwise (·.index < ·.index) := by
  rw [List.pairwise_map]
  have hsorted := Std.ExtTreeMap.ordered_keys_toList (t := r.wrappers)
  refine hsorted.imp ?_
  intro a b hlt
  exact Nat.compare_eq_lt.mp hlt

theorem nodup_entries (r : Registry) : (r.entries.map Prod.fst).Nodup :=
  (pairwise_entries r).imp fun hlt heq ↦ absurd (heq ▸ hlt) (Nat.lt_irrefl _)

theorem nodup_nativeEntries (r : Registry) : (r.nativeEntries.map Prod.fst).Nodup := by
  rw [List.nodup_iff_pairwise_ne, List.pairwise_map]
  have hsorted := Std.ExtTreeMap.ordered_keys_toList (t := r.byNative)
  refine hsorted.imp ?_
  rintro a b hlt heq
  rw [heq] at hlt
  exact absurd (Nat.compare_eq_lt.mp hlt) (Nat.lt_irrefl _)

/-- No wrapper is mapped for two native objects. -/
theorem Coherent.nodup_map_snd (hr : r.Coherent) : (r.nativeEntries.map Prod.snd).Nodup := by
  refine List.Nodup.map_on ?_ ((nodup_nativeEntries r).of_map Prod.fst)
  rintro ⟨native, id⟩ hentry ⟨other, _⟩ hother rfl
  obtain ⟨w, hw, rfl⟩ := hr.native_of_find? (mem_nativeEntries.mp hentry)
  obtain ⟨v, hv, rfl⟩ := hr.native_of_find? (mem_nativeEntries.mp hother)
  obtain rfl := Option.some.inj (hw.symm.trans hv)
  rfl

/-- The list of mapped native objects leads to wrappers that are there. -/
theorem Coherent.live_of_mem (hr : r.Coherent) (h : id ∈ r.nativeEntries.map Prod.snd) :
    r.Live id := by
  obtain ⟨native, hfind⟩ := mem_map_snd_nativeEntries.mp h
  obtain ⟨w, hw, -⟩ := hr.native_of_find? hfind
  exact ⟨w, hw⟩

/-- There are no more mapped native objects than wrappers. -/
theorem Coherent.nativeCount_le_size (hr : r.Coherent) : r.nativeCount ≤ r.size := by
  have hsub : r.nativeEntries.map Prod.snd ⊆ r.entries.map Prod.fst := fun id hid ↦
    mem_map_fst_entries.mpr (hr.live_of_mem hid)
  calc r.nativeCount = (r.nativeEntries.map Prod.snd).length := by
        rw [List.length_map, nativeEntries, Std.ExtTreeMap.length_toList, nativeCount]
    _ ≤ (r.entries.map Prod.fst).length := (hr.nodup_map_snd.subperm hsub).length_le
    _ = r.size := by rw [List.length_map, entries, Std.ExtTreeMap.length_toList, size]

/-- A registry is empty if no wrapper is there. -/
theorem Coherent.isEmpty_iff (hr : r.Coherent) : r.isEmpty = true ↔ ∀ id, ¬ r.Live id := by
  rw [isEmpty, Bool.and_eq_true, Std.ExtTreeMap.isEmpty_iff, Std.ExtTreeMap.isEmpty_iff,
    Std.ExtTreeMap.eq_empty_iff_forall_not_mem, Std.ExtTreeMap.eq_empty_iff_forall_not_mem]
  constructor
  · rintro ⟨-, hnone⟩ id hlive
    exact hnone id (contains_wrappers.mpr hlive)
  · intro hnone
    refine ⟨fun native hnative ↦ ?_, fun id hid ↦ hnone id (contains_wrappers.mp hid)⟩
    rw [Std.ExtTreeMap.mem_iff_isSome_getElem?, Option.isSome_iff_exists] at hnative
    obtain ⟨id, hid⟩ := hnative
    obtain ⟨w, hw, -⟩ := hr.native_of_find? hid
    exact hnone id ⟨w, hw⟩

/-- Draining gives every wrapper once, in the order of the numbers. -/
theorem drain_fst (r : Registry) : r.drain.1.map some = (r.entries.map Prod.fst).map r.get? := by
  rw [drain, List.map_map, List.map_map]
  apply List.map_congr_left
  rintro ⟨id, w⟩ hentry
  exact (mem_entries.mp hentry).symm

/-! ## Handles -/

/-- The handles of all wrappers, each as often as it belongs to one. -/
def handles (r : Registry) : List Handle := r.entries.map fun entry ↦ entry.2.handle

theorem mem_named {entries : List (WrapperId × Wrapper)} {id : WrapperId} {handle : Handle} :
    (id, handle) ∈ entries.map (fun entry ↦ (entry.1, entry.2.handle)) ↔
      ∃ w, (id, w) ∈ entries ∧ w.handle = handle := by
  simp

/-- The handles of wrappers and those that are left when the wrappers have been removed are the
handles that there were. -/
theorem Coherent.handles_removeAll (hr : r.Coherent) {gone : List (WrapperId × Wrapper)}
    (hgone : ∀ {id w}, (id, w) ∈ gone → r.get? id = some w) (hnodup : (gone.map Prod.fst).Nodup) :
    (gone.map (fun entry ↦ entry.2.handle) ++
      (r.removeAll (gone.map Prod.fst)).handles).Perm r.handles := by
  let named (entry : WrapperId × Wrapper) := (entry.1, entry.2.handle)
  have hleft : ∀ {id w}, (id, w) ∈ (r.removeAll (gone.map Prod.fst)).entries ↔
      id ∉ gone.map Prod.fst ∧ ∃ v, r.get? id = some v ∧ w = v.withoutAll (gone.map Prod.fst) := by
    intro id w
    rw [mem_entries]
    refine ⟨hr.of_get?_removeAll, ?_⟩
    rintro ⟨hkept, v, hv, rfl⟩
    rw [hr.get?_removeAll, if_neg hkept, hv, Option.map_some]
  -- With their numbers, no handle is listed twice, so it is enough to compare what is listed.
  have hnamed : (gone.map named ++ (r.removeAll (gone.map Prod.fst)).entries.map named).Perm
      (r.entries.map named) := by
    have hfst : ∀ entries : List (WrapperId × Wrapper),
        (entries.map named).map Prod.fst = entries.map Prod.fst := fun entries ↦ List.map_map
    apply (List.perm_ext_iff_of_nodup _ _).mpr
    · rintro ⟨id, handle⟩
      rw [List.mem_append, mem_named, mem_named, mem_named]
      constructor
      · rintro (⟨w, hw, rfl⟩ | ⟨w, hw, rfl⟩)
        · exact ⟨w, mem_entries.mpr (hgone hw), rfl⟩
        · obtain ⟨-, v, hv, rfl⟩ := hleft.mp hw
          exact ⟨v, mem_entries.mpr hv, (Wrapper.sameRecord_withoutAll _ v).handle.symm⟩
      · rintro ⟨w, hw, rfl⟩
        have hw := mem_entries.mp hw
        by_cases hid : id ∈ gone.map Prod.fst
        · obtain ⟨⟨id, v⟩, hv, rfl⟩ := List.mem_map.mp hid
          obtain rfl := Option.some.inj ((hgone hv).symm.trans hw)
          exact .inl ⟨v, hv, rfl⟩
        · exact .inr ⟨_, hleft.mpr ⟨hid, w, hw, rfl⟩, (Wrapper.sameRecord_withoutAll _ w).handle⟩
    · apply List.Nodup.of_map Prod.fst
      rw [List.map_append, hfst, hfst, List.nodup_append']
      refine ⟨hnodup, nodup_entries _, fun id hid hmem ↦ ?_⟩
      obtain ⟨⟨id, w⟩, hw, rfl⟩ := List.mem_map.mp hmem
      exact (hleft.mp hw).1 hid
    · apply List.Nodup.of_map Prod.fst
      rw [hfst]
      exact nodup_entries r
  have hhandles := hnamed.map Prod.snd
  rwa [List.map_append, List.map_map, List.map_map, List.map_map] at hhandles

end ScriptBridge.Registry
