import ScriptBridge.Registry.Basic

/-!
# What the operations of a registry do to its look-ups

A registry is used through three look-ups, by wrapper, by native object and by handle. Here every
operation is described by what it does to them. A removal edits the wrappers at the other ends of
its edges one after the other; the order does not matter, since each edit is its own repetition.
-/

namespace ScriptBridge

section Sets

variable {s : Std.ExtTreeSet WrapperId} {id other : WrapperId}

theorem WrapperId.mem_insert : other ∈ s.insert id ↔ other = id ∨ other ∈ s := by
  rw [Std.ExtTreeSet.mem_insert, Std.LawfulEqCmp.compare_eq_iff_eq, eq_comm]

theorem WrapperId.mem_erase : other ∈ s.erase id ↔ other ≠ id ∧ other ∈ s := by
  rw [Std.ExtTreeSet.mem_erase, ne_eq, Std.LawfulEqCmp.compare_eq_iff_eq, eq_comm]

theorem WrapperId.erase_of_notMem (h : id ∉ s) : s.erase id = s := by
  apply Std.ExtTreeSet.ext_mem
  intro other
  rw [WrapperId.mem_erase]
  exact ⟨And.right, fun hmem ↦ ⟨fun heq ↦ h (heq ▸ hmem), hmem⟩⟩

end Sets

namespace Wrapper

theorem hasChild_fresh (native : NativeId) (handle : Handle) (rooted : Bool) (child : WrapperId) :
    (fresh native handle rooted).hasChild child = false :=
  Std.ExtTreeSet.contains_empty

/-- A wrapper after another one has left: no edge leads to it or comes from it. -/
def without (id : WrapperId) (w : Wrapper) : Wrapper := (w.dropChild id).dropParent id

@[simp]
theorem mem_children_without {id child : WrapperId} {w : Wrapper} :
    child ∈ (w.without id).children ↔ child ≠ id ∧ child ∈ w.children :=
  WrapperId.mem_erase

@[simp]
theorem mem_parents_without {id parent : WrapperId} {w : Wrapper} :
    parent ∈ (w.without id).parents ↔ parent ≠ id ∧ parent ∈ w.parents :=
  WrapperId.mem_erase

theorem dropChild_of_notMem {id : WrapperId} {w : Wrapper} (h : id ∉ w.children) :
    w.dropChild id = w := by
  rw [dropChild, WrapperId.erase_of_notMem h]

theorem dropParent_of_notMem {id : WrapperId} {w : Wrapper} (h : id ∉ w.parents) :
    w.dropParent id = w := by
  rw [dropParent, WrapperId.erase_of_notMem h]

theorem dropChild_dropChild (id : WrapperId) (w : Wrapper) :
    (w.dropChild id).dropChild id = w.dropChild id :=
  dropChild_of_notMem fun h ↦ (WrapperId.mem_erase.mp h).1 rfl

theorem dropParent_dropParent (id : WrapperId) (w : Wrapper) :
    (w.dropParent id).dropParent id = w.dropParent id :=
  dropParent_of_notMem fun h ↦ (WrapperId.mem_erase.mp h).1 rfl

end Wrapper

namespace Registry

variable {r : Registry} {id other : WrapperId} {w : Wrapper}

/-! ## Insertion -/

theorem get?_insert (r : Registry) (native : NativeId) (handle : Handle) (rooted : Bool)
    (id : WrapperId) : (r.insert native handle rooted).2.get? id =
      if (⟨r.next⟩ : WrapperId) = id then some (.fresh native handle rooted) else r.get? id := by
  simp only [insert, get?, Std.ExtTreeMap.getElem?_insert, Std.LawfulEqCmp.compare_eq_iff_eq]

theorem find?_insert (r : Registry) (native : NativeId) (handle : Handle) (rooted : Bool)
    (asked : NativeId) : (r.insert native handle rooted).2.find? asked =
      if native = asked then some ⟨r.next⟩ else r.find? asked := by
  simp only [insert, find?, Std.ExtTreeMap.getElem?_insert, Std.LawfulEqCmp.compare_eq_iff_eq]

theorem findByHandle?_insert (r : Registry) (native : NativeId) (handle : Handle) (rooted : Bool)
    (asked : Handle) : (r.insert native handle rooted).2.findByHandle? asked =
      if handle = asked then some ⟨r.next⟩ else r.findByHandle? asked := by
  simp only [insert, findByHandle?, Std.ExtTreeMap.getElem?_insert,
    Std.LawfulEqCmp.compare_eq_iff_eq]

/-! ## Edges -/

theorem hasEdge_iff {owner child : WrapperId} :
    r.hasEdge owner child = true ↔ ∃ w, r.get? owner = some w ∧ child ∈ w.children := by
  simp only [hasEdge, Wrapper.hasChild, Option.any_eq_true, Std.ExtTreeSet.contains_iff_mem]

theorem contains_wrappers : r.wrappers.contains id = true ↔ ∃ w, r.get? id = some w := by
  rw [Std.ExtTreeMap.contains_eq_isSome_getElem?, Option.isSome_iff_exists]
  rfl

/-! ## Removal -/

/-- Repeating an edit that is its own repetition, along a list of wrappers. -/
theorem get?_foldl_modify {f : Wrapper → Wrapper} (hf : ∀ w, f (f w) = f w)
    (ids : List WrapperId) (r : Registry) (asked : WrapperId) :
    (ids.foldl (fun r id ↦ r.modify id f) r).get? asked =
      if asked ∈ ids then (r.get? asked).map f else r.get? asked := by
  induction ids generalizing r with
  | nil => simp
  | cons id ids ih =>
    rw [List.foldl_cons, ih, get?_modify]
    by_cases hid : id = asked
    · subst hid
      by_cases hmem : id ∈ ids <;> simp [hmem, Function.comp_def, hf]
    · have hne : asked ≠ id := Ne.symm hid
      simp [hid, hne]

theorem find?_foldl_modify (f : Wrapper → Wrapper) (ids : List WrapperId) (r : Registry)
    (native : NativeId) :
    (ids.foldl (fun r id ↦ r.modify id f) r).find? native = r.find? native := by
  induction ids generalizing r with
  | nil => rfl
  | cons id ids ih => rw [List.foldl_cons, ih, find?_modify]

theorem findByHandle?_foldl_modify (f : Wrapper → Wrapper) (ids : List WrapperId) (r : Registry)
    (handle : Handle) :
    (ids.foldl (fun r id ↦ r.modify id f) r).findByHandle? handle = r.findByHandle? handle := by
  induction ids generalizing r with
  | nil => rfl
  | cons id ids ih => rw [List.foldl_cons, ih, findByHandle?_modify]

theorem next_foldl_modify (f : Wrapper → Wrapper) (ids : List WrapperId) (r : Registry) :
    (ids.foldl (fun r id ↦ r.modify id f) r).next = r.next := by
  induction ids generalizing r with
  | nil => rfl
  | cons id ids ih => rw [List.foldl_cons, ih]; rfl

theorem remove_of_unknown (h : r.get? id = none) : r.remove id = (none, r) := by
  simp only [remove, h]

theorem remove_fst (r : Registry) (id : WrapperId) : (r.remove id).1 = r.get? id := by
  cases h : r.get? id <;> simp only [remove, h]

theorem find?_remove (h : r.get? id = some w) (native : NativeId) :
    (r.remove id).2.find? native =
      if w.native = native ∧ r.find? w.native = some id then none else r.find? native := by
  simp only [remove, h, find?_foldl_modify]
  by_cases hown : r.find? w.native = some id
  · simp only [hown, if_true, and_true]
    simp only [find?, Std.ExtTreeMap.getElem?_erase, Std.LawfulEqCmp.compare_eq_iff_eq]
  · simp only [hown, if_false, and_false]
    rfl

theorem findByHandle?_remove (h : r.get? id = some w) (handle : Handle) :
    (r.remove id).2.findByHandle? handle =
      if w.handle = handle ∧ r.findByHandle? w.handle = some id then none
      else r.findByHandle? handle := by
  simp only [remove, h, findByHandle?_foldl_modify]
  by_cases hown : r.findByHandle? w.handle = some id
  · simp only [hown, if_true, and_true]
    simp only [findByHandle?, Std.ExtTreeMap.getElem?_erase, Std.LawfulEqCmp.compare_eq_iff_eq]
  · simp only [hown, if_false, and_false]
    rfl

@[simp]
theorem next_remove (r : Registry) (id : WrapperId) : (r.remove id).2.next = r.next := by
  cases h : r.get? id with
  | none => rw [remove_of_unknown h]
  | some w => simp only [remove, h, next_foldl_modify]

/-- A removal edits the wrappers at the other ends of the edges. -/
theorem get?_remove (h : r.get? id = some w) (asked : WrapperId) :
    (r.remove id).2.get? asked =
      if id = asked then none
      else ((r.get? asked).map fun v ↦ if asked ∈ w.parents then v.dropChild id else v).map
        fun v ↦ if asked ∈ w.children then v.dropParent id else v := by
  simp only [remove, h, get?_foldl_modify (Wrapper.dropChild_dropChild id),
    get?_foldl_modify (Wrapper.dropParent_dropParent id), Std.ExtTreeSet.mem_toList]
  simp only [get?, Std.ExtTreeMap.getElem?_erase, Std.LawfulEqCmp.compare_eq_iff_eq]
  by_cases hid : id = asked
  · simp [hid]
  · by_cases hparent : asked ∈ w.parents <;> by_cases hchild : asked ∈ w.children <;>
      simp [hid, hparent, hchild, Function.comp_def]

end Registry

end ScriptBridge
