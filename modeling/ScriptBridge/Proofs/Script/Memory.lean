import Mathlib.Data.List.Perm.Subperm
import Mathlib.Tactic.ByContra
import Mathlib.Tactic.Tauto
import ScriptBridge.Script.Memory

/-!
# What the collector removes

Removing what nothing refers to goes on until nothing is left to remove, and a sweep removes what
cannot be reached. Both remove a set of objects that neither a root nor a remaining object refers
to; what is true of such removals is true of the collector. A sweep finds all that can be reached:
no set of objects on the heap outgrows the heap, so the search has come to its end when its steps
are used up.
-/

namespace ScriptBridge.Script.Machine

variable {m : Machine} {kept ids : List ObjectId} {id x : ObjectId} {o : Object}

theorem mem_heap_iff : id ∈ m.heap ↔ ∃ o, m.heap[id]? = some o := by
  rw [Std.ExtTreeMap.mem_iff_isSome_getElem?, Option.isSome_iff_exists]

theorem mem_heap_of_getElem? (h : m.heap[id]? = some o) : id ∈ m.heap := mem_heap_iff.mpr ⟨o, h⟩

theorem object_of_getElem? (h : m.heap[id]? = some o) : m.object id = o := by
  simp only [object, h, Option.getD_some]

theorem getElem?_of_mem (h : id ∈ m.heap) : m.heap[id]? = some (m.object id) := by
  obtain ⟨o, ho⟩ := mem_heap_iff.mp h
  rw [ho, object_of_getElem? ho]

/-- What is not there refers to nothing. -/
theorem object_of_notMem (h : id ∉ m.heap) : m.object id = .empty .ordinary none := by
  rw [object, Std.ExtTreeMap.getElem?_eq_none h, Option.getD_none]

/-! ## Removing objects -/

theorem getElem?_heap_free (m : Machine) (id x : ObjectId) :
    (m.free id).heap[x]? = if x = id then none else m.heap[x]? := by
  by_cases h : x = id
  · simp [free, h]
  · simp [free, h, Std.ExtTreeMap.getElem?_erase, Ne.symm h]

theorem of_getElem?_heap_free (h : (m.free id).heap[x]? = some o) : m.heap[x]? = some o := by
  rw [getElem?_heap_free] at h
  split at h
  · cases h
  · exact h

/-- Removes objects, one after the other. -/
def freeAll (ids : List ObjectId) (m : Machine) : Machine := ids.foldl free m

@[simp]
theorem freeAll_nil (m : Machine) : m.freeAll [] = m :=
  rfl

@[simp]
theorem freeAll_cons (id : ObjectId) (ids : List ObjectId) (m : Machine) :
    m.freeAll (id :: ids) = (m.free id).freeAll ids :=
  rfl

theorem getElem?_heap_freeAll (ids : List ObjectId) (m : Machine) (x : ObjectId) :
    (m.freeAll ids).heap[x]? = if x ∈ ids then none else m.heap[x]? := by
  induction ids generalizing m with
  | nil => simp
  | cons id ids ih =>
    rw [freeAll_cons, ih, getElem?_heap_free]
    by_cases hx : x = id <;> simp [hx]

theorem mem_heap_freeAll : x ∈ (m.freeAll ids).heap ↔ x ∉ ids ∧ x ∈ m.heap := by
  simp only [Std.ExtTreeMap.mem_iff_isSome_getElem?, getElem?_heap_freeAll]
  split <;> simp [*]

theorem of_getElem?_heap_freeAll (h : (m.freeAll ids).heap[x]? = some o) :
    x ∉ ids ∧ m.heap[x]? = some o := by
  rw [getElem?_heap_freeAll] at h
  split at h
  · cases h
  · exact ⟨‹_›, h⟩

/-- A removal reaches the heap and the trace only. -/
theorem freeAll_eq (ids : List ObjectId) (m : Machine) :
    m.freeAll ids = { m with heap := (m.freeAll ids).heap, trace := (m.freeAll ids).trace } := by
  induction ids generalizing m with
  | nil => rfl
  | cons id ids ih =>
    rw [freeAll_cons]
    exact (ih (m.free id)).trans rfl

/-! ## Reference counts -/

theorem mem_referenced : id ∈ m.referenced kept ↔
    id ∈ kept ∨ id ∈ m.roots ∨
      ∃ (x : ObjectId) (o : Object), m.heap[x]? = some o ∧ id ∈ o.references := by
  have hfold : ∀ (entries : List (ObjectId × Object)) (set : ObjectSet),
      id ∈ entries.foldl (fun set entry ↦ set.insertMany entry.2.references) set ↔
        id ∈ set ∨ ∃ entry ∈ entries, id ∈ entry.2.references := by
    intro entries
    induction entries with
    | nil => simp
    | cons entry entries ih =>
      intro set
      rw [List.foldl_cons, ih]
      simp [Std.ExtTreeSet.mem_insertMany_list, or_assoc]
  rw [referenced, Std.ExtTreeMap.foldl_eq_foldl_toList, hfold]
  simp [Std.ExtTreeSet.mem_insertMany_list, Std.ExtTreeMap.mem_toList_iff_getElem?_eq_some,
    or_assoc]

theorem mem_unreferenced :
    id ∈ m.unreferenced kept ↔ id ∈ m.heap ∧ id ∉ m.referenced kept := by
  simp [unreferenced, ← Std.ExtTreeSet.contains_iff_mem]

theorem nodup_keys (m : Machine) : m.heap.keys.Nodup :=
  Std.ExtTreeMap.distinct_keys.imp fun h heq ↦ h (by simp [heq])

/-- Removing objects that are there makes the heap smaller. -/
theorem size_heap_freeAll_lt (hid : id ∈ ids) (hmem : id ∈ m.heap) :
    (m.freeAll ids).heap.size < m.heap.size := by
  have hsubset : (m.freeAll ids).heap.keys ⊆ m.heap.keys.erase id := by
    intro x hx
    rw [Std.ExtTreeMap.mem_keys, mem_heap_freeAll] at hx
    have hne : x ≠ id := fun heq ↦ hx.1 (heq ▸ hid)
    exact (List.mem_erase_of_ne hne).mpr (Std.ExtTreeMap.mem_keys.mpr hx.2)
  have hle := (List.Nodup.subperm (nodup_keys _) hsubset).length_le
  have hlength := List.length_erase_of_mem (Std.ExtTreeMap.mem_keys.mpr hmem)
  have hpos := List.length_pos_of_mem (Std.ExtTreeMap.mem_keys.mpr hmem)
  rw [Std.ExtTreeMap.length_keys] at hle hlength hpos
  omega

/-- What rounds of removals keep. -/
theorem settle_induction {P : Machine → Prop} (kept : List ObjectId) (h : P m)
    (hround : ∀ m, P m → P (m.freeAll (m.unreferenced kept))) : P (m.settle kept) := by
  rw [settle]
  generalize m.heap.size = rounds
  induction rounds generalizing m with
  | zero => exact h
  | succ rounds ih =>
    rw [settleWithin]
    split
    · exact h
    · exact ih (hround m h)

/-- Settling takes objects away, and tells of the end of payloads. -/
theorem settle_eq (kept : List ObjectId) (m : Machine) :
    m.settle kept = { m with heap := (m.settle kept).heap, trace := (m.settle kept).trace } := by
  refine settle_induction
    (P := fun m' ↦ m' = { m with heap := m'.heap, trace := m'.trace }) kept rfl fun m' h ↦ ?_
  rw [freeAll_eq, h]

/-- In the end nothing is left to be removed. -/
theorem unreferenced_settle (kept : List ObjectId) (m : Machine) :
    (m.settle kept).unreferenced kept = [] := by
  have hwithin : ∀ rounds (m : Machine), m.heap.size ≤ rounds →
      (settleWithin kept rounds m).unreferenced kept = [] := by
    intro rounds
    induction rounds with
    | zero =>
      intro m hsize
      rw [Nat.le_zero, ← Std.ExtTreeMap.length_keys, List.length_eq_zero_iff] at hsize
      simp [settleWithin, unreferenced, hsize]
    | succ rounds ih =>
      intro m hsize
      rw [settleWithin]
      split
      · assumption
      · next hne =>
        obtain ⟨id, hid⟩ := List.exists_mem_of_ne_nil _ hne
        have hlt := size_heap_freeAll_lt hid (mem_unreferenced.mp hid).1
        exact ih (m.freeAll (m.unreferenced kept)) (by omega)
  exact hwithin _ m (Nat.le_refl _)

/-- What is left was there before. -/
theorem of_getElem?_heap_settle (h : (m.settle kept).heap[x]? = some o) : m.heap[x]? = some o := by
  refine settle_induction (P := fun m' ↦ m'.heap[x]? = some o → m.heap[x]? = some o) kept id
    (fun m' hm' hround ↦ hm' ?_) h
  exact (of_getElem?_heap_freeAll hround).2

/-- Where nothing is unreferenced, nothing is removed. -/
theorem settle_of_unreferenced (h : m.unreferenced kept = []) : m.settle kept = m := by
  rw [settle]
  cases m.heap.size with
  | zero => rfl
  | succ rounds => rw [settleWithin, h]

/-! ## Reachability -/

/-- An object can be reached from the roots. -/
inductive Reaches (m : Machine) : ObjectId → Prop
  | root {id : ObjectId} (h : id ∈ m.roots) : Reaches m id
  | step {x id : ObjectId} {o : Object} (h : Reaches m x) (ho : m.heap[x]? = some o)
    (hid : id ∈ o.references) : Reaches m id

/-- Roots and objects refer to objects that are there. -/
structure Closed (m : Machine) : Prop where
  roots : ∀ {id}, id ∈ m.roots → id ∈ m.heap
  references : ∀ {x : ObjectId} {o : Object} {id}, m.heap[x]? = some o →
    id ∈ o.references → id ∈ m.heap

theorem Closed.mem_of_reaches (h : Closed m) (hreach : m.Reaches id) : id ∈ m.heap := by
  induction hreach with
  | root hroot => exact h.roots hroot
  | step _ ho hid => exact h.references ho hid

theorem Closed.mem_of_object (h : Closed m) (hid : id ∈ (m.object x).references) :
    id ∈ m.heap := by
  by_cases hx : x ∈ m.heap
  · exact h.references (getElem?_of_mem hx) hid
  · rw [object_of_notMem hx] at hid
    cases hid

/-- Settling removes nothing that can be reached. -/
theorem Closed.mem_settle (h : Closed m) (kept : List ObjectId) (hreach : m.Reaches id) :
    id ∈ (m.settle kept).heap := by
  -- Each round leaves the roots as they are, and the objects that are left.
  have hall : (m.settle kept).roots = m.roots ∧
      (∀ (x : ObjectId) o, (m.settle kept).heap[x]? = some o → m.heap[x]? = some o) ∧
      ∀ x, m.Reaches x → x ∈ (m.settle kept).heap := by
    refine settle_induction (P := fun m' ↦ m'.roots = m.roots ∧
        (∀ (x : ObjectId) o, m'.heap[x]? = some o → m.heap[x]? = some o) ∧
        ∀ x, m.Reaches x → x ∈ m'.heap) kept ⟨rfl, fun _ _ ho ↦ ho, fun _ ↦ h.mem_of_reaches⟩ ?_
    intro m' hm'
    obtain ⟨hroots, hleft, hreached⟩ := hm'
    refine ⟨?_, fun x o ho ↦ hleft x o (of_getElem?_heap_freeAll ho).2, fun x hx ↦ ?_⟩
    · rw [← hroots, freeAll_eq]
      rfl
    · refine mem_heap_freeAll.mpr ⟨fun hun ↦ (mem_unreferenced.mp hun).2 ?_, hreached x hx⟩
      cases hx with
      | root hroot => exact mem_referenced.mpr (.inr (.inl (hroots ▸ hroot)))
      | @step y _ o hy ho hid =>
        obtain ⟨o', ho'⟩ := mem_heap_iff.mp (hreached y hy)
        obtain rfl : o = o' := Option.some.inj (ho.symm.trans (hleft y o' ho'))
        exact mem_referenced.mpr (.inr (.inr ⟨y, o, ho', hid⟩))
  exact hall.2.2 id hreach

section Spread

variable {set : ObjectSet} {newest : List ObjectId}

/-- What is added is new, and afterwards the set has both. -/
theorem addAll_spec (ids : List ObjectId) (set : ObjectSet) :
    (∀ x, x ∈ (addAll ids set).2 ↔ x ∈ set ∨ x ∈ (addAll ids set).1) ∧
      (∀ x ∈ ids, x ∈ (addAll ids set).2) ∧ (∀ x ∈ (addAll ids set).1, x ∈ ids) ∧
      (addAll ids set).2.size = set.size + (addAll ids set).1.length := by
  induction ids generalizing set with
  | nil => simp [addAll]
  | cons id ids ih =>
    rw [addAll]
    split
    · next hid =>
      obtain ⟨hmem, hall, hnew, hsize⟩ := ih set
      refine ⟨hmem, fun x hx ↦ ?_, fun x hx ↦ List.mem_cons_of_mem id (hnew x hx), hsize⟩
      rcases List.mem_cons.mp hx with rfl | hx
      · exact (hmem x).mpr (.inl (Std.ExtTreeSet.contains_iff_mem.mp hid))
      · exact hall x hx
    · next hid =>
      obtain ⟨hmem, hall, hnew, hsize⟩ := ih (set.insert id)
      have hboth : ∀ x, x ∈ (addAll ids (set.insert id)).2 ↔
          x ∈ set ∨ x ∈ id :: (addAll ids (set.insert id)).1 := by
        intro x
        rw [hmem, Std.ExtTreeSet.mem_insert, Std.compare_eq_iff_eq, List.mem_cons]
        tauto
      refine ⟨hboth, fun x hx ↦ ?_, fun x hx ↦ ?_, ?_⟩
      · rcases List.mem_cons.mp hx with rfl | hx
        · exact (hboth x).mpr (.inr (List.mem_cons_self ..))
        · exact hall x hx
      · rcases List.mem_cons.mp hx with rfl | hx
        · exact List.mem_cons_self ..
        · exact List.mem_cons_of_mem id (hnew x hx)
      · rw [Std.ExtTreeSet.size_insert, if_neg (by simpa using hid)] at hsize
        simp only [hsize, List.length_cons]
        omega

/-- A set of objects on the heap is no larger than the heap. -/
theorem size_le_of_subset (h : ∀ x ∈ set, x ∈ m.heap) : set.size ≤ m.heap.size := by
  have hnodup : set.toList.Nodup :=
    Std.ExtTreeSet.distinct_toList.imp fun h heq ↦ h (by simp [heq])
  have hsubset : set.toList ⊆ m.heap.keys := fun x hx ↦
    Std.ExtTreeMap.mem_keys.mpr (h x (Std.ExtTreeSet.mem_toList.mp hx))
  have hle := (List.Nodup.subperm hnodup hsubset).length_le
  rwa [Std.ExtTreeSet.length_toList, Std.ExtTreeMap.length_keys] at hle

/-- A set as large as the heap has every object. -/
theorem mem_of_size (h : ∀ x ∈ set, x ∈ m.heap) (hsize : m.heap.size ≤ set.size)
    (hx : x ∈ m.heap) : x ∈ set := by
  by_contra hnot
  have hlarger : (set.insert x).size ≤ m.heap.size := size_le_of_subset fun y hy ↦ by
    rw [Std.ExtTreeSet.mem_insert, Std.compare_eq_iff_eq] at hy
    exact hy.elim (fun heq ↦ heq ▸ hx) (h y)
  rw [Std.ExtTreeSet.size_insert, if_neg (by simpa using hnot)] at hlarger
  omega

/-- The search is complete if its steps suffice for the objects that it has not found yet. -/
theorem Closed.spread (h : Closed m) (steps : Nat) (hset : ∀ x ∈ set, x ∈ m.heap)
    (hdone : ∀ x ∈ set, x ∈ newest ∨ ∀ y ∈ (m.object x).references, y ∈ set)
    (hsteps : m.heap.size ≤ set.size + steps) :
    (∀ x ∈ set, x ∈ m.spread steps newest set) ∧
      ∀ x ∈ m.spread steps newest set, ∀ y ∈ (m.object x).references,
        y ∈ m.spread steps newest set := by
  induction steps generalizing newest set with
  | zero => exact ⟨fun _ hx ↦ hx, fun x _ y hy ↦ mem_of_size hset hsteps (h.mem_of_object hy)⟩
  | succ steps ih =>
    let next := newest.flatMap fun id ↦ (m.object id).references
    obtain ⟨hmem, hall, hnew, hsize⟩ := addAll_spec next set
    rw [Machine.spread]
    split
    · next set' hadd =>
      have hsame : ∀ x, x ∈ set' ↔ x ∈ set := by
        intro x
        have := hmem x
        simpa [next, hadd] using this
      refine ⟨fun x hx ↦ (hsame x).mpr hx, fun x hx y hy ↦ ?_⟩
      rcases hdone x ((hsame x).mp hx) with hnewest | hold
      · have := hall y (List.mem_flatMap.mpr ⟨x, hnewest, hy⟩)
        simpa [next, hadd] using this
      · exact (hsame y).mpr (hold y hy)
    · next added set' hne hadd =>
      have hset' : ∀ x, x ∈ set' ↔ x ∈ set ∨ x ∈ added := by
        intro x
        have := hmem x
        simpa [next, hadd] using this
      have hgrown : set'.size = set.size + added.length := by simpa [next, hadd] using hsize
      have hpos : 0 < added.length := List.length_pos_iff.mpr hne
      have hadded : ∀ x ∈ added, x ∈ next := by simpa [next, hadd] using hnew
      have hheap : ∀ x ∈ set', x ∈ m.heap := by
        intro x hx
        rcases (hset' x).mp hx with hold | hx
        · exact hset x hold
        · obtain ⟨y, -, hy⟩ := List.mem_flatMap.mp (hadded x hx)
          exact h.mem_of_object hy
      have hdone' : ∀ x ∈ set', x ∈ added ∨ ∀ y ∈ (m.object x).references, y ∈ set' := by
        intro x hx
        rcases (hset' x).mp hx with hold | hx
        · right
          intro y hy
          rcases hdone x hold with hnewest | hrefs
          · have := hall y (List.mem_flatMap.mpr ⟨x, hnewest, hy⟩)
            simpa [next, hadd] using this
          · exact (hset' y).mpr (.inl (hrefs y hy))
        · exact .inl hx
      obtain ⟨hkeep, hclosed⟩ := ih hheap hdone' (by omega)
      exact ⟨fun x hx ↦ hkeep x ((hset' x).mpr (.inl hx)), hclosed⟩

end Spread

/-- The search finds the roots, and whatever an object that it finds refers to. -/
theorem Closed.reachable (h : Closed m) : (∀ id ∈ m.roots, id ∈ m.reachable) ∧
    ∀ x ∈ m.reachable, ∀ y ∈ (m.object x).references, y ∈ m.reachable := by
  obtain ⟨hmem, hall, hnew, -⟩ := addAll_spec m.roots ∅
  have hfirst : ∀ x, x ∈ (addAll m.roots ∅).2 ↔ x ∈ (addAll m.roots ∅).1 := by
    intro x
    simpa using hmem x
  have hheap : ∀ x ∈ (addAll m.roots ∅).2, x ∈ m.heap :=
    fun x hx ↦ h.roots (hnew x ((hfirst x).mp hx))
  obtain ⟨hkeep, hclosed⟩ := h.spread m.heap.size hheap (fun x hx ↦ .inl ((hfirst x).mp hx))
    (Nat.le_add_left _ _)
  exact ⟨fun id hid ↦ hkeep id (hall id hid), hclosed⟩

/-- A sweep removes nothing that can be reached. -/
theorem Closed.mem_reachable (h : Closed m) (hreach : m.Reaches id) : id ∈ m.reachable := by
  induction hreach with
  | root hroot => exact h.reachable.1 _ hroot
  | step _ ho hid ih =>
    exact h.reachable.2 _ ih _ (by rwa [object_of_getElem? ho])

/-- The objects that a sweep removes. -/
def swept (m : Machine) : List ObjectId := m.heap.keys.filter fun id ↦ !m.reachable.contains id

theorem sweep_eq (m : Machine) : m.sweep = m.freeAll m.swept :=
  rfl

theorem mem_swept : id ∈ m.swept ↔ id ∈ m.heap ∧ id ∉ m.reachable := by
  simp [swept, ← Std.ExtTreeSet.contains_iff_mem]

end ScriptBridge.Script.Machine
