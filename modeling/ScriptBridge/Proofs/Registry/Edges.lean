import ScriptBridge.Proofs.Registry.Coherence

/-!
# Counts, marks and edges

The operations that change wrappers in place leave both indexes and all numbers alone. Counting
roots and marking payloads do not touch edges; attaching and detaching change one edge, in both
directions at once, and neither a count nor a mark.
-/

namespace ScriptBridge.Registry

variable {r : Registry} {id owner child : WrapperId} {w v : Wrapper}

/-! ## Changes in place -/

/-- A wrapper has noted that another one keeps it alive. -/
def KnowsParent (r : Registry) (child owner : WrapperId) : Prop :=
  ∃ v, r.get? child = some v ∧ owner ∈ v.parents

theorem Coherent.hasEdge_iff_knowsParent (hr : r.Coherent) :
    r.hasEdge owner child = true ↔ r.KnowsParent child owner := by
  rw [hasEdge_iff]
  constructor
  · rintro ⟨w, hw, hchild⟩
    exact hr.parent_of_child hw hchild
  · rintro ⟨v, hv, hparent⟩
    exact hr.child_of_parent hv hparent

/-- What a wrapper is called on either side. -/
def namesOf (w : Wrapper) : NativeId × Handle := (w.native, w.handle)

/-- Changes in place keep a registry coherent if they keep all names and leave the two directions
of the edges in agreement. -/
theorem Coherent.of_names {r' : Registry} (hr : r.Coherent)
    (hnative : ∀ native, r'.find? native = r.find? native)
    (hhandle : ∀ handle, r'.findByHandle? handle = r.findByHandle? handle)
    (hnext : r'.next = r.next)
    (hnames : ∀ id, (r'.get? id).map namesOf = (r.get? id).map namesOf)
    (hends : ∀ owner child, r'.hasEdge owner child = true ↔ r'.KnowsParent child owner) :
    r'.Coherent := by
  have hkept : ∀ {id w}, r.get? id = some w →
      ∃ v, r'.get? id = some v ∧ v.native = w.native ∧ v.handle = w.handle := by
    intro id w hw
    have h := hnames id
    rw [hw, Option.map_some] at h
    obtain ⟨v, hv, hsame⟩ := Option.map_eq_some_iff.mp h
    exact ⟨v, hv, congrArg Prod.fst hsame, congrArg Prod.snd hsame⟩
  constructor
  · intro native found hfind
    obtain ⟨w, hw, hname⟩ := hr.native_of_find? (hnative native ▸ hfind)
    obtain ⟨v, hv, hsame, -⟩ := hkept hw
    exact ⟨v, hv, hsame.trans hname⟩
  · intro handle found hfind
    obtain ⟨w, hw, hname⟩ := hr.handle_of_findByHandle? (hhandle handle ▸ hfind)
    obtain ⟨v, hv, -, hsame⟩ := hkept hw
    exact ⟨v, hv, hsame.trans hname⟩
  · intro id v hv
    have h := hnames id
    rw [hv, Option.map_some] at h
    obtain ⟨w, hw, -⟩ := Option.map_eq_some_iff.mp h.symm
    exact hnext ▸ hr.index_lt hw
  · intro owner child w hw hchild
    exact (hends owner child).mp (hasEdge_iff.mpr ⟨w, hw, hchild⟩)
  · intro owner child v hv hparent
    exact hasEdge_iff.mp ((hends owner child).mpr ⟨v, hv, hparent⟩)

theorem hasEdge_modify (r : Registry) (id : WrapperId) {f : Wrapper → Wrapper}
    (hf : ∀ w, (f w).children = w.children) (owner child : WrapperId) :
    (r.modify id f).hasEdge owner child = r.hasEdge owner child := by
  rw [hasEdge, hasEdge, get?_modify]
  split
  · cases r.get? owner <;> simp [Wrapper.hasChild, hf]
  · rfl

/-! ## Root counts and marks -/

/-- Counts and marks may change freely. -/
theorem Coherent.modify (hr : r.Coherent) (id : WrapperId) {f : Wrapper → Wrapper}
    (hnames : ∀ w, namesOf (f w) = namesOf w) (hchildren : ∀ w, (f w).children = w.children)
    (hparents : ∀ w, (f w).parents = w.parents) : (r.modify id f).Coherent := by
  apply hr.of_names (find?_modify r id f) (findByHandle?_modify r id f) rfl
  · intro asked
    rw [get?_modify]
    split
    · rw [Option.map_map]
      congr 1
      funext w
      exact hnames w
    · rfl
  · intro owner child
    rw [hasEdge_modify r id hchildren, hr.hasEdge_iff_knowsParent]
    simp only [KnowsParent, get?_modify]
    split
    · cases r.get? child <;> simp [hparents]
    · rfl

theorem Coherent.root (hr : r.Coherent) (id : WrapperId) : (r.root id).2.Coherent :=
  hr.modify id (fun _ ↦ rfl) (fun _ ↦ rfl) fun _ ↦ rfl

theorem Coherent.unroot (hr : r.Coherent) (id : WrapperId) : (r.unroot id).2.Coherent :=
  hr.modify id (fun _ ↦ rfl) (fun _ ↦ rfl) fun _ ↦ rfl

theorem Coherent.clearRoots (hr : r.Coherent) (id : WrapperId) : (r.clearRoots id).Coherent :=
  hr.modify id (fun _ ↦ rfl) (fun _ ↦ rfl) fun _ ↦ rfl

theorem Coherent.markPrivateData (hr : r.Coherent) (id : WrapperId) :
    (r.markPrivateData id).Coherent :=
  hr.modify id (fun _ ↦ rfl) (fun _ ↦ rfl) fun _ ↦ rfl

/-- The count that a new root gives. -/
theorem root_fst (h : r.get? id = some w) : (r.root id).1 = some w.addRoot.roots := by
  simp [Registry.root, roots?, get?_modify, h]

/-- The count that is left when a root goes. -/
theorem unroot_fst (h : r.get? id = some w) : (r.unroot id).1 = some (w.roots - 1) := by
  simp [Registry.unroot, roots?, get?_modify, h]

/-- A first root makes a difference. -/
theorem root_ne (h : r.get? id = some w) (hroots : w.roots = 0) : (r.root id).2 ≠ r := by
  intro heq
  have hcount : (r.root id).2.roots? id = some w.addRoot.roots := root_fst h
  rw [heq, roots?, h, Option.map_some, Option.some.injEq, hroots] at hcount
  exact absurd w.roots_addRoot_pos (hcount ▸ Nat.lt_irrefl 0)

/-- Taking a root away makes a difference, if there is one. -/
theorem unroot_ne (h : r.get? id = some w) (hroots : w.roots ≠ 0) : (r.unroot id).2 ≠ r := by
  intro heq
  have hcount : (r.unroot id).2.roots? id = some (w.roots - 1) := unroot_fst h
  rw [heq, roots?, h, Option.map_some, Option.some.injEq] at hcount
  omega

/-- Taking all roots of a wrapper away before it is removed makes no difference. -/
theorem remove_clearRoots (r : Registry) (id : WrapperId) :
    ((r.clearRoots id).remove id).2 = (r.remove id).2 := by
  have hget : (r.clearRoots id).get? id = (r.get? id).map ({ · with roots := 0 }) := by
    rw [Registry.clearRoots, get?_modify, if_pos rfl]
  have hgone : (r.clearRoots id).wrappers.erase id = r.wrappers.erase id := by
    apply Std.ExtTreeMap.ext_getElem?
    intro other
    simp only [Registry.clearRoots, Registry.modify, Std.ExtTreeMap.getElem?_erase,
      Std.ExtTreeMap.getElem?_modify, Std.LawfulEqCmp.compare_eq_iff_eq]
    split <;> rfl
  cases h : r.get? id with
  | none =>
    rw [h, Option.map_none] at hget
    rw [remove_of_unknown hget, remove_of_unknown h]
    have hsame : r.wrappers.modify id ({ · with roots := 0 }) = r.wrappers := by
      apply Std.ExtTreeMap.ext_getElem?
      intro other
      rw [Std.ExtTreeMap.getElem?_modify]
      split
      · next heq =>
        rw [Std.LawfulEqCmp.compare_eq_iff_eq] at heq
        subst heq
        change (r.get? id).map _ = r.get? id
        rw [h, Option.map_none]
      · rfl
    simp only [Registry.clearRoots, Registry.modify, hsame]
  | some w =>
    rw [h, Option.map_some] at hget
    simp only [Registry.remove, hget, h, hgone]
    rfl

/-! ## Edges -/

theorem attach_snd (r : Registry) (owner child : WrapperId) : (r.attach owner child).2 =
    if (r.attach owner child).1 = true then
      (r.modify owner (Wrapper.addChild child)).modify child (Wrapper.addParent owner)
    else r := by
  simp only [attach]
  split <;> rfl

theorem detach_snd (r : Registry) (owner child : WrapperId) : (r.detach owner child).2 =
    if (r.detach owner child).1 = true then
      (r.modify owner (Wrapper.dropChild child)).modify child (Wrapper.dropParent owner)
    else r := by
  simp only [detach]
  split <;> rfl

theorem attach_fst_iff : (r.attach owner child).1 = true ↔
    (∃ w, r.get? owner = some w) ∧ (∃ v, r.get? child = some v) ∧
      r.hasEdge owner child = false := by
  simp only [attach]
  rw [← contains_wrappers, ← contains_wrappers]
  cases r.wrappers.contains owner <;> cases r.wrappers.contains child <;>
    cases r.hasEdge owner child <;> simp

theorem detach_fst (r : Registry) (owner child : WrapperId) :
    (r.detach owner child).1 = r.hasEdge owner child := by
  simp only [detach]
  cases r.hasEdge owner child <;> rfl

/-- What attaching makes of the wrapper asked for. -/
def linked (owner child asked : WrapperId) (w : Wrapper) : Wrapper :=
  let w := if owner = asked then w.addChild child else w
  if child = asked then w.addParent owner else w

/-- What detaching makes of the wrapper asked for. -/
def unlinked (owner child asked : WrapperId) (w : Wrapper) : Wrapper :=
  let w := if owner = asked then w.dropChild child else w
  if child = asked then w.dropParent owner else w

/-- What a change of an edge leaves alone. -/
structure SameRecord (w v : Wrapper) : Prop where
  native : v.native = w.native
  handle : v.handle = w.handle
  roots : v.roots = w.roots
  hasPrivateData : v.hasPrivateData = w.hasPrivateData

theorem sameRecord_linked (owner child asked : WrapperId) (w : Wrapper) :
    SameRecord w (linked owner child asked w) := by
  by_cases howner : owner = asked <;> by_cases hchild : child = asked <;>
    (simp only [linked, howner, hchild, if_true, if_false]; exact ⟨rfl, rfl, rfl, rfl⟩)

theorem sameRecord_unlinked (owner child asked : WrapperId) (w : Wrapper) :
    SameRecord w (unlinked owner child asked w) := by
  by_cases howner : owner = asked <;> by_cases hchild : child = asked <;>
    (simp only [unlinked, howner, hchild, if_true, if_false]; exact ⟨rfl, rfl, rfl, rfl⟩)

theorem children_linked (owner child asked : WrapperId) (w : Wrapper) :
    (linked owner child asked w).children =
      if owner = asked then w.children.insert child else w.children := by
  simp only [linked]
  split <;> split <;> rfl

theorem parents_linked (owner child asked : WrapperId) (w : Wrapper) :
    (linked owner child asked w).parents =
      if child = asked then w.parents.insert owner else w.parents := by
  simp only [linked]
  split <;> split <;> rfl

theorem children_unlinked (owner child asked : WrapperId) (w : Wrapper) :
    (unlinked owner child asked w).children =
      if owner = asked then w.children.erase child else w.children := by
  simp only [unlinked]
  split <;> split <;> rfl

theorem parents_unlinked (owner child asked : WrapperId) (w : Wrapper) :
    (unlinked owner child asked w).parents =
      if child = asked then w.parents.erase owner else w.parents := by
  simp only [unlinked]
  split <;> split <;> rfl

theorem mem_children_linked {asked b : WrapperId} : b ∈ (linked owner child asked w).children ↔
    b ∈ w.children ∨ (asked = owner ∧ b = child) := by
  rw [children_linked]
  split
  · next h => rw [WrapperId.mem_insert, or_comm, h]; simp
  · next h => simp [Ne.symm h]

theorem mem_parents_linked {asked a : WrapperId} : a ∈ (linked owner child asked w).parents ↔
    a ∈ w.parents ∨ (a = owner ∧ asked = child) := by
  rw [parents_linked]
  split
  · next h => rw [WrapperId.mem_insert, or_comm, h]; simp
  · next h => simp [Ne.symm h]

theorem mem_children_unlinked {asked b : WrapperId} :
    b ∈ (unlinked owner child asked w).children ↔
      b ∈ w.children ∧ ¬ (asked = owner ∧ b = child) := by
  rw [children_unlinked]
  split
  · next h => rw [WrapperId.mem_erase, and_comm, h]; simp
  · next h => simp [Ne.symm h]

theorem mem_parents_unlinked {asked a : WrapperId} :
    a ∈ (unlinked owner child asked w).parents ↔
      a ∈ w.parents ∧ ¬ (a = owner ∧ asked = child) := by
  rw [parents_unlinked]
  split
  · next h => rw [WrapperId.mem_erase, and_comm, h]; simp
  · next h => simp [Ne.symm h]

theorem get?_attach (r : Registry) (owner child asked : WrapperId) :
    (r.attach owner child).2.get? asked =
      if (r.attach owner child).1 = true then (r.get? asked).map (linked owner child asked)
      else r.get? asked := by
  rw [attach_snd]
  split
  · rw [get?_modify, get?_modify]
    by_cases howner : owner = asked <;> by_cases hchild : child = asked <;>
      cases r.get? asked <;> simp [linked, howner, hchild]
  · rfl

theorem get?_detach (r : Registry) (owner child asked : WrapperId) :
    (r.detach owner child).2.get? asked =
      if (r.detach owner child).1 = true then (r.get? asked).map (unlinked owner child asked)
      else r.get? asked := by
  rw [detach_snd]
  split
  · rw [get?_modify, get?_modify]
    by_cases howner : owner = asked <;> by_cases hchild : child = asked <;>
      cases r.get? asked <;> simp [unlinked, howner, hchild]
  · rfl

/-- Attaching adds the edge asked for, if it adds any. -/
theorem hasEdge_attach {a b : WrapperId} : (r.attach owner child).2.hasEdge a b = true ↔
    r.hasEdge a b = true ∨ ((r.attach owner child).1 = true ∧ a = owner ∧ b = child) := by
  by_cases hnew : (r.attach owner child).1 = true
  · obtain ⟨⟨w, hw⟩, -, -⟩ := attach_fst_iff.mp hnew
    rw [hasEdge_iff, hasEdge_iff, get?_attach, if_pos hnew]
    cases ha : r.get? a with
    | none =>
      have hne : a ≠ owner := by
        rintro rfl
        rw [hw] at ha
        cases ha
      simp [hne]
    | some v => simp [mem_children_linked, hnew]
  · rw [attach_snd, if_neg hnew]
    simp [hnew]

theorem knowsParent_attach {a b : WrapperId} : (r.attach owner child).2.KnowsParent b a ↔
    r.KnowsParent b a ∨ ((r.attach owner child).1 = true ∧ a = owner ∧ b = child) := by
  by_cases hnew : (r.attach owner child).1 = true
  · obtain ⟨-, ⟨v, hv⟩, -⟩ := attach_fst_iff.mp hnew
    rw [KnowsParent, KnowsParent, get?_attach, if_pos hnew]
    cases hb : r.get? b with
    | none =>
      have hne : b ≠ child := by
        rintro rfl
        rw [hv] at hb
        cases hb
      simp [hne]
    | some v => simp [mem_parents_linked, hnew]
  · rw [attach_snd, if_neg hnew]
    simp [hnew]

/-- Detaching takes the edge asked for away, if it takes any. -/
theorem hasEdge_detach {a b : WrapperId} : (r.detach owner child).2.hasEdge a b = true ↔
    r.hasEdge a b = true ∧ ¬ (a = owner ∧ b = child) := by
  by_cases hold : r.hasEdge owner child = true
  · rw [hasEdge_iff, hasEdge_iff, get?_detach, detach_fst, if_pos hold]
    cases r.get? a <;> simp [mem_children_unlinked]
  · rw [detach_snd, detach_fst, if_neg hold]
    refine ⟨fun h ↦ ⟨h, ?_⟩, And.left⟩
    rintro ⟨rfl, rfl⟩
    exact hold h

theorem Coherent.knowsParent_detach (hr : r.Coherent) {a b : WrapperId} :
    (r.detach owner child).2.KnowsParent b a ↔
      r.KnowsParent b a ∧ ¬ (a = owner ∧ b = child) := by
  by_cases hold : r.hasEdge owner child = true
  · rw [KnowsParent, KnowsParent, get?_detach, detach_fst, if_pos hold]
    cases r.get? b <;> simp [mem_parents_unlinked]
  · rw [detach_snd, detach_fst, if_neg hold]
    refine ⟨fun h ↦ ⟨h, ?_⟩, And.left⟩
    rintro ⟨rfl, rfl⟩
    exact hold (hr.hasEdge_iff_knowsParent.mpr h)

theorem Coherent.attach (hr : r.Coherent) (owner child : WrapperId) :
    (r.attach owner child).2.Coherent := by
  apply hr.of_names
  · intro native
    rw [attach_snd]
    split <;> rfl
  · intro handle
    rw [attach_snd]
    split <;> rfl
  · rw [attach_snd]
    split <;> rfl
  · intro id
    rw [get?_attach]
    split
    · cases r.get? id with
      | none => rfl
      | some w =>
        have hsame := sameRecord_linked owner child id w
        simp only [Option.map_some, namesOf, hsame.native, hsame.handle]
    · rfl
  · intro a b
    rw [hasEdge_attach, knowsParent_attach, hr.hasEdge_iff_knowsParent]

theorem Coherent.detach (hr : r.Coherent) (owner child : WrapperId) :
    (r.detach owner child).2.Coherent := by
  apply hr.of_names
  · intro native
    rw [detach_snd]
    split <;> rfl
  · intro handle
    rw [detach_snd]
    split <;> rfl
  · rw [detach_snd]
    split <;> rfl
  · intro id
    rw [get?_detach]
    split
    · cases r.get? id with
      | none => rfl
      | some w =>
        have hsame := sameRecord_unlinked owner child id w
        simp only [Option.map_some, namesOf, hsame.native, hsame.handle]
    · rfl
  · intro a b
    rw [hasEdge_detach, hr.knowsParent_detach, hr.hasEdge_iff_knowsParent]

/-- Attaching keeps the record of every wrapper, apart from its edges. -/
theorem sameRecord_of_attach (h : (r.attach owner child).2.get? id = some v) :
    ∃ w, r.get? id = some w ∧ SameRecord w v := by
  rw [get?_attach] at h
  split at h
  · obtain ⟨w, hw, rfl⟩ := Option.map_eq_some_iff.mp h
    exact ⟨w, hw, sameRecord_linked owner child id w⟩
  · exact ⟨v, h, rfl, rfl, rfl, rfl⟩

/-- What attaching two known wrappers makes of any wrapper. -/
theorem of_get?_attach (howner : r.get? owner = some w) {u : Wrapper}
    (hchild : r.get? child = some u) (h : (r.attach owner child).2.get? id = some v) :
    ∃ old, r.get? id = some old ∧ SameRecord old v ∧
      ∀ {other}, other ∈ v.children ↔ other ∈ old.children ∨ (id = owner ∧ other = child) := by
  rw [get?_attach] at h
  split at h
  · obtain ⟨old, hold, rfl⟩ := Option.map_eq_some_iff.mp h
    exact ⟨old, hold, sameRecord_linked owner child id old, mem_children_linked⟩
  · next hnot =>
    refine ⟨v, h, ⟨rfl, rfl, rfl, rfl⟩, fun {other} ↦ ⟨.inl, ?_⟩⟩
    rintro (hold | ⟨rfl, rfl⟩)
    · exact hold
    · cases hedge : r.hasEdge id other with
      | false => exact absurd (attach_fst_iff.mpr ⟨⟨w, howner⟩, ⟨u, hchild⟩, hedge⟩) hnot
      | true =>
        obtain ⟨old, hold, hmem⟩ := hasEdge_iff.mp hedge
        rw [h, Option.some.injEq] at hold
        exact hold ▸ hmem

/-- What detaching makes of any wrapper. -/
theorem of_get?_detach (h : (r.detach owner child).2.get? id = some v) :
    ∃ old, r.get? id = some old ∧ SameRecord old v ∧
      ∀ {other}, other ∈ v.children ↔ other ∈ old.children ∧ ¬ (id = owner ∧ other = child) := by
  rw [get?_detach, detach_fst] at h
  split at h
  · obtain ⟨old, hold, rfl⟩ := Option.map_eq_some_iff.mp h
    exact ⟨old, hold, sameRecord_unlinked owner child id old, mem_children_unlinked⟩
  · next hnot =>
    refine ⟨v, h, ⟨rfl, rfl, rfl, rfl⟩, ⟨fun hmem ↦ ⟨hmem, ?_⟩, And.left⟩⟩
    rintro ⟨rfl, rfl⟩
    exact hnot (hasEdge_iff.mpr ⟨v, h, hmem⟩)

end ScriptBridge.Registry
