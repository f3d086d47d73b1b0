import ScriptBridge.Proofs.Script.Entrusting

/-!
# Holders of children

What an owner keeps alive for the bridge hangs on a holder of its own, as the bridge made it. But
the holder is looked for as any property is, so an owner that has none uses the holder of the
nearest of its prototypes that has one. Then the child belongs to that prototype.
-/

namespace ScriptBridge.Script

variable {α : Type} {o : Object} {child other : Handle}

/-! ## Keys -/

theorem childKey_inj : childKey child = childKey other ↔ child = other := by
  refine ⟨fun h ↦ ?_, fun h ↦ h ▸ rfl⟩
  have hdigits : Nat.toDigits 10 child.index = Nat.toDigits 10 other.index :=
    String.ofList_injective ((String.append_right_inj "h").mp h)
  have hindex : child.index = other.index := by
    rw [← Nat.ofDigitChars_toDigits (b := 10) (n := child.index) (by decide) (Nat.le_refl 10),
      hdigits, Nat.ofDigitChars_toDigits (by decide) (Nat.le_refl 10)]
  cases child
  cases other
  exact congrArg Handle.mk hindex

/-- Every key of a child begins with a letter that the keys of the bridge do not begin with. -/
theorem childKey_ne {key : String} (h : key.toList.head? = some '_') : childKey child ≠ key := by
  rintro rfl
  simp [childKey] at h

theorem childKey_ne_childrenKey : childKey child ≠ childrenKey := childKey_ne rfl

theorem childKey_ne_payloadKey : childKey child ≠ payloadKey := childKey_ne rfl

theorem childrenKey_ne_payloadKey : childrenKey ≠ payloadKey := by decide

/-! ## Holders -/

namespace Object

/-- The holder that an object has of its own. -/
def holder? (o : Object) : Option ObjectId :=
  match o.own? childrenKey with
  | some ⟨.data (.object holder), _⟩ => some holder
  | _ => none

/-- The object that a holder has for a child. -/
def childAt? (o : Object) (child : Handle) : Option ObjectId :=
  match o.own? (childKey child) with
  | some ⟨.data (.object y), _⟩ => some y
  | _ => none

/-- A property by which a holder keeps an object. -/
def entryOf (y : ObjectId) : Property := ⟨.data (.object y), .plain⟩

/-- The object is a holder as the bridge makes them, and holds children for nobody else. -/
structure IsHolder (o : Object) : Prop where
  kind : o.kind = .ordinary
  prototype : o.prototype = some Realm.objectPrototype
  extensible : o.extensible = true
  entries : ∀ {child p}, o.own? (childKey child) = some p → ∃ y, p = entryOf y

theorem own?_erase_self (o : Object) (key : String) : (o.erase key).own? key = none := by
  cases h : (o.erase key).own? key with
  | none => rfl
  | some p =>
    have hmem := (List.mem_filter.mp (mem_of_own? h)).2
    simp at hmem

theorem own?_erase_of_ne (o : Object) {key other : String} (h : other ≠ key) :
    (o.erase key).own? other = o.own? other := by
  unfold own? erase
  induction o.properties with
  | nil => rfl
  | cons entry entries ih =>
    obtain ⟨k, q⟩ := entry
    by_cases hk : k = key
    · subst hk
      have hne : (other == k) = false := by simpa using h
      simp [List.lookup_cons, hne, ih]
    · simp [hk, List.lookup_cons, ih]

namespace IsHolder

theorem isArray (h : o.IsHolder) : o.isArray = false := by rw [Object.isArray, h.kind]

theorem put (h : o.IsHolder) (child : Handle) (y : ObjectId) :
    (o.put (childKey child) (entryOf y)).IsHolder where
  kind := h.kind
  prototype := h.prototype
  extensible := h.extensible
  entries {other p} hp := by
    by_cases hkey : childKey other = childKey child
    · rw [hkey, own?_put_self] at hp
      exact ⟨y, (Option.some.inj hp).symm⟩
    · rw [own?_put_of_ne o hkey] at hp
      exact h.entries hp

theorem erase (h : o.IsHolder) (child : Handle) : (o.erase (childKey child)).IsHolder where
  kind := h.kind
  prototype := h.prototype
  extensible := h.extensible
  entries {other p} hp := by
    by_cases hkey : childKey other = childKey child
    · rw [hkey, own?_erase_self] at hp
      cases hp
    · rw [own?_erase_of_ne o hkey] at hp
      exact h.entries hp

/-- A holder may get a holder itself. -/
theorem adopt (h : o.IsHolder) (p : Property) : (o.put childrenKey p).IsHolder where
  kind := h.kind
  prototype := h.prototype
  extensible := h.extensible
  entries hp := by
    rw [own?_put_of_ne o childKey_ne_childrenKey] at hp
    exact h.entries hp

theorem empty : (Object.empty .ordinary (some Realm.objectPrototype)).IsHolder where
  kind := rfl
  prototype := rfl
  extensible := rfl
  entries hp := by cases hp

end IsHolder

theorem childAt?_put_self (o : Object) (child : Handle) (y : ObjectId) :
    (o.put (childKey child) (entryOf y)).childAt? child = some y := by
  rw [childAt?, own?_put_self]
  rfl

theorem childAt?_put_of_ne (o : Object) (h : other ≠ child) (p : Property) :
    (o.put (childKey child) p).childAt? other = o.childAt? other := by
  rw [childAt?, own?_put_of_ne o (fun heq ↦ h (childKey_inj.mp heq)), childAt?]

theorem childAt?_erase_self (o : Object) (child : Handle) :
    (o.erase (childKey child)).childAt? child = none := by
  rw [childAt?, own?_erase_self]

theorem childAt?_erase_of_ne (o : Object) (h : other ≠ child) :
    (o.erase (childKey child)).childAt? other = o.childAt? other := by
  rw [childAt?, own?_erase_of_ne o (fun heq ↦ h (childKey_inj.mp heq)), childAt?]

end Object

namespace Machine

variable {m m' : Machine} {owner holder x y : ObjectId} {f : Object → Object}

theorem object_placed (m : Machine) (o : Object) (x : ObjectId) :
    (m.placed o).object x = if x = m.fresh then o else m.object x := by
  rw [object, getElem?_heap_placed]
  split <;> rfl

theorem object_update (hmem : owner ∈ m.heap) (f : Object → Object) (x : ObjectId) :
    (m.update owner f).object x = if x = owner then f (m.object owner) else m.object x := by
  rw [object, getElem?_heap_update, getElem?_of_mem hmem]
  split <;> rfl

/-- What the own holder of an owner keeps for a child. -/
def kept? (m : Machine) (owner : ObjectId) (child : Handle) : Option ObjectId :=
  (m.object owner).holder?.bind fun holder ↦ (m.object holder).childAt? child

/-- Scripts have left the holders alone: what leads to a holder is as the bridge made it, no two
owners have one holder, and the prototype of all holders is no owner of anything by itself. -/
structure Tended (m : Machine) : Prop where
  holder : ∀ {x p}, (m.object x).own? childrenKey = some p → ∃ holder,
    p = ⟨.data (.object holder), .fixed⟩ ∧ holder ∈ m.heap ∧ (m.object holder).IsHolder
  sole : ∀ {x y holder}, (m.object x).holder? = some holder →
    (m.object y).holder? = some holder → x = y
  there : Realm.objectPrototype ∈ m.heap
  root : (m.object Realm.objectPrototype).prototype = none
  bare : ∀ child, (m.object Realm.objectPrototype).own? (childKey child) = none

/-- A machine in which an owner has got a holder. -/
def withHolder (owner : ObjectId) (m : Machine) : Machine :=
  (m.placed (.empty .ordinary (some Realm.objectPrototype))).update owner
    (·.put childrenKey ⟨.data (.object m.fresh), .fixed⟩)

namespace Tended

/-- The property that leads to a holder is one of data. -/
theorem own?_of_holder? (h : Tended m) (hx : (m.object x).holder? = some holder) :
    (m.object x).own? childrenKey = some ⟨.data (.object holder), .fixed⟩ ∧ holder ∈ m.heap ∧
      (m.object holder).IsHolder := by
  unfold Object.holder? at hx
  split at hx
  · next found _ hown =>
    obtain rfl := Option.some.inj hx
    obtain ⟨holder, hp, hmem, hholder⟩ := h.holder hown
    obtain ⟨hcontent, rfl⟩ := Property.mk.inj hp
    obtain rfl := Datum.object.inj (Content.data.inj hcontent)
    exact ⟨hown, hmem, hholder⟩
  · cases hx

/-- The heap is all that matters. -/
theorem congr (h : Tended m) (hheap : m'.heap = m.heap) : Tended m' := by
  have hobject (x : ObjectId) : m'.object x = m.object x := by rw [object, hheap, object]
  exact
    { holder := fun {x p} hp ↦ by
        rw [hobject] at hp
        obtain ⟨holder, hp, hmem, hholder⟩ := h.holder hp
        exact ⟨holder, hp, by rwa [hheap], by rwa [hobject]⟩
      sole := fun {x y holder} hx hy ↦ by
        rw [hobject] at hx hy
        exact h.sole hx hy
      there := by rw [hheap]; exact h.there
      root := by rw [hobject]; exact h.root
      bare := fun child ↦ by rw [hobject]; exact h.bare child }

/-- The prototype of all holders is none. -/
theorem ne_root (h : Tended m) (hholder : (m.object holder).IsHolder) :
    holder ≠ Realm.objectPrototype := by
  rintro rfl
  have hprototype := hholder.prototype
  rw [h.root] at hprototype
  cases hprototype

/-! ### Changes of a holder -/

section Holder

variable (h : Tended m) (hmem : holder ∈ m.heap) (hholder : (m.object holder).IsHolder)
  (hf : (f (m.object holder)).IsHolder)
  (hkey : (f (m.object holder)).own? childrenKey = (m.object holder).own? childrenKey)

include hmem hkey

theorem own?_change (x : ObjectId) : ((m.update holder f).object x).own? childrenKey =
    (m.object x).own? childrenKey := by
  rw [object_update hmem]
  split
  · next heq => rw [heq, hkey]
  · rfl

theorem holder?_change (x : ObjectId) :
    ((m.update holder f).object x).holder? = (m.object x).holder? := by
  rw [Object.holder?, own?_change hmem hkey, Object.holder?]

include h

/-- Only the owner of a holder sees it changed. -/
theorem kept?_change (hx : (m.object owner).holder? = some holder) (x : ObjectId) (child : Handle) :
    (m.update holder f).kept? x child =
      if x = owner then (f (m.object holder)).childAt? child else m.kept? x child := by
  rw [kept?, holder?_change hmem hkey]
  split
  · next heq => rw [heq, hx, Option.bind_some, object_update hmem, if_pos rfl]
  · next hne =>
    rw [kept?]
    cases hother : (m.object x).holder? with
    | none => rfl
    | some other =>
      have hdistinct : other ≠ holder := by
        rintro rfl
        exact hne (h.sole hother hx)
      rw [Option.bind_some, Option.bind_some, object_update hmem, if_neg hdistinct]

include hholder hf

/-- A holder may get and lose children. -/
theorem change : Tended (m.update holder f) where
  holder {x p} hp := by
    rw [own?_change hmem hkey] at hp
    obtain ⟨other, rfl, hmem', hholder'⟩ := h.holder hp
    refine ⟨other, rfl, mem_heap_update.mpr hmem', ?_⟩
    rw [object_update hmem]
    split
    · exact hf
    · exact hholder'
  sole hx hy := by
    rw [holder?_change hmem hkey] at hx hy
    exact h.sole hx hy
  there := mem_heap_update.mpr h.there
  root := by
    rw [object_update hmem, if_neg (h.ne_root hholder).symm]
    exact h.root
  bare child := by
    rw [object_update hmem, if_neg (h.ne_root hholder).symm]
    exact h.bare child

end Holder

/-! ### New holders -/

section New

variable (h : Tended m) (hmem : owner ∈ m.heap) (hfresh : m.fresh ∉ m.heap)

include hmem hfresh

theorem object_withHolder (x : ObjectId) : (m.withHolder owner).object x =
    if x = owner then (m.object owner).put childrenKey ⟨.data (.object m.fresh), .fixed⟩
    else if x = m.fresh then .empty .ordinary (some Realm.objectPrototype) else m.object x := by
  have hne : owner ≠ m.fresh := fun heq ↦ hfresh (heq ▸ hmem)
  rw [withHolder, object_update (mem_heap_placed.mpr (.inr hmem)), object_placed, if_neg hne,
    object_placed]

theorem own?_withHolder (x : ObjectId) : ((m.withHolder owner).object x).own? childrenKey =
    if x = owner then some ⟨.data (.object m.fresh), .fixed⟩
    else (m.object x).own? childrenKey := by
  rw [object_withHolder hmem hfresh]
  split
  · exact Object.own?_put_self ..
  · split
    · next heq => rw [heq, object_of_notMem hfresh]; rfl
    · rfl

theorem holder?_withHolder (x : ObjectId) : ((m.withHolder owner).object x).holder? =
    if x = owner then some m.fresh else (m.object x).holder? := by
  rw [Object.holder?, own?_withHolder hmem hfresh]
  by_cases hx : x = owner
  · rw [if_pos hx, if_pos hx]
  · rw [if_neg hx, if_neg hx, Object.holder?]

omit hmem in
include h in
/-- The new holder is that of no other owner. -/
theorem holder?_ne_fresh (x : ObjectId) : (m.object x).holder? ≠ some m.fresh :=
  fun hx ↦ hfresh (h.own?_of_holder? hx).2.1

include h

/-- An owner may get a holder. -/
theorem withHolder : Tended (m.withHolder owner) where
  holder {x p} hp := by
    have hne : owner ≠ m.fresh := fun heq ↦ hfresh (heq ▸ hmem)
    rw [own?_withHolder hmem hfresh] at hp
    split at hp
    · obtain rfl := Option.some.inj hp
      refine ⟨m.fresh, rfl, mem_heap_update.mpr (mem_heap_placed.mpr (.inl rfl)), ?_⟩
      rw [object_withHolder hmem hfresh, if_neg hne.symm, if_pos rfl]
      exact .empty
    · obtain ⟨holder, rfl, hthere, hholder⟩ := h.holder hp
      have hne' : holder ≠ m.fresh := fun heq ↦ hfresh (heq ▸ hthere)
      refine ⟨holder, rfl, mem_heap_update.mpr (mem_heap_placed.mpr (.inr hthere)), ?_⟩
      rw [object_withHolder hmem hfresh, if_neg hne']
      split
      · next heq => exact heq ▸ hholder.adopt _
      · exact hholder
  sole {x y holder} hx hy := by
    rw [holder?_withHolder hmem hfresh] at hx hy
    split at hx <;> split at hy
    · next hx' hy' => exact hx'.trans hy'.symm
    · obtain rfl := Option.some.inj hx
      exact absurd hy (h.holder?_ne_fresh hfresh y)
    · obtain rfl := Option.some.inj hy
      exact absurd hx (h.holder?_ne_fresh hfresh x)
    · exact h.sole hx hy
  there := mem_heap_update.mpr (mem_heap_placed.mpr (.inr h.there))
  root := by
    rw [object_withHolder hmem hfresh]
    split
    · next heq => exact heq ▸ h.root
    · rw [if_neg (ne_of_mem_of_not_mem h.there hfresh)]
      exact h.root
  bare child := by
    rw [object_withHolder hmem hfresh]
    split
    · next heq =>
      rw [Object.own?_put_of_ne _ childKey_ne_childrenKey]
      exact heq ▸ h.bare child
    · rw [if_neg (ne_of_mem_of_not_mem h.there hfresh)]
      exact h.bare child

/-- A new holder keeps nothing. -/
theorem kept?_withHolder (x : ObjectId) (child : Handle) :
    (m.withHolder owner).kept? x child = if x = owner then none else m.kept? x child := by
  rw [kept?, holder?_withHolder hmem hfresh]
  split
  · rw [Option.bind_some, object_withHolder hmem hfresh,
      if_neg (ne_of_mem_of_not_mem hmem hfresh).symm, if_pos rfl]
    rfl
  · rw [kept?]
    cases hholder : (m.object x).holder? with
    | none => rfl
    | some holder =>
      have hne : holder ≠ m.fresh := by
        rintro rfl
        exact h.holder?_ne_fresh hfresh x hholder
      rw [Option.bind_some, Option.bind_some, object_withHolder hmem hfresh, if_neg hne]
      split
      · next heq =>
        rw [Object.childAt?, Object.own?_put_of_ne _ childKey_ne_childrenKey,
          ← heq, Object.childAt?]
      · rfl

end New

end Tended

/-! ### Removals -/

theorem references_of_own {key : String} {flags : Flags}
    (hown : o.own? key = some ⟨.data (.object x), flags⟩) : x ∈ o.references :=
  Object.mem_references.mpr
    (.inr (.inr ⟨_, Object.mem_of_own? hown, List.mem_singleton_self x⟩))

theorem own?_of_childAt? (h : o.childAt? child = some y) :
    ∃ flags, o.own? (childKey child) = some ⟨.data (.object y), flags⟩ := by
  unfold Object.childAt? at h
  split at h
  · next hown =>
    obtain rfl := Option.some.inj h
    exact ⟨_, hown⟩
  · cases h

/-- Some objects were removed, but none to which one that is left refers. -/
structure Trimmed (m m' : Machine) : Prop where
  left : ∀ {x : ObjectId} {o : Object}, m'.heap[x]? = some o → m.heap[x]? = some o
  closed : ∀ {x : ObjectId} {o : Object} {id}, m'.heap[x]? = some o → id ∈ o.references →
    id ∈ m'.heap
  there : Realm.objectPrototype ∈ m'.heap

namespace Trimmed

variable (ht : Trimmed m m')

include ht

theorem object_eq (hx : x ∈ m'.heap) : m'.object x = m.object x :=
  (object_of_getElem? (ht.left (getElem?_of_mem hx))).symm

theorem mem_of_own {key : String} {flags : Flags} (hx : x ∈ m'.heap)
    (hown : (m.object x).own? key = some ⟨.data (.object y), flags⟩) : y ∈ m'.heap := by
  rw [← ht.object_eq hx] at hown
  exact ht.closed (getElem?_of_mem hx) (references_of_own hown)

/-- Owners that are left keep what they kept. -/
theorem kept?_eq (h : Tended m) (hx : x ∈ m'.heap) (child : Handle) :
    m'.kept? x child = m.kept? x child := by
  rw [kept?, kept?, ht.object_eq hx]
  cases hholder : (m.object x).holder? with
  | none => rfl
  | some holder =>
    rw [Option.bind_some, Option.bind_some,
      ht.object_eq (ht.mem_of_own hx (h.own?_of_holder? hholder).1)]

/-- What is kept is there. -/
theorem mem_of_kept? (h : Tended m) (hkept : m'.kept? x child = some y) : y ∈ m'.heap := by
  have hx : x ∈ m'.heap := by
    by_contra hnot
    rw [kept?, object_of_notMem hnot] at hkept
    cases hkept
  rw [ht.kept?_eq h hx] at hkept
  obtain ⟨holder, hholder, hentry⟩ := Option.bind_eq_some_iff.mp hkept
  obtain ⟨flags, hown⟩ := own?_of_childAt? hentry
  exact ht.mem_of_own (ht.mem_of_own hx (h.own?_of_holder? hholder).1) hown

theorem tended (h : Tended m) : Tended m' where
  holder {x p} hp := by
    have hx : x ∈ m'.heap := by
      by_contra hnot
      rw [object_of_notMem hnot] at hp
      cases hp
    rw [ht.object_eq hx] at hp
    obtain ⟨holder, rfl, hmem, hholder⟩ := h.holder hp
    have hthere := ht.mem_of_own hx hp
    exact ⟨holder, rfl, hthere, by rwa [ht.object_eq hthere]⟩
  sole {x y holder} hx hy := by
    have hmem {z : ObjectId} (hz : (m'.object z).holder? = some holder) : z ∈ m'.heap := by
      by_contra hnot
      rw [object_of_notMem hnot] at hz
      cases hz
    have hx' := hx
    have hy' := hy
    rw [ht.object_eq (hmem hx)] at hx'
    rw [ht.object_eq (hmem hy)] at hy'
    exact h.sole hx' hy'
  there := ht.there
  root := by
    rw [ht.object_eq ht.there]
    exact h.root
  bare child := by
    rw [ht.object_eq ht.there]
    exact h.bare child

end Trimmed

end Machine

end ScriptBridge.Script
