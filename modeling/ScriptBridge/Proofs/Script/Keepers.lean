import ScriptBridge.Proofs.Script.Holders

/-!
# Keepers of children

To attach a child to an owner, or to detach it, the holder is read as a property of the owner. As
long as scripts have left the holders alone, the object whose own holder is found is the keeper: a
child is attached to it or detached from it, and nobody else keeps anything else. An owner for which
no holder is found gets one, unless it takes no properties any more.
-/

namespace ScriptBridge.Script

variable {α : Type} {invoke : Invoke} {child other : Handle}

namespace Machine

variable {m m' : Machine} {owner holder x y q : ObjectId} {key : String} {p : Property}

/-! ## Lookup -/

theorem chain_eq_cons (hx : x ∈ m.heap) : ∃ steps,
    m.chain x = x :: ((m.object x).prototype.map (m.chainWithin steps)).getD [] := by
  have hsize : m.heap.size ≠ 0 := by
    rw [← Std.ExtTreeMap.length_keys]
    exact Nat.ne_of_gt (List.length_pos_of_mem (Std.ExtTreeMap.mem_keys.mpr hx))
  obtain ⟨steps, hsteps⟩ := Nat.exists_eq_succ_of_ne_zero hsize
  refine ⟨steps, ?_⟩
  unfold chain
  rw [hsteps, chainWithin]
  cases (m.object x).prototype <;> rfl

theorem chainWithin_congr (hheap : m'.heap = m.heap) (steps : Nat) (x : ObjectId) :
    m'.chainWithin steps x = m.chainWithin steps x := by
  have hobject (x : ObjectId) : m'.object x = m.object x := by rw [object, hheap, object]
  induction steps generalizing x with
  | zero => rfl
  | succ steps ih =>
    rw [chainWithin, chainWithin, hobject]
    cases (m.object x).prototype with
    | none => rfl
    | some parent => exact congrArg (x :: ·) (ih parent)

theorem find?_congr (hheap : m'.heap = m.heap) (x : ObjectId) (key : String) :
    m'.find? x key = m.find? x key := by
  have hobject (x : ObjectId) : m'.object x = m.object x := by rw [object, hheap, object]
  simp only [find?, chain, chainWithin_congr hheap, hheap, hobject]

theorem own?_of_find? (h : m.find? x key = some (q, p)) : (m.object q).own? key = some p := by
  obtain ⟨before, owner, after, -, hfound, -⟩ := List.findSome?_eq_some_iff.mp h
  obtain ⟨p', hp', heq⟩ := Option.map_eq_some_iff.mp hfound
  obtain ⟨rfl, rfl⟩ := Prod.mk.inj heq
  exact hp'

theorem find?_eq_of_own (hx : x ∈ m.heap) (hp : (m.object x).own? key = some p) :
    m.find? x key = some (x, p) :=
  find?_of_own (getElem?_of_mem hx) hp

theorem own?_of_find?_none (hx : x ∈ m.heap) (h : m.find? x key = none) :
    (m.object x).own? key = none := by
  cases hp : (m.object x).own? key with
  | none => rfl
  | some p =>
    rw [find?_eq_of_own hx hp] at h
    cases h

/-- An object that inherits from no other than the prototype of all holders inherits nothing that
the latter lacks. -/
theorem Tended.find?_eq (h : Tended m) (hx : x ∈ m.heap)
    (hprototype : (m.object x).prototype = some Realm.objectPrototype)
    (hlacks : (m.object Realm.objectPrototype).own? key = none) :
    m.find? x key = ((m.object x).own? key).map (x, ·) := by
  obtain ⟨steps, hchain⟩ := chain_eq_cons hx
  unfold find?
  rw [hchain, hprototype, Option.map_some, Option.getD_some, List.findSome?_cons]
  cases hown : (m.object x).own? key with
  | some p => rfl
  | none =>
    cases steps with
    | zero => rfl
    | succ steps =>
      rw [chainWithin, h.root, Option.map_none, List.findSome?_cons, hlacks]
      rfl

/-! ## Runs -/

theorem run_holding_of {m'' : Machine} {values : List Datum} {action : Interp α} {result : Option α}
    (h : action.run { m with pins := values ++ m.pins } = (result, m''))
    (hm : m' = { m'' with pins := m.pins }) :
    (Interp.holding values action).run m = (result, m') := by
  rw [run_holding, h, hm]

theorem run_touch (hkey : key ≠ payloadKey) (m : Machine) :
    (Interp.touch key).run m = (some (), m) := by
  show (some (), if key = payloadKey then _ else m) = _
  rw [if_neg hkey]

theorem run_view_find? (m : Machine) (x : ObjectId) (key : String) :
    (Interp.view (·.find? x key)).run m = (some (m.find? x key), m) :=
  rfl

/-- The holder that is found for an owner. -/
theorem Tended.run_holder? (h : Tended m) (owner : ObjectId) : (holder? owner).run m =
    (some (.ok ((m.find? owner childrenKey).bind fun found ↦ (m.object found.1).holder?)), m) := by
  have hread : (Interp.read Interp.invoke owner childrenKey).run m =
      (some ((((m.find? owner childrenKey).bind fun found ↦ (m.object found.1).holder?).map
        Datum.object).getD .undefined), m) := by
    unfold Interp.read Interp.readFor
    rw [Interp.run_bind, run_touch childrenKey_ne_payloadKey]
    dsimp only
    rw [Interp.run_bind, run_view_find?]
    dsimp only
    cases hfind : m.find? owner childrenKey with
    | none => rfl
    | some found =>
      obtain ⟨q, p⟩ := found
      have hown := own?_of_find? hfind
      obtain ⟨holder, rfl, -⟩ := h.holder hown
      rw [Option.bind_some, Object.holder?, hown]
      rfl
  unfold holder?
  rw [Interp.run_bind, hread]
  cases (m.find? owner childrenKey).bind fun found ↦ (m.object found.1).holder? <;> rfl

theorem update_congr {f g : Object → Object} (h : f (m.object x) = g (m.object x)) :
    m.update x f = m.update x g := by
  have hheap : (m.update x f).heap = (m.update x g).heap := by
    refine Std.ExtTreeMap.ext_getElem? fun y ↦ ?_
    rw [getElem?_heap_update, getElem?_heap_update]
    split
    · next heq =>
      cases hx : m.heap[x]? with
      | none => rfl
      | some o => rw [Option.map_some, Option.map_some, ← object_of_getElem? hx, h]
    · rfl
  show { m with heap := (m.update x f).heap } = { m with heap := (m.update x g).heap }
  rw [hheap]

/-- What is no array gets a new property, unless it takes none any more. -/
theorem run_assignNew (hisArray : (m.object x).isArray = false) (key : String) (value : Datum) :
    (Interp.assignNew (.object x) key value).run m =
      if (m.object x).extensible then (some none, m.update x (·.put key ⟨.data value, .plain⟩))
      else (some (some .notExtensible), m) := by
  have hgrow : (m.object x).grow key ⟨.data value, .plain⟩ =
      (m.object x).put key ⟨.data value, .plain⟩ := by
    have hisArray : ((m.object x).put key ⟨.data value, .plain⟩).isArray = false := hisArray
    rw [Object.grow, if_neg (by simp [hisArray])]
  unfold Interp.assignNew
  dsimp only
  rw [run_bind_of (run_object m x)]
  simp only [Object.barsElement, hisArray, Bool.false_and, Bool.false_eq_true, if_false]
  cases (m.object x).extensible with
  | false => rfl
  | true => exact congrArg (fun m ↦ (some none, m)) (update_congr hgrow)

/-- A property of its own is changed, unless it is read-only. -/
theorem run_assignData_own (hisArray : (m.object x).isArray = false) (invoke : Invoke)
    (p : Property)
    (key : String) (value : Datum) :
    (Interp.assignData invoke x p (.object x) key value).run m =
      if p.flags.writable then (some none, m.update x (·.put key ⟨.data value, p.flags⟩))
      else (some (some (.readOnly key)), m) := by
  unfold Interp.assignData
  simp only [decide_true, if_true, Bool.true_and]
  rw [run_bind_of (run_object m x)]
  simp only [hisArray, Bool.false_and, Bool.false_eq_true, if_false]
  cases p.flags.writable <;> rfl

/-- A holder gets a child, in place of the one that it had before under that handle. -/
theorem Tended.run_assignOrThrow (h : Tended m) (hmem : holder ∈ m.heap)
    (hholder : (m.object holder).IsHolder) (invoke : Invoke) (child : Handle) (y : ObjectId) :
    (Interp.assignOrThrow invoke holder (childKey child) (.object y)).run m =
      (some (), m.update holder (·.put (childKey child) (Object.entryOf y))) := by
  have hassign : (Interp.assign invoke holder (childKey child) (.object y)).run m =
      (some none, m.update holder (·.put (childKey child) (Object.entryOf y))) := by
    unfold Interp.assign Interp.assignFrom
    rw [run_bind_of (run_touch childKey_ne_payloadKey m), run_bind_of (run_view_find? m _ _),
      h.find?_eq hmem hholder.prototype (h.bare child)]
    cases hown : (m.object holder).own? (childKey child) with
    | none =>
      refine (run_assignNew hholder.isArray _ _).trans ?_
      rw [hholder.extensible, if_pos rfl]
      rfl
    | some p =>
      obtain ⟨z, rfl⟩ := hholder.entries hown
      exact run_assignData_own hholder.isArray invoke _ _ _
  unfold Interp.assignOrThrow
  rw [run_bind_of hassign]
  rfl

/-- An owner that has no holder gets one, unless it takes no properties any more. -/
theorem run_define_children (howner : (m.object owner).own? childrenKey = none) (invoke : Invoke)
    (holder : ObjectId) :
    (Interp.define invoke owner childrenKey
      { value := some (.object holder), configurable := some true }).run m =
      if (m.object owner).extensible then
        (some none, m.update owner (·.put childrenKey ⟨.data (.object holder), .fixed⟩))
      else (some (some .notExtensible), m) :=
  run_define_of_own?_eq_none rfl howner invoke _

/-! ## Attaching and detaching -/

/-- Where a holder is found, it gets the child. -/
theorem Tended.run_attachTo_found (h : Tended m) (hfind : m.find? owner childrenKey = some (q, p))
    (hholder : (m.object q).holder? = some holder) (child : Handle) (y : ObjectId) :
    (attachTo owner (childKey child) y).run m =
      (some (.ok ()), m.update holder (·.put (childKey child) (Object.entryOf y))) := by
  have hfound := h.run_holder? owner
  rw [hfind, Option.bind_some, hholder] at hfound
  obtain ⟨-, hmem, hisHolder⟩ := h.own?_of_holder? hholder
  let pinned : Machine := { m with pins := .object holder :: m.pins }
  have hpinned : Tended pinned := h.congr rfl
  have hassign := hpinned.run_assignOrThrow hmem hisHolder Interp.invoke child y
  have hholding : (Interp.holding [.object holder] (do
      return .ok (← Interp.assignOrThrow Interp.invoke holder (childKey child) (.object y)) :
        Interp (Except Failure Unit))).run m =
      (some (.ok ()), m.update holder (·.put (childKey child) (Object.entryOf y))) :=
    run_holding_of ((run_bind_of hassign).trans rfl) rfl
  exact (run_bind_of hfound).trans hholding

/-- Objects may have been added, but holders are as they were. -/
structure Undisturbed (m m' : Machine) : Prop where
  old : ∀ {x : ObjectId}, x ∈ m.heap → m'.heap[x]? = m.heap[x]?
  new : ∀ {x : ObjectId}, x ∉ m.heap → (m'.object x).own? childrenKey = none

namespace Undisturbed

variable {m'' : Machine} {o : Object}

theorem of_heap (hheap : m'.heap = m.heap) : Undisturbed m m' where
  old _ := by rw [hheap]
  new hx := by
    rw [object, hheap, ← object, object_of_notMem hx]
    rfl

theorem mem (h : Undisturbed m m') (hx : x ∈ m.heap) : x ∈ m'.heap :=
  mem_heap_iff.mpr ⟨m.object x, (h.old hx).trans (getElem?_of_mem hx)⟩

theorem object_eq (h : Undisturbed m m') (hx : x ∈ m.heap) : m'.object x = m.object x := by
  rw [object, h.old hx, object]

theorem trans (first : Undisturbed m m') (second : Undisturbed m' m'') : Undisturbed m m'' where
  old hx := (second.old (first.mem hx)).trans (first.old hx)
  new {x} hx := by
    by_cases hmem : x ∈ m'.heap
    · rw [second.object_eq hmem]
      exact first.new hx
    · exact second.new hmem

theorem placed (hfresh : m.fresh ∉ m.heap) (ho : o.own? childrenKey = none) :
    Undisturbed m (m.placed o) where
  old hx := by rw [getElem?_heap_placed, if_neg (ne_of_mem_of_not_mem hx hfresh)]
  new hx := by
    rw [object_placed]
    split
    · exact ho
    · rw [object_of_notMem hx]
      rfl

/-- A new object may be changed. -/
theorem update {f : Object → Object} (h : Undisturbed m m') (hx : x ∉ m.heap) (hmem : x ∈ m'.heap)
    (hf : (f (m'.object x)).own? childrenKey = none) : Undisturbed m (m'.update x f) where
  old hy := by
    rw [getElem?_heap_update, if_neg (ne_of_mem_of_not_mem hy hx)]
    exact h.old hy
  new hy := by
    rw [object_update hmem]
    split
    · exact hf
    · exact h.new hy

theorem own?_eq (h : Undisturbed m m') (x : ObjectId) :
    (m'.object x).own? childrenKey = (m.object x).own? childrenKey := by
  by_cases hx : x ∈ m.heap
  · rw [h.object_eq hx]
  · rw [h.new hx, object_of_notMem hx]
    rfl

theorem holder?_eq (h : Undisturbed m m') (x : ObjectId) :
    (m'.object x).holder? = (m.object x).holder? := by
  rw [Object.holder?, h.own?_eq, Object.holder?]

theorem tended (h : Undisturbed m m') (hm : Tended m) : Tended m' where
  holder hp := by
    rw [h.own?_eq] at hp
    obtain ⟨holder, rfl, hmem, hholder⟩ := hm.holder hp
    exact ⟨holder, rfl, h.mem hmem, by rwa [h.object_eq hmem]⟩
  sole hx hy := by
    rw [h.holder?_eq] at hx hy
    exact hm.sole hx hy
  there := h.mem hm.there
  root := by
    rw [h.object_eq hm.there]
    exact hm.root
  bare child := by
    rw [h.object_eq hm.there]
    exact hm.bare child

theorem kept?_eq (h : Undisturbed m m') (hm : Tended m) (x : ObjectId) (child : Handle) :
    m'.kept? x child = m.kept? x child := by
  rw [kept?, h.holder?_eq, kept?]
  cases hholder : (m.object x).holder? with
  | none => rfl
  | some holder =>
    rw [Option.bind_some, Option.bind_some, h.object_eq (hm.own?_of_holder? hholder).2.1]

end Undisturbed

/-- The error that tells of a fault is a new object. -/
theorem undisturbed_raiseFault (hfresh : m.fresh ∉ m.heap) (fault : Fault) :
    Undisturbed m ((Interp.raiseFault fault : Interp α).run m).2 := by
  let error := errorObject fault.kind.prototype
    (some (Text.Units.ofString (Text.clip Interp.messageRoom fault.message)))
  have herror : error.own? childrenKey = none := rfl
  have hplaced : Undisturbed m (m.placed error) := .placed hfresh herror
  have hstack (stack : Datum) : Undisturbed m
      ((m.placed error).update m.fresh (·.withData "stack" stack .hidden)) := by
    refine hplaced.update hfresh (mem_heap_placed.mpr (.inl rfl)) ?_
    rw [object_placed, if_pos rfl, Object.withData, Object.own?_put_of_ne _ (by decide)]
    exact herror
  exact (hstack _).trans (.of_heap rfl)

/-- Where no holder is found, the owner gets one that has the child. -/
theorem Tended.run_attachTo_new (h : Tended m) (hfresh : m.fresh ∉ m.heap) (hmem : owner ∈ m.heap)
    (hfind : m.find? owner childrenKey = none) (hextensible : (m.object owner).extensible = true)
    (child : Handle) (y : ObjectId) :
    (attachTo owner (childKey child) y).run m = (some (.ok ()),
      (m.withHolder owner).update m.fresh (·.put (childKey child) (Object.entryOf y))) := by
  have hne : owner ≠ m.fresh := ne_of_mem_of_not_mem hmem hfresh
  have hfound := h.run_holder? owner
  rw [hfind, Option.bind_none] at hfound
  let placed : Machine := { m.placed (.empty .ordinary (some Realm.objectPrototype)) with
    pins := .object m.fresh :: m.pins }
  have hallocate : (Interp.allocate (.empty .ordinary (some Realm.objectPrototype))).run m =
      (some m.fresh, m.placed (.empty .ordinary (some Realm.objectPrototype))) :=
    congrArg (fun r : ObjectId × Machine ↦ (some r.1, r.2)) (allocate_eq rfl)
  have hobject : placed.object owner = m.object owner :=
    (object_placed m _ owner).trans (if_neg hne)
  have hlacks : (placed.object owner).own? childrenKey = none := by
    rw [hobject]
    exact own?_of_find?_none hmem hfind
  have hdefine := run_define_children hlacks Interp.invoke m.fresh
  rw [hobject, if_pos hextensible] at hdefine
  let adopted : Machine := { m.withHolder owner with pins := .object m.fresh :: m.pins }
  have hadopted : Tended adopted := (h.withHolder hmem hfresh).congr rfl
  have hisHolder : (adopted.object m.fresh).IsHolder := by
    show ((m.withHolder owner).object m.fresh).IsHolder
    rw [Tended.object_withHolder hmem hfresh, if_neg hne.symm, if_pos rfl]
    exact .empty
  have hassign := hadopted.run_assignOrThrow
    (mem_heap_update.mpr (mem_heap_placed.mpr (.inl rfl))) hisHolder Interp.invoke child y
  have hdefines : (Interp.defineOrThrow Interp.invoke owner childrenKey
      { value := some (.object m.fresh), configurable := some true }).run placed =
      (some (), adopted) := run_bind_of hdefine
  have hholding : (Interp.holding [.object m.fresh] (do
      Interp.defineOrThrow Interp.invoke owner childrenKey
        { value := some (.object m.fresh), configurable := some true }
      return .ok (← Interp.assignOrThrow Interp.invoke m.fresh (childKey child) (.object y)) :
        Interp (Except Failure Unit))).run
          (m.placed (.empty .ordinary (some Realm.objectPrototype))) = (some (.ok ()),
        (m.withHolder owner).update m.fresh (·.put (childKey child) (Object.entryOf y))) :=
    run_holding_of ((run_bind_of hdefines).trans ((run_bind_of hassign).trans rfl)) rfl
  exact (run_bind_of hfound).trans ((run_bind_of hallocate).trans hholding)

/-- Where no holder is found and the owner takes no properties any more, nothing is attached. -/
theorem Tended.run_attachTo_refused (h : Tended m) (ht : Tidy m) (hmem : owner ∈ m.heap)
    (hfind : m.find? owner childrenKey = none) (hextensible : (m.object owner).extensible = false)
    (key : String) (y : ObjectId) :
    ((attachTo owner key y).run m).1 = none ∧ Undisturbed m ((attachTo owner key y).run m).2 := by
  let holder : Object := .empty .ordinary (some Realm.objectPrototype)
  let pinned : Machine := { m.placed holder with pins := .object m.fresh :: m.pins }
  have hfound := h.run_holder? owner
  rw [hfind, Option.bind_none] at hfound
  have hallocate : (Interp.allocate holder).run m = (some m.fresh, m.placed holder) :=
    congrArg (fun r : ObjectId × Machine ↦ (some r.1, r.2)) (allocate_eq rfl)
  have hobject : pinned.object owner = m.object owner :=
    (object_placed m _ owner).trans (if_neg (ht.ne_fresh hmem))
  have hlacks : (pinned.object owner).own? childrenKey = none := by
    rw [hobject]
    exact own?_of_find?_none hmem hfind
  have hdefine := run_define_children hlacks Interp.invoke m.fresh
  rw [hobject, if_neg (by simp [hextensible])] at hdefine
  let raised := ((Interp.raiseFault .notExtensible : Interp Unit).run pinned).2
  have hdefines : (Interp.defineOrThrow Interp.invoke owner childrenKey
      { value := some (.object m.fresh), configurable := some true }).run pinned =
      (none, raised) :=
    (run_bind_of hdefine).trans (Prod.ext (Safe.run_raiseFault .notExtensible pinned) rfl)
  have hholding : (Interp.holding [.object m.fresh] (do
      Interp.defineOrThrow Interp.invoke owner childrenKey
        { value := some (.object m.fresh), configurable := some true }
      return .ok (← Interp.assignOrThrow Interp.invoke m.fresh key (.object y)) :
        Interp (Except Failure Unit))).run (m.placed holder) =
      (none, { raised with pins := m.pins }) :=
    run_holding_of (run_bind_of_none hdefines) rfl
  have hrun : (attachTo owner key y).run m = (none, { raised with pins := m.pins }) :=
    (run_bind_of hfound).trans ((run_bind_of hallocate).trans hholding)
  have hplaced : Undisturbed m (m.placed holder) := .placed ht.fresh_notMem rfl
  have hpinned : Undisturbed (m.placed holder) pinned := .of_heap rfl
  have hraised : Undisturbed pinned raised :=
    undisturbed_raiseFault (m := pinned) (ht.placed holder).fresh_notMem .notExtensible
  rw [hrun]
  exact ⟨rfl, ((hplaced.trans hpinned).trans hraised).trans (.of_heap rfl)⟩

theorem run_delete (hholder : (m.object holder).IsHolder) (child : Handle) :
    ∃ m', (Interp.delete holder (childKey child)).run m = (some true, m') ∧
      (m' = m ∧ (m.object holder).own? (childKey child) = none ∨
        m' = m.update holder (·.erase (childKey child))) := by
  unfold Interp.delete
  rw [run_bind_of (run_touch childKey_ne_payloadKey m), run_bind_of (run_object m holder)]
  cases hown : (m.object holder).own? (childKey child) with
  | none => exact ⟨m, rfl, .inl ⟨rfl, rfl⟩⟩
  | some p =>
    obtain ⟨z, rfl⟩ := hholder.entries hown
    exact ⟨_, rfl, .inr rfl⟩

/-! ## Keepers -/

/-- The object on whose holder the children of an owner hang: the nearest of the owner and its
prototypes that has a holder, or the owner, which gets one if none has. -/
def keeper (m : Machine) (owner : ObjectId) : ObjectId :=
  ((m.find? owner childrenKey).map Prod.fst).getD owner

/-- An owner can be given children: a holder is found, or it can get one. -/
def Adopts (m : Machine) (owner : ObjectId) : Prop :=
  (m.find? owner childrenKey).isSome = true ∨ (m.object owner).extensible = true

/-- What is kept when an owner has come to keep something else for one child. -/
def relinked (m : Machine) (owner : ObjectId) (child : Handle) (kept : Option ObjectId) :
    ObjectId → Handle → Option ObjectId :=
  fun x handle ↦ if x = owner ∧ handle = child then kept else m.kept? x handle

/-- What the objects of a machine keep. All of it is there. -/
structure Keeps (m : Machine) (kept : ObjectId → Handle → Option ObjectId) : Prop where
  tended : Tended m
  kept?_eq : ∀ x ∈ m.heap, ∀ child, m.kept? x child = kept x child
  there : ∀ x child y, m.kept? x child = some y → y ∈ m.heap

theorem keeper_of_find? (h : m.find? owner childrenKey = some (q, p)) : m.keeper owner = q := by
  rw [keeper, h]
  rfl

theorem keeper_of_find?_none (h : m.find? owner childrenKey = none) : m.keeper owner = owner := by
  rw [keeper, h]
  rfl

theorem Tended.holder?_of_find? (h : Tended m) (hfind : m.find? owner childrenKey = some (q, p)) :
    ∃ holder, (m.object q).holder? = some holder := by
  have hown := own?_of_find? hfind
  obtain ⟨holder, rfl, -⟩ := h.holder hown
  exact ⟨holder, by rw [Object.holder?, hown]⟩

/-- An owner whose children hang on another object keeps nothing by itself. -/
theorem kept?_of_keeper_ne (hmem : owner ∈ m.heap) (hne : m.keeper owner ≠ owner) (child : Handle) :
    m.kept? owner child = none := by
  rw [kept?, Object.holder?]
  cases hown : (m.object owner).own? childrenKey with
  | none => rfl
  | some p => exact absurd (keeper_of_find? (find?_eq_of_own hmem hown)) hne

theorem relinked_self (m : Machine) (owner : ObjectId) (child : Handle) (kept : Option ObjectId) :
    m.relinked owner child kept owner child = kept := if_pos ⟨rfl, rfl⟩

theorem relinked_of_ne (h : x ≠ owner) (child handle : Handle) (kept : Option ObjectId) :
    m.relinked owner child kept x handle = m.kept? x handle := if_neg fun heq ↦ h heq.1

theorem relinked_none (h : m.kept? owner child = none) : m.relinked owner child none = m.kept? := by
  funext x handle
  rw [relinked]
  split
  · next heq => rw [heq.1, heq.2, h]
  · rfl

theorem Tended.kept?_change_eq {f : Object → Object} {kept : Option ObjectId} (h : Tended m)
    (hholder : (m.object owner).holder? = some holder)
    (hkey : (f (m.object holder)).own? childrenKey = (m.object holder).own? childrenKey)
    (hself : (f (m.object holder)).childAt? child = kept)
    (hother : ∀ other ≠ child,
      (f (m.object holder)).childAt? other = (m.object holder).childAt? other) :
    (m.update holder f).kept? = m.relinked owner child kept := by
  obtain ⟨-, hmem, -⟩ := h.own?_of_holder? hholder
  funext x handle
  rw [h.kept?_change hmem hkey hholder, relinked]
  by_cases hx : x = owner
  · subst hx
    rw [if_pos rfl]
    by_cases hhandle : handle = child
    · rw [hhandle, hself, if_pos ⟨rfl, rfl⟩]
    · rw [hother handle hhandle, if_neg (fun heq ↦ hhandle heq.2), kept?, hholder,
        Option.bind_some]
  · rw [if_neg hx, if_neg (fun heq ↦ hx heq.1)]

/-- The holder of an owner gets a child. -/
theorem Tended.adopting (h : Tended m) (hholder : (m.object owner).holder? = some holder)
    (child : Handle) (y : ObjectId) :
    Tended (m.update holder (·.put (childKey child) (Object.entryOf y))) ∧
      (m.update holder (·.put (childKey child) (Object.entryOf y))).kept? =
        m.relinked owner child (some y) := by
  obtain ⟨-, hmem, hisHolder⟩ := h.own?_of_holder? hholder
  have hkey : ((m.object holder).put (childKey child) (Object.entryOf y)).own? childrenKey =
      (m.object holder).own? childrenKey :=
    Object.own?_put_of_ne _ childKey_ne_childrenKey.symm _
  exact ⟨h.change hmem hisHolder (hisHolder.put child y) hkey,
    h.kept?_change_eq hholder hkey (Object.childAt?_put_self _ child y)
      fun _ hother ↦ Object.childAt?_put_of_ne _ hother _⟩

/-- The holder of an owner loses a child. -/
theorem Tended.losing (h : Tended m) (hholder : (m.object owner).holder? = some holder)
    (child : Handle) :
    Tended (m.update holder (·.erase (childKey child))) ∧
      (m.update holder (·.erase (childKey child))).kept? = m.relinked owner child none := by
  obtain ⟨-, hmem, hisHolder⟩ := h.own?_of_holder? hholder
  have hkey : ((m.object holder).erase (childKey child)).own? childrenKey =
      (m.object holder).own? childrenKey :=
    Object.own?_erase_of_ne _ childKey_ne_childrenKey.symm
  exact ⟨h.change hmem hisHolder (hisHolder.erase child) hkey,
    h.kept?_change_eq hholder hkey (Object.childAt?_erase_self _ child)
      fun _ hother ↦ Object.childAt?_erase_of_ne _ hother⟩

/-- An owner without holder gets one that has the child. -/
theorem Tended.equipping (h : Tended m) (hfresh : m.fresh ∉ m.heap) (hmem : owner ∈ m.heap)
    (hnone : (m.object owner).own? childrenKey = none) (child : Handle) (y : ObjectId) :
    Tended ((m.withHolder owner).update m.fresh (·.put (childKey child) (Object.entryOf y))) ∧
      ((m.withHolder owner).update m.fresh (·.put (childKey child) (Object.entryOf y))).kept? =
        m.relinked owner child (some y) := by
  have hholder : ((m.withHolder owner).object owner).holder? = some m.fresh := by
    rw [Tended.holder?_withHolder hmem hfresh, if_pos rfl]
  obtain ⟨htended, hkept⟩ := (h.withHolder hmem hfresh).adopting hholder child y
  refine ⟨htended, hkept.trans ?_⟩
  funext x handle
  rw [relinked, relinked, h.kept?_withHolder hmem hfresh]
  split
  · rfl
  · split
    · next heq => rw [heq, kept?, Object.holder?, hnone]; rfl
    · rfl

/-- What becomes of an attempt to attach a child. -/
theorem Tended.attaches (h : Tended m) (ht : Tidy m) (hmem : owner ∈ m.heap) (child : Handle)
    (y : ObjectId) :
    (m.Adopts owner ∧ ∃ m', (attachTo owner (childKey child) y).run m = (some (.ok ()), m') ∧
      Tended m' ∧ m'.kept? = m.relinked (m.keeper owner) child (some y)) ∨
    (¬ m.Adopts owner ∧ ∃ m', (attachTo owner (childKey child) y).run m = (none, m') ∧
      Tended m' ∧ m'.kept? = m.kept?) := by
  cases hfind : m.find? owner childrenKey with
  | some found =>
    obtain ⟨q, p⟩ := found
    obtain ⟨holder, hholder⟩ := h.holder?_of_find? hfind
    refine .inl ⟨.inl (by rw [hfind]; rfl), _, h.run_attachTo_found hfind hholder child y, ?_⟩
    rw [keeper_of_find? hfind]
    exact h.adopting hholder child y
  | none =>
    by_cases hextensible : (m.object owner).extensible = true
    · refine .inl ⟨.inr hextensible, _,
        h.run_attachTo_new ht.fresh_notMem hmem hfind hextensible child y, ?_⟩
      rw [keeper_of_find?_none hfind]
      exact h.equipping ht.fresh_notMem hmem (own?_of_find?_none hmem hfind) child y
    · obtain ⟨hnone, hundisturbed⟩ := h.run_attachTo_refused ht hmem hfind
        (by simpa using hextensible) (childKey child) y
      refine .inr ⟨?_, _, Prod.ext hnone rfl, hundisturbed.tended h, ?_⟩
      · rintro (hfound | htrue)
        · rw [hfind] at hfound
          cases hfound
        · exact hextensible htrue
      · funext x handle
        exact hundisturbed.kept?_eq h x handle

/-- A child is detached from the keeper. -/
theorem Tended.detaches (h : Tended m) (hmem : owner ∈ m.heap) (child : Handle) :
    ∃ m', (detachFrom owner (childKey child)).run m = (some (.ok ()), m') ∧
      Tended m' ∧ m'.kept? = m.relinked (m.keeper owner) child none := by
  have hfound := h.run_holder? owner
  cases hfind : m.find? owner childrenKey with
  | none =>
    rw [hfind, Option.bind_none] at hfound
    refine ⟨m, run_bind_of hfound, h, (relinked_none ?_).symm⟩
    rw [keeper_of_find?_none hfind, kept?, Object.holder?, own?_of_find?_none hmem hfind]
    rfl
  | some found =>
    obtain ⟨q, p⟩ := found
    obtain ⟨holder, hholder⟩ := h.holder?_of_find? hfind
    rw [hfind, Option.bind_some, hholder] at hfound
    obtain ⟨m', hdelete, hm'⟩ := run_delete (h.own?_of_holder? hholder).2.2 child
    refine ⟨m', (run_bind_of hfound).trans (run_bind_of hdelete), ?_⟩
    rw [keeper_of_find? hfind]
    rcases hm' with ⟨rfl, hnone⟩ | rfl
    · refine ⟨h, (relinked_none ?_).symm⟩
      rw [kept?, hholder, Option.bind_some, Object.childAt?, hnone]
    · exact h.losing hholder child

end Machine

end ScriptBridge.Script
