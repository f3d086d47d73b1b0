import ScriptBridge.Proofs.Script.Editions

/-!
# Names on the global object

A name is looked for on the global object and along its prototypes. These are the common ones, and
the class `__proto__` before them if there is one. All that is met on the way holds values, but for
the accessor of prototypes, so that looking a class up runs no script, and putting it in place
neither.
-/

namespace ScriptBridge.Script.Machine

variable {α : Type} {m m' : Machine} {editions : List Edition} {edition : Edition}
  {name key : String} {x q constructor : ObjectId} {p : Property} {g : Object} {invoke : Invoke}

/-! ## Lookup -/

theorem mem_chain_of_find? (h : m.find? x key = some (q, p)) : q ∈ m.chain x := by
  obtain ⟨before, owner, after, hchain, hfound, -⟩ := List.findSome?_eq_some_iff.mp h
  obtain ⟨p', -, heq⟩ := Option.map_eq_some_iff.mp hfound
  obtain ⟨rfl, rfl⟩ := Prod.mk.inj heq
  rw [hchain]
  simp

/-- A chain does not leave objects that have their prototypes among themselves. -/
theorem of_mem_chainWithin {P : ObjectId → Prop}
    (hclosed : ∀ x, P x → ∀ parent, (m.object x).prototype = some parent → P parent) (hx : P x)
    {steps : Nat} (hq : q ∈ m.chainWithin steps x) : P q := by
  induction steps generalizing x with
  | zero => cases hq
  | succ steps ih =>
    rw [chainWithin] at hq
    rcases List.mem_cons.mp hq with rfl | hq
    · exact hx
    · cases hparent : (m.object x).prototype with
      | none =>
        rw [hparent] at hq
        cases hq
      | some parent =>
        rw [hparent] at hq
        exact ih (hclosed x hx parent hparent) hq

theorem length_le_size {ids : List ObjectId} (hnodup : ids.Nodup) (h : ∀ x ∈ ids, x ∈ m.heap) :
    ids.length ≤ m.heap.size := by
  have hle := (List.Nodup.subperm hnodup
    (fun x hx ↦ Std.ExtTreeMap.mem_keys.mpr (h x hx) : ids ⊆ m.heap.keys)).length_le
  rwa [Std.ExtTreeMap.length_keys] at hle

/-- The accessor of prototypes. -/
def protoProperty : Property :=
  ⟨.accessor (some (Realm.function .prototypeGetter)) (some (Realm.function .prototypeSetter)),
    .fixed⟩

/-- The objects on which a name is looked for. -/
def OnPath (editions : List Edition) (x : ObjectId) : Prop :=
  x = Realm.globalObject ∨ x = Realm.functionPrototype ∨ x = Realm.objectPrototype ∨
    ∃ edition, latest? editions protoKey = some edition ∧ x = edition.constructor

namespace Displays

theorem objectPrototype (h : Displays m editions) : ∃ o, m.heap[Realm.objectPrototype]? = some o ∧
    o.prototype = none ∧ o.own? protoKey = some protoProperty ∧ o.Plain ∧ o.Open := by
  have hconcrete : ∀ o ∈ Realm.objects[Realm.objectPrototype.index]?, o.prototype = none ∧
      o.own? protoKey = some protoProperty ∧ o.Plain ∧ o.Open := by decide +kernel
  obtain ⟨o, ho⟩ := mem_heap_iff.mp (h.mem_heap (x := Realm.objectPrototype)
    (by simp [essentials, Machine.fixtures]))
  exact ⟨o, ho, hconcrete o ((h.fixtures _ (by simp [Machine.fixtures])).symm.trans ho)⟩

theorem functionPrototype (h : Displays m editions) : ∃ o,
    m.heap[Realm.functionPrototype]? = some o ∧ o.prototype = some Realm.objectPrototype ∧
      o.own? protoKey = none ∧ o.Plain ∧ o.Open := by
  have hconcrete : ∀ o ∈ Realm.objects[Realm.functionPrototype.index]?,
      o.prototype = some Realm.objectPrototype ∧ o.own? protoKey = none ∧ o.Plain ∧ o.Open := by
    decide +kernel
  obtain ⟨o, ho⟩ := mem_heap_iff.mp (h.mem_heap (x := Realm.functionPrototype)
    (by simp [essentials, Machine.fixtures]))
  exact ⟨o, ho, hconcrete o ((h.fixtures _ (by simp [Machine.fixtures])).symm.trans ho)⟩

theorem callable?_getter (h : Displays m editions) :
    (m.object (Realm.function .prototypeGetter)).callable? =
      some (.intrinsic .prototypeGetter) := by
  rw [object, h.fixtures _ (by simp [Machine.fixtures])]
  rfl

theorem callable?_setter (h : Displays m editions) :
    (m.object (Realm.function .prototypeSetter)).callable? =
      some (.intrinsic .prototypeSetter) := by
  rw [object, h.fixtures _ (by simp [Machine.fixtures])]
  rfl

theorem mem_global (h : Displays m editions) : Realm.globalObject ∈ m.heap :=
  h.mem_heap (mem_essentials.mpr (.inl rfl))

theorem presents (h : Displays m editions) : Presents editions (m.object Realm.globalObject) := by
  obtain ⟨g, hg, hpresents⟩ := h.global
  rwa [object_of_getElem? hg]

/-- The path is closed, and what is met on it holds values that can mostly be assigned. -/
theorem onPath (h : Displays m editions) (hx : OnPath editions x) :
    (∀ parent, (m.object x).prototype = some parent → OnPath editions parent) ∧
      (m.object x).Plain ∧ (m.object x).Open := by
  rcases hx with rfl | rfl | rfl | ⟨edition, hlatest, rfl⟩
  · refine ⟨fun parent hparent ↦ ?_, h.presents.plain, h.presents.isOpen⟩
    rw [h.presents.prototype] at hparent
    cases hlatest : latest? editions protoKey with
    | none =>
      rw [hlatest] at hparent
      exact .inr (.inr (.inl (Option.some.inj hparent).symm))
    | some edition =>
      rw [hlatest] at hparent
      exact .inr (.inr (.inr ⟨edition, hlatest, (Option.some.inj hparent).symm⟩))
  · obtain ⟨o, ho, hprototype, -, hplain⟩ := h.functionPrototype
    rw [object_of_getElem? ho]
    refine ⟨fun parent hparent ↦ ?_, hplain⟩
    exact .inr (.inr (.inl (Option.some.inj (hparent.symm.trans hprototype))))
  · obtain ⟨o, ho, hprototype, -, hplain⟩ := h.objectPrototype
    rw [object_of_getElem? ho]
    refine ⟨fun parent hparent ↦ ?_, hplain⟩
    rw [hprototype] at hparent
    cases hparent
  · have ho := (h.standing.of_mem (mem_of_latest? hlatest).1).1
    rw [object_of_getElem? ho]
    refine ⟨fun parent hparent ↦ ?_, edition.plain_function, edition.open_function⟩
    exact .inr (.inl (Option.some.inj (hparent.symm.trans edition.prototype_function)))

/-- Whatever is found under another name holds a value. -/
theorem exists_data_of_find? (h : Displays m editions) (hkey : key ≠ protoKey)
    (hfind : m.find? Realm.globalObject key = some (q, p)) :
    (∃ d, p.content = .data d) ∧ (key ∉ reservedNames → p.flags.writable = true) := by
  have hpath : OnPath editions q := of_mem_chainWithin (fun x hx ↦ (h.onPath hx).1) (.inl rfl)
    (mem_chain_of_find? hfind)
  obtain ⟨-, hplain, hopen⟩ := h.onPath hpath
  exact ⟨hplain.exists_data (own?_of_find? hfind) hkey, hopen.writable (own?_of_find? hfind)⟩

/-- There are objects enough for every chain that matters. -/
theorem four_le_size (h : Displays m editions) : 4 ≤ m.heap.size :=
  length_le_size (by decide +kernel : Machine.fixtures.Nodup) fun x hx ↦
    h.mem_heap (mem_essentials.mpr (.inr (.inl hx)))

/-- What leads to the prototype is found where all objects have it from. -/
theorem find?_protoKey (h : Displays m editions) :
    m.find? Realm.globalObject protoKey = some (Realm.objectPrototype, protoProperty) := by
  obtain ⟨steps, hsteps⟩ := Nat.exists_eq_add_of_le' h.four_le_size
  obtain ⟨root, hroot, hrootless, hrootOwn, -⟩ := h.objectPrototype
  obtain ⟨o, ho, hprototype, hown, -⟩ := h.functionPrototype
  have hpresents := h.presents
  unfold find? chain
  rw [hsteps, chainWithin, hpresents.prototype]
  cases hlatest : latest? editions protoKey with
  | none =>
    simp only [Option.map_none, Option.getD_none, chainWithin, object_of_getElem? hroot, hrootless,
      List.findSome?_cons, hpresents.own?_protoKey, hrootOwn, Option.map_some]
  | some edition =>
    have hfunction := (h.standing.of_mem (mem_of_latest? hlatest).1).1
    simp only [Option.map_some, Option.getD_some, chainWithin, object_of_getElem? hfunction,
      edition.prototype_function, object_of_getElem? ho, hprototype, object_of_getElem? hroot,
      hrootless, List.findSome?_cons, hpresents.own?_protoKey, edition.own?_protoKey_function, hown,
      hrootOwn, Option.map_none]

end Displays

/-! ## Reading -/

/-- A machine on which the property of a key has been named. -/
def touched (key : String) (m : Machine) : Machine := if key = payloadKey then m.exposed else m

theorem run_touch_eq (key : String) (m : Machine) :
    (Interp.touch key).run m = (some (), m.touched key) :=
  rfl

theorem heap_touched (key : String) (m : Machine) : (m.touched key).heap = m.heap := by
  unfold touched
  split <;> rfl

theorem run_holding_object (values : List Datum) (x : ObjectId) (next : Object → Interp α)
    (m : Machine) : (Interp.holding values (Interp.object x >>= next)).run m =
      (Interp.holding values (next (m.object x))).run m :=
  rfl

/-- A call of one of the functions that every script finds, where calls may nest. -/
theorem run_invokeWithin_intrinsic {which : Intrinsic}
    (hcallable : (m.object x).callable? = some (.intrinsic which)) (hshown : which.isShown = true)
    (depth : Nat) (this : Datum) (arguments : List Datum) :
    (Interp.invokeWithin (depth + 1) x this arguments none).run m =
      (Interp.holding (.object x :: this :: arguments) (Interp.inFrame ⟨some x, none⟩
        (Interp.runIntrinsic (Interp.invokeWithin depth) which this arguments none))).run m := by
  have hvalues :
      .object x :: this :: arguments ++ ((none : Option ObjectId).map Datum.object).toList =
      .object x :: this :: arguments := List.append_nil _
  rw [Interp.invokeWithin]
  dsimp only
  rw [hvalues, run_holding_object, hcallable]
  dsimp only
  rw [hshown, if_pos rfl]

theorem run_invoke_intrinsic {which : Intrinsic}
    (hcallable : (m.object x).callable? = some (.intrinsic which)) (hshown : which.isShown = true)
    (this : Datum) (arguments : List Datum) : ∃ depth, (Interp.invoke x this arguments none).run m =
      (Interp.holding (.object x :: this :: arguments) (Interp.inFrame ⟨some x, none⟩
        (Interp.runIntrinsic (Interp.invokeWithin depth) which this arguments none))).run m :=
  ⟨3999, run_invokeWithin_intrinsic hcallable hshown 3999 this arguments⟩

/-- The getter of prototypes gives the prototype. -/
theorem Displays.run_getter (h : Displays m editions) (x : ObjectId) :
    (Interp.invoke (Realm.function .prototypeGetter) (.object x) [] none).run m =
      (some (((m.object x).prototype.map Datum.object).getD .null), m) := by
  obtain ⟨depth, hrun⟩ := run_invoke_intrinsic h.callable?_getter rfl (.object x) []
  exact hrun.trans rfl

/-- A class is found under its name, unless another one has taken its place. -/
theorem Displays.run_readGlobal (h : Displays m editions)
    (hlatest : latest? editions name = some edition) :
    (Interp.readGlobal Interp.invoke name).run m =
      (some (.object edition.constructor), m.touched name) := by
  have hdisplays : Displays (m.touched name) editions := h.of_heap (heap_touched name m)
  unfold Interp.readGlobal Interp.read Interp.readFor
  rw [run_bind_of (run_touch_eq name m), run_bind_of (run_view_find? _ _ _)]
  by_cases hname : name = protoKey
  · subst hname
    have hprototype := hdisplays.presents.prototype
    rw [hlatest, Option.map_some, Option.getD_some] at hprototype
    rw [hdisplays.find?_protoKey]
    dsimp only [protoProperty]
    rw [hdisplays.run_getter, hprototype]
    rfl
  · obtain ⟨flags, hown⟩ := hdisplays.presents.named hlatest hname
    rw [find?_eq_of_own hdisplays.mem_global hown]
    rfl

/-- The prototype that instances of a class have is found by its name. -/
theorem Displays.run_parentPrototype (h : Displays m editions)
    (hlatest : latest? editions name = some edition) :
    (parentPrototype name).run m = (some (.ok edition.prototype), m.touched name) := by
  have hread : (Interp.read Interp.invoke edition.constructor "prototype").run (m.touched name) =
      (some (.object edition.prototype), m.touched name) := by
    refine run_read_of_shows ?_ ⟨_, edition.own?_prototype_function⟩ (by decide)
    rw [heap_touched]
    exact (h.standing.of_mem (mem_of_latest? hlatest).1).1
  unfold parentPrototype
  rw [run_bind_of (h.run_readGlobal hlatest)]
  exact (run_bind_of hread).trans rfl

/-! ## Assigning -/

theorem Presents.put (h : Presents editions g) (hname : edition.spec.name ≠ protoKey)
    {flags : Flags} (hflags : flags.writable = true) : Presents (edition :: editions)
      (g.put edition.spec.name ⟨.data (.object edition.constructor), flags⟩) where
  isArray := h.isArray
  extensible := h.extensible
  plain := h.plain.put _ _ _
  isOpen := h.isOpen.put fun _ ↦ hflags
  own?_protoKey := (g.own?_put_of_ne hname.symm _).trans h.own?_protoKey
  prototype := by
    rw [latest?_cons, if_neg hname]
    exact h.prototype
  named {name latest} hlatest hkey := by
    rw [latest?_cons] at hlatest
    split at hlatest
    · next heq =>
      obtain rfl := Option.some.inj hlatest
      exact ⟨flags, heq ▸ g.own?_put_self _ _⟩
    · next hne =>
      obtain ⟨flags, hown⟩ := h.named hlatest hkey
      exact ⟨flags, (g.own?_put_of_ne (Ne.symm hne) _).trans hown⟩

theorem Presents.withPrototype (h : Presents editions g) (hname : edition.spec.name = protoKey) :
    Presents (edition :: editions) { g with prototype := some edition.constructor } where
  isArray := h.isArray
  extensible := h.extensible
  plain := h.plain
  isOpen := h.isOpen
  own?_protoKey := h.own?_protoKey
  prototype := by
    rw [latest?_cons, if_pos hname]
    rfl
  named {name latest} hlatest hkey := by
    rw [latest?_cons, if_neg (fun heq ↦ hkey (heq.symm.trans hname))] at hlatest
    exact h.named hlatest hkey

/-- A class is put in place, or that is refused or an error is thrown because of a reserved name. -/
inductive Assigns (m : Machine) (editions : List Edition) (edition : Edition) :
    Option (Option Fault) × Machine → Prop
  | placed {m' : Machine} {g : Object}
    (hheap : ∀ x : ObjectId, m'.heap[x]? = if x = Realm.globalObject then some g else m.heap[x]?)
    (hpresents : Presents (edition :: editions) g) :
    Assigns m editions edition (some none, m')
  | refused {m' : Machine} {fault : Fault} (hname : edition.spec.name ∈ reservedNames)
    (hheap : m'.heap = m.heap) (hnext : m'.nextObject = m.nextObject) :
    Assigns m editions edition (some (some fault), m')
  | thrown {m' : Machine} (hname : edition.spec.name ∈ reservedNames)
    (hold : ∀ {x : ObjectId}, x ∈ m.heap → m'.heap[x]? = m.heap[x]?) :
    Assigns m editions edition (none, m')

/-- Changing the prototype of an object throws an error, or it is done. -/
theorem run_setPrototype (hx : x ≠ Realm.objectPrototype) (m : Machine) (parent : ObjectId) :
    (∃ m', (Interp.setPrototype x (some parent)).run m = (some (), m') ∧
      m'.heap = (m.update x ({ · with prototype := some parent })).heap) ∨
    ∃ fault, (Interp.setPrototype x (some parent)).run m = (Interp.raiseFault fault).run m := by
  unfold Interp.setPrototype
  rw [run_bind_of (run_object m x)]
  by_cases hsame : (m.object x).prototype = some parent
  · refine .inl ⟨m, by rw [if_pos hsame]; rfl, ?_⟩
    have hupdate : m.update x ({ · with prototype := some parent }) = m.update x id :=
      update_congr (by rw [← hsame]; rfl)
    refine Std.ExtTreeMap.ext_getElem? fun y ↦ ?_
    rw [hupdate, getElem?_heap_update, Option.map_id]
    split
    · next heq => rw [heq]; rfl
    · rfl
  · rw [if_neg hsame, if_neg hx]
    cases (m.object x).extensible with
    | false => exact .inr ⟨.notExtensible, rfl⟩
    | true =>
      have hchain : (Interp.view (·.chain parent)).run m = (some (m.chain parent), m) := rfl
      simp only [Bool.not_true, Bool.false_eq_true, if_false]
      rw [run_bind_of hchain]
      by_cases hcyclic : (m.chain parent).contains x = true
      · rw [if_pos hcyclic]
        exact .inr ⟨.cyclicPrototype, rfl⟩
      · rw [if_neg hcyclic]
        exact .inl ⟨_, rfl, rfl⟩

/-- The setter of prototypes changes the prototype of its receiver. -/
theorem Displays.run_setter (h : Displays m editions) (x parent : ObjectId) :
    ∃ called : Machine, called.heap = m.heap ∧ called.nextObject = m.nextObject ∧
      (Interp.invoke (Realm.function .prototypeSetter) (.object x) [.object parent] none).run m =
        (((Interp.setPrototype x (some parent)).run called).1.map fun _ ↦ .undefined,
          { ((Interp.setPrototype x (some parent)).run called).2 with
            frames := m.frames, pins := m.pins }) := by
  obtain ⟨depth, hrun⟩ := run_invoke_intrinsic h.callable?_setter rfl (.object x) [.object parent]
  let called : Machine := { m with
    frames := ⟨some (Realm.function .prototypeSetter), none⟩ :: m.frames
    pins := .object (Realm.function .prototypeSetter) :: .object x :: [.object parent] ++ m.pins }
  refine ⟨called, rfl, rfl, hrun.trans ?_⟩
  have hintrinsic : (Interp.runIntrinsic (Interp.invokeWithin depth) .prototypeSetter (.object x)
      [.object parent] none).run called = (((Interp.setPrototype x (some parent)).run called).1.map
        fun _ ↦ .undefined, ((Interp.setPrototype x (some parent)).run called).2) := by
    show (Interp.setPrototype x (some parent) >>= fun _ ↦ pure Datum.undefined).run called = _
    rw [Interp.run_bind]
    rcases (Interp.setPrototype x (some parent)).run called with ⟨_ | _, after⟩ <;> rfl
  exact congrArg (fun r : Option Datum × Machine ↦
    (r.1, { r.2 with frames := m.frames, pins := m.pins })) hintrinsic

/-- What is assigned to the name of prototypes becomes the prototype. -/
theorem Displays.assigns_prototype (h : Displays m editions) (hfresh : m.fresh ∉ m.heap)
    (hname : edition.spec.name = protoKey) : Assigns m editions edition
      ((Interp.invoke (Realm.function .prototypeSetter) (.object Realm.globalObject)
        [.object edition.constructor] none >>= fun _ ↦ pure none :
          Interp (Option Fault)).run m) := by
  obtain ⟨called, hheap, hnext, hrun⟩ := h.run_setter Realm.globalObject edition.constructor
  have hdisplays : Displays called editions := h.of_heap hheap
  rcases run_setPrototype (by decide : Realm.globalObject ≠ Realm.objectPrototype) called
    edition.constructor with ⟨after, hset, hafter⟩ | ⟨fault, hset⟩
  · rw [hset] at hrun
    rw [run_bind_of hrun]
    refine .placed (fun x ↦ ?_) (hdisplays.presents.withPrototype hname)
    show after.heap[x]? = _
    rw [hafter, getElem?_heap_update, getElem?_of_mem hdisplays.mem_global, Option.map_some, hheap]
  · have hnone := Safe.run_raiseFault (α := Unit) fault called
    rw [hset, hnone] at hrun
    rw [run_bind_of_none hrun]
    refine .thrown (by simp [hname, reservedNames]) fun {x} hx ↦ ?_
    have hfresh : called.fresh ∉ called.heap := by rwa [fresh, hnext, hheap]
    have hold := undisturbed_raiseFault (α := Unit) hfresh fault
    exact (hold.old (hheap ▸ hx)).trans (by rw [hheap])

theorem Displays.assigns_put (h : Displays m editions) (hname : edition.spec.name ≠ protoKey)
    {flags : Flags} (hflags : flags.writable = true) :
    Assigns m editions edition (some none, m.update Realm.globalObject
      (·.put edition.spec.name ⟨.data (.object edition.constructor), flags⟩)) := by
  refine .placed (fun x ↦ ?_) (h.presents.put hname hflags)
  rw [getElem?_heap_update, getElem?_of_mem h.mem_global, Option.map_some]

theorem Displays.assigns_new (h : Displays m editions) (hname : edition.spec.name ≠ protoKey) :
    Assigns m editions edition ((Interp.assignNew (.object Realm.globalObject) edition.spec.name
      (.object edition.constructor)).run m) := by
  rw [run_assignNew h.presents.isArray, if_pos h.presents.extensible]
  exact h.assigns_put hname rfl

/-- What is found under a name makes way, unless it is read-only. -/
theorem Displays.assigns_data (h : Displays m editions) (hname : edition.spec.name ≠ protoKey)
    (q : ObjectId) (hwritable : edition.spec.name ∉ reservedNames → p.flags.writable = true) :
    Assigns m editions edition ((Interp.assignData Interp.invoke q p (.object Realm.globalObject)
      edition.spec.name (.object edition.constructor)).run m) := by
  have hreserved (hfixed : p.flags.writable = false) : edition.spec.name ∈ reservedNames := by
    by_contra hnot
    rw [hwritable hnot] at hfixed
    cases hfixed
  by_cases hq : q = Realm.globalObject
  · subst hq
    rw [run_assignData_own h.presents.isArray]
    split
    · next hflags => exact h.assigns_put hname hflags
    · next hfixed => exact .refused (hreserved (by simpa using hfixed)) rfl rfl
  · have hother : ¬ Datum.object Realm.globalObject = Datum.object q := fun heq ↦
      hq (Datum.object.inj heq).symm
    unfold Interp.assignData
    simp only [hother, decide_false, Bool.false_and, Bool.false_eq_true, if_false]
    split
    · next hfixed => exact .refused (hreserved (by simpa using hfixed)) rfl rfl
    · exact h.assigns_new hname

theorem Assigns.of_heap {result : Option (Option Fault) × Machine}
    (h : Assigns m' editions edition result) (hheap : m'.heap = m.heap)
    (hnext : m'.nextObject = m.nextObject) : Assigns m editions edition result := by
  cases h with
  | placed hplaced hpresents => exact .placed (hheap ▸ hplaced) hpresents
  | refused hname hsame hsameNext =>
    exact .refused hname (hsame.trans hheap) (hsameNext.trans hnext)
  | thrown hname hold => exact .thrown hname (by rwa [← hheap])

/-- A class is put in place without running a script, or a reserved name refuses it. -/
theorem Displays.assigns (h : Displays m editions) (hfresh : m.fresh ∉ m.heap) :
    Assigns m editions edition ((Interp.assign Interp.invoke Realm.globalObject edition.spec.name
      (.object edition.constructor)).run m) := by
  unfold Interp.assign Interp.assignFrom
  by_cases hname : edition.spec.name = protoKey
  · rw [hname, run_bind_of (run_touch protoKey_ne_payloadKey m), run_bind_of (run_view_find? m _ _),
      h.find?_protoKey]
    exact h.assigns_prototype hfresh hname
  · have hheap := heap_touched edition.spec.name m
    have hnext : (m.touched edition.spec.name).nextObject = m.nextObject := by
      unfold touched
      split <;> rfl
    have hdisplays : Displays (m.touched edition.spec.name) editions := h.of_heap hheap
    rw [run_bind_of (run_touch_eq _ m), run_bind_of (run_view_find? _ _ _)]
    apply Assigns.of_heap _ hheap hnext
    cases hfind : (m.touched edition.spec.name).find? Realm.globalObject edition.spec.name with
    | none => exact hdisplays.assigns_new hname
    | some found =>
      obtain ⟨q, p⟩ := found
      obtain ⟨⟨d, hdata⟩, hwritable⟩ := hdisplays.exists_data_of_find? hname hfind
      dsimp only
      rw [hdata]
      exact hdisplays.assigns_data hname q hwritable

end ScriptBridge.Script.Machine
