import ScriptBridge.Proofs.Script.Offering

/-!
# Installed classes

An installation makes a prototype and a constructor that refer to each other, and puts the
constructor on the global object. If that is refused the two of them are left over; either way all
classes from before stay as they are, and so they do when the request has ended.
-/

namespace ScriptBridge.Script.Machine

variable {α β : Type} {m m' : Machine} {editions : List Edition} {edition : Edition}
  {x prototype behind : ObjectId} {g : Object} {spec : ClassSpec}

/-! ## Making a class -/

/-- A class that is put in place is on display. -/
theorem Displays.place (h : Displays m editions)
    (hbehind : behind? editions edition.spec = some behind)
    (hnew : edition.prototype ∉ essentials editions)
    (hapart : edition.constructor ≠ Realm.globalObject ∧ edition.prototype ≠ Realm.globalObject)
    (hfunction : m.heap[edition.constructor]? = some edition.function)
    (hmodel : m.heap[edition.prototype]? = some (edition.model behind))
    (hheap : ∀ x : ObjectId, m'.heap[x]? = if x = Realm.globalObject then some g else m.heap[x]?)
    (hpresents : Presents (edition :: editions) g) : Displays m' (edition :: editions) where
  fixtures x hx := by
    have hne : ∀ x ∈ Machine.fixtures, x ≠ Realm.globalObject := by decide +kernel
    rw [hheap, if_neg (hne x hx)]
    exact h.fixtures x hx
  global := ⟨g, by rw [hheap, if_pos rfl], hpresents⟩
  standing := by
    have hold : Standing m' editions := h.standing.congr fun old hmem ↦ by
      obtain ⟨hconstructor, hprototype⟩ := h.standing.ne_global hmem
      rw [hheap, hheap, if_neg hconstructor, if_neg hprototype]
      exact ⟨rfl, rfl⟩
    refine .cons hold hbehind (fun old hmem heq ↦ hnew ?_) hapart ?_ ?_
    · exact mem_essentials.mpr (.inr (.inr ⟨old, hmem, .inr heq.symm⟩))
    · rw [hheap, if_neg hapart.1, hfunction]
    · rw [hheap, if_neg hapart.2, hmodel]

/-- A class that is made is on display, and the result tells so, or an error has been thrown because
of its name. -/
inductive Offering (editions : List Edition) (edition : Edition) (a : α) :
    Option α × Machine → Prop
  | made {m : Machine} (h : Displays m (edition :: editions)) :
    Offering editions edition a (some a, m)
  | thrown {m : Machine} (hname : edition.spec.name ∈ reservedNames) (h : Displays m editions) :
    Offering editions edition a (none, m)

theorem Offering.of_holding {a : α} {values : List Datum} {action : Interp α}
    (h : Offering editions edition a (action.run { m with pins := values ++ m.pins })) :
    Offering editions edition a ((Interp.holding values action).run m) := by
  rw [run_holding]
  cases hrun : action.run { m with pins := values ++ m.pins } with
  | mk result after =>
    rw [hrun] at h
    cases h with
    | made h => exact .made (h.of_heap rfl)
    | thrown hname h => exact .thrown hname (h.of_heap rfl)

theorem Offering.bind_pure {a : α} {b : β} {action : Interp α}
    (h : Offering editions edition a (action.run m)) :
    Offering editions edition b ((action >>= fun _ ↦ pure b).run m) := by
  rw [Interp.run_bind]
  cases hrun : action.run m with
  | mk result after =>
    rw [hrun] at h
    cases h with
    | made h => exact .made h
    | thrown hname h => exact .thrown hname h

theorem Displays.assignOrThrow (h : Displays m editions) (hfresh : m.fresh ∉ m.heap)
    (hbehind : behind? editions edition.spec = some behind)
    (hnew : edition.prototype ∉ essentials editions)
    (hapart : edition.constructor ≠ Realm.globalObject ∧ edition.prototype ≠ Realm.globalObject)
    (hfunction : m.heap[edition.constructor]? = some edition.function)
    (hmodel : m.heap[edition.prototype]? = some (edition.model behind)) :
    Offering editions edition () ((Interp.assignOrThrow Interp.invoke Realm.globalObject
      edition.spec.name (.object edition.constructor)).run m) := by
  have hassigns : Assigns m editions edition _ := h.assigns hfresh
  unfold Interp.assignOrThrow
  rw [Interp.run_bind]
  cases hrun : (Interp.assign Interp.invoke Realm.globalObject edition.spec.name
    (.object edition.constructor)).run m with
  | mk result after =>
    rw [hrun] at hassigns
    cases hassigns with
    | placed hheap hpresents =>
      exact .made (h.place hbehind hnew hapart hfunction hmodel hheap hpresents)
    | @refused _ fault hname hheap hnext =>
      have hdisplays : Displays after editions := h.of_heap hheap
      have hfresh : after.fresh ∉ after.heap := by rwa [fresh, hnext, hheap]
      have hold := undisturbed_raiseFault (α := Unit) hfresh fault
      exact .thrown hname (hdisplays.of_old hold.old)
    | thrown hname hold => exact .thrown hname (h.of_old hold)

theorem run_allocate {o : Object} (ho : o.payload? = none) (m : Machine) :
    (Interp.allocate o).run m = (some m.fresh, m.placed o) :=
  congrArg (fun r : ObjectId × Machine ↦ (some r.1, r.2)) (allocate_eq ho)

/-- A property that an object does not have yet is defined. -/
theorem run_defineOrThrow_new {o : Object} {key : String} (hindex : arrayIndex? key = none)
    (ho : m.heap[x]? = some o) (hown : o.own? key = none) (hextensible : o.extensible = true)
    (descriptor : Descriptor) : (Interp.defineOrThrow Interp.invoke x key descriptor).run m =
      (some (), m.update x (·.put key ⟨descriptor.content, descriptor.flags⟩)) := by
  have hobject : (m.object x).own? key = none := by rwa [object_of_getElem? ho]
  have hdefine := run_define_of_own?_eq_none hindex hobject Interp.invoke descriptor
  rw [object_of_getElem? ho, if_pos hextensible] at hdefine
  unfold Interp.defineOrThrow
  rw [run_bind_of hdefine]
  rfl

/-- A machine on which a class stands, but is not on the global object. -/
def readied (edition : Edition) (m : Machine) : Machine :=
  ((m.placed (Realm.functionObject (.native ⟨edition.spec.name, edition.spec.constructor,
      edition.spec.finalizer⟩) 0 edition.spec.name)).update edition.constructor
    (·.put "prototype" ⟨.data (.object edition.prototype), .sealed⟩)).update edition.prototype
    (·.put "constructor" ⟨.data (.object edition.constructor), .hidden⟩)

theorem getElem?_heap_readied (hprototype : m.heap[prototype]? = some (.empty .ordinary
    (some behind))) (hne : prototype ≠ m.fresh) (spec : ClassSpec) (x : ObjectId) :
    let edition : Edition := ⟨spec, prototype, m.fresh⟩
    (m.readied edition).heap[x]? = if x = prototype then some (edition.model behind)
      else if x = m.fresh then some edition.function else m.heap[x]? := by
  intro edition
  rw [readied, getElem?_heap_update, getElem?_heap_update, getElem?_heap_update,
    getElem?_heap_placed, getElem?_heap_placed, getElem?_heap_placed, if_neg hne, if_neg hne,
    if_pos rfl, hprototype]
  split
  · rfl
  · split <;> rfl

/-- A constructor is made for a prototype, and then assigned to the name of the class. -/
theorem run_offerClass (hprototype : m.heap[prototype]? = some (.empty .ordinary (some behind)))
    (hne : prototype ≠ m.fresh) : (Machine.offerClass spec prototype).run m =
      (Interp.holding [.object m.fresh] (Interp.assignOrThrow Interp.invoke Realm.globalObject
        spec.name (.object m.fresh))).run (m.readied ⟨spec, prototype, m.fresh⟩) := by
  let made := Realm.functionObject
    (.native ⟨spec.name, spec.constructor, spec.finalizer⟩) 0 spec.name
  let first : Machine := { m.placed made with pins := [.object m.fresh] ++ m.pins }
  let second := first.update m.fresh (·.put "prototype" ⟨.data (.object prototype), .sealed⟩)
  let third := second.update prototype (·.put "constructor" ⟨.data (.object m.fresh), .hidden⟩)
  have hfirst (x : ObjectId) : first.heap[x]? = if x = m.fresh then some made else m.heap[x]? :=
    getElem?_heap_placed m made x
  have hdefine : (Interp.defineOrThrow Interp.invoke m.fresh "prototype"
      { value := some (.object prototype) }).run first = (some (), second) :=
    run_defineOrThrow_new rfl ((hfirst _).trans (if_pos rfl)) rfl rfl _
  have hsecond : second.heap[prototype]? = some (.empty .ordinary (some behind)) := by
    rw [getElem?_heap_update, if_neg hne, hfirst, if_neg hne, hprototype]
  have hdefine' : (Interp.defineOrThrow Interp.invoke prototype "constructor"
      { value := some (.object m.fresh), writable := some true, configurable := some true }).run
        second = (some (), third) :=
    run_defineOrThrow_new rfl hsecond rfl rfl _
  unfold Machine.offerClass
  rw [run_bind_of (run_allocate rfl m), run_holding, run_holding]
  change (let r := OptionT.run (Interp.defineOrThrow _ _ _ _ >>= _) first
    (r.1, ({ r.2 with pins := m.pins } : Machine))) = _
  rw [run_bind_of hdefine, run_bind_of hdefine']
  rfl

/-- The constructor of a class is made for its prototype, and put on the global object. -/
theorem Displays.offerClass (h : Displays m editions)
    (hlt : ∀ {x : ObjectId}, x ∈ m.heap → x.index < m.nextObject)
    (hbehind : behind? editions spec = some behind)
    (hprototype : m.heap[prototype]? = some (.empty .ordinary (some behind)))
    (hnew : prototype ∉ essentials editions) :
    Offering editions ⟨spec, prototype, m.fresh⟩ () ((offerClass spec prototype).run m) := by
  let edition : Edition := ⟨spec, prototype, m.fresh⟩
  have hfresh : m.fresh ∉ m.heap := fun hmem ↦ Nat.lt_irrefl _ (hlt hmem)
  have hne : prototype ≠ m.fresh := ne_of_mem_of_not_mem (mem_heap_of_getElem? hprototype) hfresh
  let held : Machine := { m.readied edition with pins := [.object m.fresh] ++ m.pins }
  have hheld (x : ObjectId) : held.heap[x]? = if x = prototype then some (edition.model behind)
      else if x = m.fresh then some edition.function else m.heap[x]? :=
    getElem?_heap_readied hprototype hne spec x
  have hdisplays : Displays held editions := h.congr fun x hx ↦ by
    rw [hheld, if_neg (ne_of_mem_of_not_mem hx hnew), if_neg (h.ne_fresh hfresh hx)]
  have hfreshest : held.fresh ∉ held.heap := by
    intro hmem
    rcases mem_heap_placed.mp (mem_heap_update.mp (mem_heap_update.mp hmem)) with heq | hold
    · exact Nat.succ_ne_self m.nextObject (congrArg ObjectId.index heq)
    · exact Nat.not_succ_lt_self (hlt hold)
  rw [run_offerClass hprototype hne]
  apply Offering.of_holding
  refine hdisplays.assignOrThrow hfreshest hbehind hnew ⟨?_, ?_⟩ ?_ ?_
  · exact (h.ne_fresh hfresh (mem_essentials.mpr (.inl rfl))).symm
  · exact fun heq ↦ hnew (mem_essentials.mpr (.inl heq))
  · exact (hheld _).trans ((if_neg hne.symm).trans (if_pos rfl))
  · exact (hheld _).trans (if_pos rfl)

/-- The same after the prototype has been made, and knows what stands behind it. -/
theorem Displays.offerClass_made (h : Displays m editions)
    (hlt : ∀ {x : ObjectId}, x ∈ m.heap → x.index < m.nextObject)
    (hbehind : behind? editions spec = some behind) (hnext : m'.nextObject = m.nextObject + 1)
    (hheap : ∀ x : ObjectId, m'.heap[x]? =
      if x = m.fresh then some (.empty .ordinary (some behind)) else m.heap[x]?) :
    Offering editions ⟨spec, m.fresh, ⟨m.nextObject + 1⟩⟩ ()
      ((Machine.offerClass spec m.fresh).run m') := by
  have hfresh : m.fresh ∉ m.heap := fun hmem ↦ Nat.lt_irrefl _ (hlt hmem)
  have hnew : m.fresh ∉ essentials editions := fun hmem ↦ h.ne_fresh hfresh hmem rfl
  have hdisplays : Displays m' editions := h.congr fun x hx ↦ by
    rw [hheap, if_neg (h.ne_fresh hfresh hx)]
  have hbelow {x : ObjectId} (hx : x ∈ m'.heap) : x.index < m'.nextObject := by
    obtain ⟨o, ho⟩ := mem_heap_iff.mp hx
    rw [hheap] at ho
    rw [hnext]
    split at ho
    · next heq => rw [heq]; exact Nat.lt_succ_self _
    · exact Nat.lt_succ_of_lt (hlt (mem_heap_of_getElem? ho))
  have hplace : m'.fresh = ⟨m.nextObject + 1⟩ := congrArg ObjectId.mk hnext
  have hoffering := hdisplays.offerClass hbelow hbehind ((hheap _).trans (if_pos rfl)) hnew
  rwa [hplace] at hoffering

/-- A class is made, with the prototype of its parent behind its own one. The parent is the latest
class of that name. -/
theorem Displays.makeClass (h : Displays m editions)
    (hlt : ∀ {x : ObjectId}, x ∈ m.heap → x.index < m.nextObject)
    (hbehind : behind? editions spec = some behind) :
    Offering editions ⟨spec, m.fresh, ⟨m.nextObject + 1⟩⟩ (.ok ()) ((makeClass spec).run m) := by
  let made := m.placed (.empty .ordinary (some Realm.objectPrototype))
  let held : Machine := { made with pins := [.object m.fresh] ++ made.pins }
  have hfresh : m.fresh ∉ m.heap := fun hmem ↦ Nat.lt_irrefl _ (hlt hmem)
  have hmade (x : ObjectId) : held.heap[x]? =
      if x = m.fresh then some (.empty .ordinary (some Realm.objectPrototype)) else m.heap[x]? :=
    getElem?_heap_placed m _ x
  have hheld : Displays held editions := h.congr fun x hx ↦ by
    rw [hmade, if_neg (h.ne_fresh hfresh hx)]
  unfold Machine.makeClass
  rw [run_bind_of (run_allocate rfl m)]
  apply Offering.of_holding
  unfold behind? at hbehind
  cases hparent : spec.parent with
  | none =>
    rw [hparent] at hbehind
    obtain rfl := Option.some.inj hbehind
    exact (h.offerClass_made hlt (by rw [behind?, hparent]) rfl hmade).bind_pure
  | some parent =>
    rw [hparent] at hbehind
    obtain ⟨latest, hlatest, rfl⟩ := Option.map_eq_some_iff.mp hbehind
    let named := held.touched parent
    have hupdate :
      (Interp.update m.fresh ({ · with prototype := some latest.prototype })).run named =
        (some (), named.update m.fresh ({ · with prototype := some latest.prototype })) := rfl
    change Offering _ _ _ (OptionT.run (parentPrototype parent >>= _) held)
    rw [run_bind_of (hheld.run_parentPrototype hlatest)]
    dsimp only
    rw [run_bind_of hupdate]
    have hbehind : behind? editions spec = some latest.prototype := by
      rw [behind?, hparent]
      exact hbehind
    refine (h.offerClass_made hlt hbehind ?_ fun x ↦ ?_).bind_pure
    · show (held.touched parent).nextObject = _
      unfold touched
      split <;> rfl
    · rw [getElem?_heap_update, heap_touched, hmade, hmade, if_pos rfl]
      split <;> rfl

/-! ## Requests -/

/-- Whatever the display depends on is referred to: the machine holds on to some of it, and the
others refer to each other. -/
theorem Displays.notMem_unreferenced (h : Displays m editions)
    (hanchors : m.anchors = Realm.anchors)
    (hx : x ∈ essentials editions) (kept : List ObjectId) : x ∉ m.unreferenced kept := by
  have hanchor (hx : x ∈ Realm.anchors) : x ∈ m.referenced kept :=
    mem_referenced.mpr (.inr (.inl (mem_roots.mpr (.inl (hanchors ▸ hx)))))
  have hfrom {y : ObjectId} {o : Object} (ho : m.heap[y]? = some o) (hx : x ∈ o.references) :
      x ∈ m.referenced kept := mem_referenced.mpr (.inr (.inr ⟨y, o, ho, hx⟩))
  refine fun hun ↦ (mem_unreferenced.mp hun).2 ?_
  rcases mem_essentials.mp hx with rfl | hfixture | ⟨edition, hedition, rfl | rfl⟩
  · exact hanchor (by decide +kernel)
  · obtain ⟨root, hroot, -, hown, -⟩ := h.objectPrototype
    have hproto := Object.mem_of_own? hown
    have hshown {y : ObjectId} (hy : y ∈ protoProperty.content.references) : y ∈ root.references :=
      Object.mem_references.mpr (.inr (.inr ⟨_, hproto, hy⟩))
    simp only [Machine.fixtures, List.mem_cons, List.not_mem_nil, or_false] at hfixture
    rcases hfixture with rfl | rfl | rfl | rfl
    · exact hanchor (by decide +kernel)
    · exact hanchor (by decide +kernel)
    · exact hfrom hroot (hshown (by simp [protoProperty, Content.references]))
    · exact hfrom hroot (hshown (by simp [protoProperty, Content.references]))
  · obtain ⟨-, behind, hmodel⟩ := h.standing.of_mem hedition
    have hown : (edition.model behind).own? "constructor" = some _ := Object.own?_put_self _ _ _
    exact hfrom hmodel (Object.mem_references.mpr
      (.inr (.inr ⟨_, Object.mem_of_own? hown, List.mem_singleton_self _⟩)))
  · exact hfrom (h.standing.of_mem hedition).1 (Object.mem_references.mpr
      (.inr (.inr ⟨_, Object.mem_of_own? edition.own?_prototype_function,
        List.mem_singleton_self _⟩)))

theorem Displays.settle (h : Displays m editions) (hanchors : m.anchors = Realm.anchors)
    (kept : List ObjectId) : Displays (m.settle kept) editions := by
  refine (settle_induction (P := fun m ↦ m.anchors = Realm.anchors ∧ Displays m editions) kept
    ⟨hanchors, h⟩ fun m hm ↦ ?_).2
  obtain ⟨hanchors, h⟩ := hm
  refine ⟨by rw [freeAll_eq]; exact hanchors, h.congr fun x hx ↦ ?_⟩
  rw [getElem?_heap_freeAll, if_neg (h.notMem_unreferenced hanchors hx kept)]

/-- A request to install a class puts it on display, or leaves the display as it is because the name
is reserved. -/
theorem Displays.installClass (h : Displays m editions) (hsteady : Steady m)
    (hopen : m.isOpen = true)
    (hbehind : behind? editions spec = some behind) :
    ((Backend.installClass spec m).result = .ok () ∧
      Displays (Backend.installClass spec m).state
        (⟨spec, m.fresh, ⟨m.nextObject + 1⟩⟩ :: editions)) ∨
    ((Backend.installClass spec m).result = .error .exceptionPending ∧
      spec.name ∈ reservedNames ∧ Displays (Backend.installClass spec m).state editions) := by
  have hunderway := hsteady.installClass hopen spec
  have hrequest : Backend.installClass spec m = _ :=
    whileOpen_of_isOpen hopen (Machine.installClass spec)
  rw [hrequest]
  have hoffering := h.makeClass hsteady.heap_lt hbehind
  unfold Machine.installClass interpret at hunderway ⊢
  cases hrun : (Machine.makeClass spec).run m with
  | mk result after =>
    rw [hrun] at hoffering hunderway
    cases hoffering with
    | made hdisplays =>
      exact .inl ⟨rfl, (hdisplays.settle hunderway.sound.anchors []).of_heap rfl⟩
    | thrown hname hdisplays =>
      exact .inr ⟨rfl, hname, (hdisplays.settle hunderway.sound.anchors []).of_heap rfl⟩

/-! ## Instances -/

/-- Whatever has the prototype of a class also has what stands behind that. -/
theorem Displays.mem_chain (h : Displays m editions) (hmodel : m.heap[prototype]? = some
    (edition.model behind)) (hx : (m.object x).prototype = some prototype) :
    prototype ∈ (m.chain x).tail ∧ behind ∈ (m.chain x).tail := by
  obtain ⟨steps, hsteps⟩ := Nat.exists_eq_add_of_le' h.four_le_size
  have hchain : m.chain x = x :: prototype :: m.chainWithin (steps + 2) behind := by
    unfold chain
    rw [hsteps, chainWithin, hx]
    show x :: m.chainWithin (steps + 2 + 1) prototype = _
    rw [chainWithin, object_of_getElem? hmodel]
    rfl
  rw [hchain, List.tail_cons]
  refine ⟨List.mem_cons_self, List.mem_cons_of_mem _ ?_⟩
  rw [chainWithin]
  exact List.mem_cons_self

/-- To be an instance of a class is to have its prototype. -/
theorem Displays.run_isInstance (h : Displays m editions) (hedition : edition ∈ editions)
    (x : ObjectId) : (Interp.isInstance Interp.invoke (.object x) (.object edition.constructor)).run
      m = (some ((m.chain x).tail.contains edition.prototype), m) := by
  have hfunction := (h.standing.of_mem hedition).1
  have hread : (Interp.read Interp.invoke edition.constructor "prototype").run m =
      (some (.object edition.prototype), m) :=
    run_read_of_shows hfunction ⟨_, edition.own?_prototype_function⟩ (by decide)
  unfold Interp.isInstance
  rw [run_bind_of (run_object m _), object_of_getElem? hfunction]
  exact (run_bind_of hread).trans rfl

/-! ## Fresh machines -/

/-- A fresh machine displays no classes. -/
theorem displays_machine (isStrict : Bool) : Displays (Realm.machine isStrict) [] where
  fixtures x _ := Realm.getElem?_heap isStrict x
  global := by
    have hconcrete : Realm.globalThis.Plain ∧ Realm.globalThis.Open ∧
        Realm.globalThis.own? protoKey = none := by decide +kernel
    obtain ⟨hplain, hopen, hown⟩ := hconcrete
    exact ⟨Realm.globalThis, (Realm.getElem?_heap isStrict _).trans rfl, rfl, rfl, hplain, hopen,
      hown, rfl, fun hlatest ↦ by cases hlatest⟩
  standing := .nil

end ScriptBridge.Script.Machine
