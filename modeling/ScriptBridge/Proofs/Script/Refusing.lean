import ScriptBridge.Proofs.Script.Trapping

/-!
# Instances of classes that are refused

A setter that a class meets under its name may make an instance of the class before it throws. The
class is refused then, but a payload was made for that instance, with the finalizer that the class
had. Everything else is as it was before.
-/

namespace ScriptBridge.Script.Machine

variable {α β : Type} {m m' m'' : Machine} {g f o : Object} {x y prototype : ObjectId}
  {payload : Payload} {native : NativeClass} {constructor : NativeConstructor} {text : String}
  {invoke : Invoke} {edition : Edition} {spec : ClassSpec}

/-! ## What is only added -/

/-- Objects may have been added and payloads made. Whatever has been there is as it was. -/
structure Adds (m m' : Machine) : Prop where
  old : ∀ {x : ObjectId}, x.index < m.nextObject → m'.heap[x]? = m.heap[x]?
  next : m.nextObject ≤ m'.nextObject
  anchors : m'.anchors = m.anchors
  requests : m'.requests = m.requests
  made : ∀ entry ∈ m.ledger.made, entry ∈ m'.ledger.made
  given : ∀ entry ∈ m.ledger.given, entry ∈ m'.ledger.given

namespace Adds

theorem of_heap (hheap : m'.heap = m.heap) (hnext : m'.nextObject = m.nextObject)
    (hanchors : m'.anchors = m.anchors) (hrequests : m'.requests = m.requests)
    (hmade : m'.ledger.made = m.ledger.made) (hgiven : m'.ledger.given = m.ledger.given) :
    Adds m m' where
  old _ := by rw [hheap]
  next := Nat.le_of_eq hnext.symm
  anchors := hanchors
  requests := hrequests
  made _ := by rw [hmade]; exact id
  given _ := by rw [hgiven]; exact id

theorem trans (first : Adds m m') (second : Adds m' m'') : Adds m m'' where
  old hx := (second.old (Nat.lt_of_lt_of_le hx first.next)).trans (first.old hx)
  next := Nat.le_trans first.next second.next
  anchors := second.anchors.trans first.anchors
  requests := second.requests.trans first.requests
  made entry hentry := second.made entry (first.made entry hentry)
  given entry hentry := second.given entry (first.given entry hentry)

theorem placed (h : Adds m m') (o : Object) : Adds m (m'.placed o) where
  old {x} hx := by
    have hne : x ≠ m'.fresh := by
      rintro rfl
      exact Nat.lt_irrefl _ (Nat.lt_of_lt_of_le hx h.next)
    rw [getElem?_heap_placed, if_neg hne]
    exact h.old hx
  next := Nat.le_succ_of_le h.next
  anchors := h.anchors
  requests := h.requests
  made entry hentry := List.mem_append_left _ (h.made entry hentry)
  given := h.given

/-- What was added may be changed. -/
theorem update (h : Adds m m') (hx : m.nextObject ≤ x.index) (edit : Object → Object) :
    Adds m (m'.update x edit) where
  old {y} hy := by
    have hne : y ≠ x := by
      rintro rfl
      exact Nat.lt_irrefl _ (Nat.lt_of_lt_of_le hy hx)
    rw [getElem?_heap_update, if_neg hne]
    exact h.old hy
  next := h.next
  anchors := h.anchors
  requests := h.requests
  made := h.made
  given := h.given

theorem entrusted (h : Adds m m') (x c : ObjectId) : Adds m (m'.entrusted x c) :=
  { h with given := fun entry hentry ↦ List.mem_append_left _ (h.given entry hentry) }

end Adds

/-- An object was given a carrier of a payload. -/
def Granted (m : Machine) (payload : Payload) : Prop :=
  ∃ x c, (x, c) ∈ m.ledger.given ∧ (c, payload) ∈ m.ledger.made

theorem Granted.of_adds (h : Granted m payload) (hadds : Adds m m') : Granted m' payload := by
  obtain ⟨x, c, hgiven, hmade⟩ := h
  exact ⟨x, c, hadds.given _ hgiven, hadds.made _ hmade⟩

/-- Nothing comes of it but additions. An object was given a carrier of a payload meanwhile. -/
def Wastes (m : Machine) (payload : Payload) (r : Option α × Machine) : Prop :=
  r.1 = none ∧ Adds m r.2 ∧ Granted r.2 payload

namespace Wastes

variable {action : Interp α} {next : α → Interp β} {r : Option α × Machine}

theorem of_adds (first : Adds m m') (h : Wastes m' payload r) : Wastes m payload r :=
  ⟨h.1, first.trans h.2.1, h.2.2⟩

theorem bind (h : Wastes m payload (action.run m')) :
    Wastes m payload ((action >>= next).run m') := by
  rw [run_bind_of_none (Prod.ext h.1 rfl)]
  exact ⟨rfl, h.2⟩

theorem holding {values : List Datum}
    (h : Wastes m payload (action.run { m' with pins := values ++ m'.pins })) :
    Wastes m payload ((Interp.holding values action).run m') :=
  ⟨h.1, h.2.1.trans (.of_heap rfl rfl rfl rfl rfl rfl), h.2.2⟩

theorem inFrame {frame : Frame}
    (h : Wastes m payload (action.run { m' with frames := frame :: m'.frames })) :
    Wastes m payload ((Interp.inFrame frame action).run m') :=
  ⟨h.1, h.2.1.trans (.of_heap rfl rfl rfl rfl rfl rfl), h.2.2⟩

/-- A call of one of the functions that every script finds. -/
theorem intrinsic {which : Intrinsic} {this : Datum} {arguments : List Datum} {depth : Nat}
    (hcallable : (m.object x).callable? = some (.intrinsic which)) (hshown : which.isShown = true)
    (h : ∀ called : Machine, called.heap = m.heap → called.nextHandle = m.nextHandle →
      Adds m called → Wastes called payload
        ((Interp.runIntrinsic (Interp.invokeWithin depth) which this arguments none).run called)) :
    Wastes m payload ((Interp.invokeWithin (depth + 1) x this arguments none).run m) := by
  let called : Machine := { m with
    pins := .object x :: this :: arguments ++ m.pins
    frames := ⟨some x, none⟩ :: m.frames }
  have hcalled : Adds m called := .of_heap rfl rfl rfl rfl rfl rfl
  rw [run_invokeWithin_intrinsic hcallable hshown]
  refine Wastes.holding (.inFrame ?_)
  exact Wastes.of_adds hcalled (h called rfl rfl hcalled)

end Wastes

/-! ## An instance -/

/-- With so many handles given out, arguments are handed over without a script being run. -/
def HandsQuietly (invoke : Invoke) (arguments : List Datum) (next : Nat) : Prop :=
  ∀ m : Machine, m.nextHandle = next → ∃ values slots last issued,
    (Interp.handOverAll invoke arguments).run m =
      (some (values, none), { m with slots := slots, nextHandle := last, issued := issued })

theorem handsQuietly_nil (invoke : Invoke) (next : Nat) : HandsQuietly invoke [] next :=
  fun m _ ↦ ⟨[], m.slots, m.nextHandle, m.issued, rfl⟩

/-- An object is handed over quietly as long as there is a handle left for it. -/
theorem handsQuietly_object {next : Nat} (hroom : next < mostHandles) (invoke : Invoke)
    (z : ObjectId) : HandsQuietly invoke [.object z] next := by
  rintro m rfl
  have hover : (Interp.handOver invoke (.object z)).run m =
      (some (.ok (.object ⟨m.nextHandle⟩)), (m.issue z).2) := by
    show (some ((m.handOut z).1.map Value.object), (m.handOut z).2) = _
    rw [handOut_of_lt hroom]
    rfl
  let issued := (m.issue z).2
  refine ⟨[.object ⟨m.nextHandle⟩], issued.slots, issued.nextHandle, issued.issued, ?_⟩
  rw [Interp.handOverAll, run_bind_of hover]
  rfl

/-- A native constructor that gives a payload makes an instance. -/
theorem run_constructNative {arguments : List Datum} (native : NativeClass)
    (hhanded : HandsQuietly invoke arguments m.nextHandle) (hx : m.heap[x]? = some o)
    (hshows : o.Shows "prototype" (.object prototype))
    (hnative : native.constructor = some constructor)
    (hgives : ∀ values, constructor values = .ok (some text)) : ∃ made o' m',
      (Interp.constructNative invoke native .undefined (some x) arguments).run m =
        (some (.object made), m') ∧ Adds m m' ∧ m'.heap[made]? = some o' ∧ o'.kind = .ordinary ∧
      Granted m' ⟨text, native.finalizer⟩ := by
  let placed := m.placed (.empty .ordinary (some prototype))
  let held : Machine := { placed with pins := [.object m.fresh] ++ placed.pins }
  obtain ⟨values, slots, last, issued, hhanded⟩ := hhanded held rfl
  let built : Machine := Machine.finish values [.construct native.name values]
    { held with slots := slots, nextHandle := last, issued := issued }
  have htarget : (Interp.constructionTarget .undefined (some x)).run m = (some (some x), m) := rfl
  have hread : (Interp.read invoke x "prototype").run m = (some (.object prototype), m) :=
    run_read_of_shows hx hshows (by decide)
  have hbuild : (Interp.buildPayload invoke native constructor arguments).run held =
      (some (constructor values), built) := run_buildPayload hhanded
  have hmade : built.heap[m.fresh]? = some (.empty .ordinary (some prototype)) :=
    (getElem?_heap_placed m _ _).trans (if_pos rfl)
  have hne : m.fresh ≠ built.fresh := fun heq ↦
    Nat.succ_ne_self m.nextObject (congrArg ObjectId.index heq).symm
  let payload : Payload := ⟨text, native.finalizer⟩
  obtain ⟨flags, -, hattach⟩ : ∃ flags, flags.configurable = true ∧
      (Interp.attachPayload invoke m.fresh payload).run built =
        (some (), (built.placed (carrierObject payload)).attached m.fresh built.fresh flags) :=
    run_attachPayload_of_accepts hmade hne rfl (fun p hp ↦ by cases hp) payload
  let after : Machine := (built.placed (carrierObject payload)).attached m.fresh built.fresh flags
  have hadds : Adds m built := ((Adds.of_heap rfl rfl rfl rfl rfl rfl).placed _).trans
    (.of_heap rfl rfl rfl rfl rfl rfl)
  have hattached : Adds m after :=
    ((hadds.placed _).update (Nat.le_refl _) _).entrusted _ _
  let bearer := (Object.empty .ordinary (some prototype)).put payloadKey
    ⟨.data (.object built.fresh), flags⟩
  refine ⟨m.fresh, bearer, { after with pins := m.pins }, ?_,
    hattached.trans (.of_heap rfl rfl rfl rfl rfl rfl), ?_, rfl, m.fresh, built.fresh, ?_, ?_⟩
  · unfold Interp.constructNative
    rw [run_bind_of htarget]
    dsimp only
    rw [run_bind_of hread]
    dsimp only [Datum.optionalObject]
    rw [run_bind_of (run_allocate rfl m), run_holding, hnative]
    dsimp only
    change (let r := OptionT.run (Interp.buildPayload _ _ _ _ >>= _) held
      (r.1, ({ r.2 with pins := m.pins } : Machine))) = _
    rw [run_bind_of hbuild, hgives]
    dsimp only
    rw [run_bind_of hattach]
    rfl
  · show (Machine.update m.fresh _ (built.placed _)).heap[m.fresh]? = _
    rw [getElem?_heap_update, if_pos rfl, getElem?_heap_placed, if_neg hne, hmade]
    rfl
  · show _ ∈ built.ledger.given ++ _
    exact List.mem_append_right _ (List.mem_singleton_self _)
  · show _ ∈ built.ledger.made ++ _
    exact List.mem_append_right _ (List.mem_singleton_self _)

/-- So does a call of the script constructor. -/
theorem run_invokeWithin_native {arguments : List Datum} {depth : Nat} (native : NativeClass)
    (hhanded : HandsQuietly (Interp.invokeWithin depth) arguments m.nextHandle)
    (hx : m.heap[x]? = some o) (hclass : o.callable? = some (.native native))
    (hshows : o.Shows "prototype" (.object prototype))
    (hnative : native.constructor = some constructor)
    (hgives : ∀ values, constructor values = .ok (some text)) : ∃ made o' m',
      (Interp.invokeWithin (depth + 1) x .undefined arguments (some x)).run m =
        (some (.object made), m') ∧ Adds m m' ∧ m'.heap[made]? = some o' ∧ o'.kind = .ordinary ∧
      Granted m' ⟨text, native.finalizer⟩ := by
  let pinned : Machine := { m with
    pins := .object x :: .undefined :: arguments ++ [.object x] ++ m.pins }
  obtain ⟨made, o', after, hrun, hadds, hmade, hkind, hgranted⟩ :=
    run_constructNative (m := pinned) native hhanded hx hshows hnative hgives
  refine ⟨made, o', { after with pins := m.pins }, ?_, ?_, hmade, hkind, hgranted⟩
  · rw [Interp.invokeWithin]
    dsimp only
    rw [run_holding_object, object_of_getElem? hx, hclass]
    exact run_holding_of hrun rfl
  · have hpinned : Adds m pinned := .of_heap rfl rfl rfl rfl rfl rfl
    exact hpinned.trans (hadds.trans (.of_heap rfl rfl rfl rfl rfl rfl))

theorem adds_raiseFault (fault : Fault) (m : Machine) :
    Adds m ((Interp.raiseFault fault : Interp α).run m).2 :=
  (((Adds.of_heap rfl rfl rfl rfl rfl rfl).placed _).update (Nat.le_refl _) _).trans
    (.of_heap rfl rfl rfl rfl (List.append_nil _).symm rfl)

/-- What is no promise was made in vain. -/
theorem wastes_makeRejected {depth : Nat} (hroom : m.nextHandle < mostHandles)
    (hx : m.heap[edition.constructor]? = some edition.function)
    (hconstructor : edition.spec.constructor = some constructor)
    (hgives : ∀ values, constructor values = .ok (some text)) (reason : Datum) :
    Wastes m ⟨text, edition.spec.finalizer⟩ ((Interp.makeRejected (Interp.invokeWithin (depth + 1))
      edition.constructor reason).run m) := by
  let function : Datum := .object Realm.functionPrototype
  obtain ⟨made, o, after, hcall, hadds, hmade, hkind, hgranted⟩ :=
    run_invokeWithin_native (.of edition.spec)
      (handsQuietly_object hroom (Interp.invokeWithin depth) Realm.functionPrototype) hx rfl
      ⟨_, edition.own?_prototype_function⟩ hconstructor hgives
  have hobject : m.object edition.constructor = edition.function := object_of_getElem? hx
  have hraised := adds_raiseFault (α := Datum) .notFunction after
  unfold Interp.makeRejected
  rw [run_bind_of (run_object m _), hobject]
  change Wastes _ _ (OptionT.run (Interp.invokeWithin _ _ _ _ _ >>= _) m)
  rw [run_bind_of hcall]
  dsimp only
  rw [run_bind_of (run_object after made), object_of_getElem? hmade, hkind]
  have hafter : Granted after ⟨text, edition.spec.finalizer⟩ := hgranted
  exact ⟨Safe.run_raiseFault _ _, hadds.trans hraised, hafter.of_adds hraised⟩

/-! ## A setter that makes an instance -/

/-- The text of a function is asked for by `toString`, and the function makes rejected promises. -/
structure Baited (g f : Object) (m : Machine) : Prop extends Ground g f m where
  prototype : f.prototype = some Realm.objectPrototype
  shows : f.Shows "toString" (.object (Realm.function .promiseReject))

namespace Baited

theorem of_heap (h : Baited g f m) (hanchors : m'.anchors = m.anchors)
    (hrequests : m'.requests = m.requests) (hheap : m'.heap = m.heap) : Baited g f m' :=
  { h with toGround := h.toGround.of_heap hanchors hrequests hheap }

theorem callable?_reject (h : Baited g f m) : (m.object (Realm.function .promiseReject)).callable? =
    some (.intrinsic .promiseReject) :=
  h.callable?_landmark (by simp [landmarks]) rfl rfl

theorem callable?_string (h : Baited g f m) :
    (m.object (Realm.function (.primitiveConstructor .string))).callable? =
      some (.intrinsic (.primitiveConstructor .string)) :=
  h.callable?_landmark (by simp [landmarks]) rfl rfl

/-- The prototypes of a constructor are the common ones. -/
theorem mem_chain (h : Baited g f m) (hx : m.heap[edition.constructor]? = some edition.function)
    (hy : y ∈ m.chain edition.constructor) :
    y = edition.constructor ∨ y = Realm.functionPrototype ∨ y = Realm.objectPrototype := by
  refine of_mem_chainWithin (P := fun y ↦ y = edition.constructor ∨ y = Realm.functionPrototype ∨
    y = Realm.objectPrototype) (fun y hy parent hparent ↦ ?_) (.inl rfl) hy
  obtain ⟨root, hroot, hlast, -⟩ := h.root
  rcases hy with rfl | rfl | rfl
  · rw [object_of_getElem? hx] at hparent
    exact .inr (.inl (Option.some.inj hparent).symm)
  · rw [object_of_getElem? h.functions, h.prototype] at hparent
    exact .inr (.inr (Option.some.inj hparent).symm)
  · rw [object_of_getElem? hroot, hlast] at hparent
    cases hparent

theorem wastes_toText (h : Baited g f m) {depth : Nat} (hroom : m.nextHandle < mostHandles)
    (hx : m.heap[edition.constructor]? = some edition.function)
    (hapart : edition.constructor ≠ Realm.functionPrototype ∧
      edition.constructor ≠ PrimitiveType.symbol.prototype)
    (hconstructor : edition.spec.constructor = some constructor)
    (hgives : ∀ values, constructor values = .ok (some text)) :
    Wastes m ⟨text, edition.spec.finalizer⟩ ((Interp.toText (Interp.invokeWithin (depth + 2))
      (.object edition.constructor)).run m) := by
  obtain ⟨flags, hshows⟩ := h.shows
  have hsymbol : (m.chain edition.constructor).contains PrimitiveType.symbol.prototype = false := by
    rw [List.contains_eq_mem, decide_eq_false_iff_not]
    intro hmem
    rcases h.mem_chain hx hmem with heq | heq | heq
    · exact hapart.2 heq.symm
    · cases heq
    · cases heq
  have hfind : m.find? edition.constructor "toString" = some (Realm.functionPrototype, _) :=
    find?_of_parent hx rfl rfl h.functions hapart.1 hshows
  have hread : (Interp.read (Interp.invokeWithin (depth + 2)) edition.constructor
      "toString").run m = (some (.object (Realm.function .promiseReject)), m) := by
    unfold Interp.read Interp.readFor
    rw [run_bind_of (run_touch (by decide) m), run_bind_of (run_view_find? m _ _), hfind]
    rfl
  have hfunction : (Interp.function? (.object (Realm.function .promiseReject))).run m =
      (some (some (Realm.function .promiseReject)), m) := by
    show (some (if (m.object _).callable?.isSome then some _ else none), m) = _
    rw [h.callable?_reject]
    rfl
  have hreject : Wastes m ⟨text, edition.spec.finalizer⟩
      ((Interp.invokeWithin (depth + 2) (Realm.function .promiseReject)
        (.object edition.constructor) [] none).run m) := by
    refine Wastes.intrinsic h.callable?_reject rfl fun called hheap hnext _ ↦ ?_
    exact wastes_makeRejected (hnext ▸ hroom) (by rw [hheap, hx]) hconstructor hgives .undefined
  have hview : (Interp.view (·.chain edition.constructor)).run m =
      (some (m.chain edition.constructor), m) := rfl
  unfold Interp.toText
  refine Wastes.bind ?_
  unfold Interp.toPrimitive
  dsimp only
  rw [run_bind_of hview, hsymbol]
  simp only [Bool.false_eq_true, if_false, Interp.Purpose.methods, Interp.askForPrimitive]
  rw [run_bind_of hread, run_bind_of hfunction]
  exact hreject.bind

/-- The setter is called with the constructor, and asks for its text. -/
theorem wastes_assignOrThrow (h : Baited g f m) (hroom : m.nextHandle < mostHandles)
    (hx : m.heap[edition.constructor]? = some edition.function)
    (hown : g.own? edition.spec.name = some (trap (Realm.function (.primitiveConstructor .string))))
    (hapart : edition.constructor ≠ Realm.functionPrototype ∧
      edition.constructor ≠ PrimitiveType.symbol.prototype)
    (hconstructor : edition.spec.constructor = some constructor)
    (hgives : ∀ values, constructor values = .ok (some text)) :
    Wastes m ⟨text, edition.spec.finalizer⟩ ((Interp.assignOrThrow Interp.invoke Realm.globalObject
      edition.spec.name (.object edition.constructor)).run m) := by
  let touched := m.touched edition.spec.name
  have hheap : touched.heap = m.heap := heap_touched _ m
  have hnext : touched.nextHandle = m.nextHandle := nextHandle_touched _ m
  have htouched : Adds m touched := by
    unfold touched Machine.touched
    split
    · exact .of_heap rfl rfl rfl rfl rfl rfl
    · exact .of_heap rfl rfl rfl rfl rfl rfl
  have hbaited : Baited g f touched := h.of_heap htouched.anchors htouched.requests hheap
  -- The outermost call may nest `callDepth` calls, one of which it is itself.
  have hset : Wastes touched ⟨text, edition.spec.finalizer⟩
      ((Interp.invokeWithin (3999 + 1) (Realm.function (.primitiveConstructor .string))
        (.object Realm.globalObject) [.object edition.constructor] none).run touched) := by
    refine Wastes.intrinsic hbaited.callable?_string rfl fun called hcalled hnext' hadds ↦ ?_
    have hbaited : Baited g f called := hbaited.of_heap hadds.anchors hadds.requests hcalled
    have hroom : called.nextHandle < mostHandles := by rwa [hnext', hnext]
    exact (hbaited.wastes_toText hroom (by rw [hcalled, hheap, hx]) hapart hconstructor hgives).bind
  unfold Interp.assignOrThrow
  refine Wastes.bind ?_
  unfold Interp.assign Interp.assignFrom
  rw [run_bind_of (run_touch_eq _ m), run_bind_of (run_view_find? _ _ _),
    find?_of_own hbaited.global hown]
  exact Wastes.of_adds htouched (Wastes.bind hset)

/-- Nothing that is only added makes a difference. -/
theorem adds (h : Baited g f m) (hlt : ∀ {x : ObjectId}, x ∈ m.heap → x.index < m.nextObject)
    (hadds : Adds m m') : Baited g f m' :=
  { h with
    toGround := h.toGround.congr hadds.anchors hadds.requests fun _ hx ↦
      hadds.old (hlt (h.toGround.mem_heap hx)) }

theorem wastes_makeClass (h : Baited g f m) (hroom : m.nextHandle < mostHandles)
    (hlt : ∀ {x : ObjectId}, x ∈ m.heap → x.index < m.nextObject)
    (hsymbol : PrimitiveType.symbol.prototype ∈ m.heap)
    (hown : g.own? spec.name = some (trap (Realm.function (.primitiveConstructor .string))))
    (hparent : spec.parent = none) (hconstructor : spec.constructor = some constructor)
    (hgives : ∀ values, constructor values = .ok (some text)) :
    Wastes m ⟨text, spec.finalizer⟩ ((makeClass spec).run m) := by
  let made := m.placed (.empty .ordinary (some Realm.objectPrototype))
  let held : Machine := { made with pins := [.object m.fresh] ++ made.pins }
  let edition : Edition := ⟨spec, m.fresh, held.fresh⟩
  let ready : Machine := { held.readied edition with
    pins := [.object held.fresh] ++ (held.readied edition).pins }
  have hne : m.fresh ≠ held.fresh := fun heq ↦
    Nat.succ_ne_self m.nextObject (congrArg ObjectId.index heq).symm
  have hapart {x : ObjectId} (hx : x ∈ m.heap) : held.fresh ≠ x := by
    rintro rfl
    exact Nat.not_succ_lt_self (hlt hx)
  have hmade : held.heap[m.fresh]? = some (.empty .ordinary (some Realm.objectPrototype)) :=
    (getElem?_heap_placed m _ _).trans (if_pos rfl)
  have hheld : Adds m held :=
    ((Adds.of_heap rfl rfl rfl rfl rfl rfl).placed _).trans (.of_heap rfl rfl rfl rfl rfl rfl)
  have hready : Adds m ready :=
    (((hheld.placed _).update (Nat.le_succ _) _).update (Nat.le_refl _) _).trans
      (.of_heap rfl rfl rfl rfl rfl rfl)
  have hfunction : ready.heap[edition.constructor]? = some edition.function :=
    (getElem?_heap_readied hmade hne spec held.fresh).trans
      ((if_neg hne.symm).trans (if_pos rfl))
  have hplace : edition.constructor ≠ Realm.functionPrototype ∧
      edition.constructor ≠ PrimitiveType.symbol.prototype :=
    ⟨hapart (h.toGround.mem_heap (by simp)), hapart hsymbol⟩
  have hbaited : Baited g f ready := h.adds hlt hready
  have hoffer := hbaited.wastes_assignOrThrow hroom hfunction hown hplace hconstructor hgives
  unfold Machine.makeClass
  rw [run_bind_of (run_allocate rfl m)]
  refine Wastes.holding ?_
  rw [hparent]
  refine Wastes.bind ?_
  change Wastes m _ ((Machine.offerClass spec m.fresh).run held)
  rw [run_offerClass hmade hne]
  exact Wastes.of_adds hready (Wastes.holding hoffer)

/-- A request to install the class is refused, but a payload was made with its finalizer. -/
theorem installClass (h : Baited g f m) (hsteady : Steady m) (spec : ClassSpec)
    (hroom : m.nextHandle < mostHandles)
    (hown : g.own? spec.name = some (trap (Realm.function (.primitiveConstructor .string))))
    (hparent : spec.parent = none) (hconstructor : spec.constructor = some constructor)
    (hgives : ∀ values, constructor values = .ok (some text)) :
    (Backend.installClass spec m).result = .error .exceptionPending ∧
      Baited g f (Backend.installClass spec m).state ∧
      Granted (Backend.installClass spec m).state ⟨text, spec.finalizer⟩ := by
  have hopen := hsteady.isOpen_of_mem (mem_heap_of_getElem? h.global)
  have hsound := hsteady.sound hopen
  have hsymbol : PrimitiveType.symbol.prototype ∈ m.heap := by
    refine (hsound.roots (mem_roots.mpr (.inl ?_))).1
    rw [h.anchors]
    decide +kernel
  obtain ⟨hnone, hadds, hgranted⟩ :=
    h.wastes_makeClass hroom hsteady.heap_lt hsymbol hown hparent hconstructor hgives
  have hrequest : Backend.installClass spec m = _ :=
    whileOpen_of_isOpen hopen (Machine.installClass spec)
  rw [hrequest]
  unfold Machine.installClass interpret
  cases hrun : (makeClass spec).run m with
  | mk result after =>
    rw [hrun] at hnone hadds hgranted
    obtain rfl : result = none := hnone
    have hafter : Baited g f after := h.adds hsteady.heap_lt hadds
    have hsettled : Baited g f (after.settle []) :=
      { hafter with toGround := hafter.toGround.settle [] }
    refine ⟨rfl, hsettled.of_heap rfl rfl rfl, ?_⟩
    unfold Granted
    rw [ledger_conclude]
    exact hgranted

end Baited

/-! ## A script that sets the bait -/

/-- Lets functions be asked for their text by what makes rejected promises, and defines a setter
under the name `A`, which asks for the text of what is assigned. The description of the setter is
made of global names. -/
def baiting : Program :=
  [(0, .setGlobal "original" (.property (.property (.global "Function") "prototype") "toString")),
    (1, .setProperty (.property (.global "Function") "prototype") "toString"
      (.property (.global "Promise") "reject")),
    (2, .setGlobal "set" (.global "String")),
    (3, .setGlobal "configurable" (.boolean true)),
    (4, .setGlobal "define" (.property (.global "Object") "defineProperty")),
    (5, .setGlobal "defined" (.apply (.global "define")
      [.global "globalThis", .text "A", .global "globalThis"]))]

/-- Takes the setter away, and gives functions their text again. -/
def mending : Program :=
  [(0, .deleteProperty (.global "globalThis") "A"),
    (1, .setProperty (.property (.global "Function") "prototype") "toString" (.global "original"))]

/-- A global object with the names that the description of the setter needs. -/
def describing : Object :=
  (((Realm.globalThis.withData "original" (.object (Realm.function .functionToString)) .plain
    ).withData "set" (.object (Realm.function (.primitiveConstructor .string))) .plain
    ).withData "configurable" (.boolean true) .plain
    ).withData "define" (.object (Realm.function .objectDefineProperty)) .plain

/-- A global object with the bait. -/
def bait : Object :=
  (describing.put "A" (trap (Realm.function (.primitiveConstructor .string)))).withData "defined"
    (.object Realm.globalObject) .plain

/-- A prototype of functions with the bait. -/
def baitedFunctions : Object :=
  Realm.functionPrototypeObject.withData "toString" (.object (Realm.function .promiseReject))
    .hidden

theorem yields_functions : Yields g f (Interp.eval invoke
    (.property (.global "Function") "prototype")) (.object Realm.functionPrototype) g f :=
  .landmark (.guide (x := Realm.function .functionConstructor) (by simp [guides]))
    (by simp [landmarks]) rfl rfl

theorem yields_reject : Yields g f (Interp.eval invoke (.property (.global "Promise") "reject"))
    (.object (Realm.function .promiseReject)) g f :=
  .landmark (.guide (x := Realm.function .promiseConstructor) (by simp [guides]))
    (by simp [landmarks]) rfl rfl

theorem yields_define : Yields g f (Interp.eval invoke
    (.property (.global "Object") "defineProperty"))
    (.object (Realm.function .objectDefineProperty)) g f :=
  .landmark (.guide (x := Realm.function .objectConstructor) (by simp [guides]))
    (by simp [landmarks]) rfl rfl

theorem describesSetter_describing :
    describing.DescribesSetter (Realm.function (.primitiveConstructor .string)) where
  lacks key hkey := by
    have hall : ∀ key ∈ Object.undescribed, key ∉ describing.properties.map Prod.fst := by
      decide +kernel
    exact Object.own?_eq_none (hall key hkey)
  configurable := ⟨_, rfl⟩
  setter := ⟨_, rfl⟩

theorem yields_baiting : Yields Realm.globalThis Realm.functionPrototypeObject
    (Interp.runStatements baiting) () bait baitedFunctions := by
  have hthis {g f : Object} : Yields g f (Interp.eval Interp.invoke (.global "globalThis"))
      (.object Realm.globalObject) g f := .guide (by simp [guides])
  refine Yields.statements (.setGlobal (.property yields_functions fun m hm ↦
    ⟨_, hm.functions, rfl⟩) ?_ (by decide) (by decide)) ?_ _
  · exact Object.own?_eq_none (by decide +kernel)
  refine Yields.statements (.setProperty yields_functions yields_reject
    (.assign_functions rfl rfl rfl)) ?_ _
  refine Yields.statements (.setGlobal (.guide (x := Realm.function (.primitiveConstructor .string))
    (by simp [guides])) ?_ (by decide) (by decide)) ?_ _
  · exact Object.own?_eq_none (by decide +kernel)
  refine Yields.statements (.setGlobal (.of_pure _) ?_ (by decide) (by decide)) ?_ _
  · exact Object.own?_eq_none (by decide +kernel)
  refine Yields.statements (.setGlobal yields_define ?_ (by decide) (by decide)) ?_ _
  · exact Object.own?_eq_none (by decide +kernel)
  refine Yields.statements (.setGlobal (.apply (.global ⟨_, rfl⟩)
    (.evalAll_cons hthis (.evalAll_cons (.of_pure _) (.evalAll_cons hthis .evalAll_nil))) ?_ ?_)
    ?_ (by decide) (by decide)) .no_statements _
  · intro m hm
    rw [hm.callable?_landmark (x := Realm.function .objectDefineProperty) (by simp [landmarks]) rfl
      rfl]
    rfl
  · refine .defineSetter describesSetter_describing (Object.own?_eq_none (by decide +kernel))
      (by decide) rfl fun m hm ↦ ?_
    rw [hm.callable?_landmark (x := Realm.function (.primitiveConstructor .string))
      (by simp [landmarks]) rfl rfl]
    rfl
  · exact Object.own?_eq_none (by decide +kernel)

theorem yields_mending : Yields bait baitedFunctions (Interp.runStatements mending) ()
    (bait.erase "A") Realm.functionPrototypeObject := by
  have hfunctions : baitedFunctions.put "toString"
      ⟨.data (.object (Realm.function .functionToString)), .hidden⟩ =
      Realm.functionPrototypeObject := rfl
  rw [← hfunctions]
  refine Yields.statements (.deleteGlobal (p := trap (Realm.function (.primitiveConstructor
    .string))) (.guide (by simp [guides])) rfl rfl (by decide)) ?_ _
  exact Yields.statements (.setProperty yields_functions (.global ⟨_, rfl⟩)
    (.assign_functions rfl rfl rfl)) .no_statements _

/-- A machine with the bait. -/
theorem Ground.baited (h : Ground bait baitedFunctions m) : Baited bait baitedFunctions m :=
  { h with prototype := rfl, shows := ⟨_, rfl⟩ }

/-- After the bait was taken away, no class is on display. -/
theorem Ground.displays_mended (h : Ground (bait.erase "A") Realm.functionPrototypeObject m) :
    Displays m [] := by
  have hconcrete : (bait.erase "A").Plain ∧ (bait.erase "A").Open ∧
      (bait.erase "A").own? protoKey = none := by decide +kernel
  obtain ⟨hplain, hopen, hown⟩ := hconcrete
  exact h.displays hplain hopen hown

end ScriptBridge.Script.Machine
