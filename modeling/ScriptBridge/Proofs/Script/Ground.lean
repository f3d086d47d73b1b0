import ScriptBridge.Proofs.Script.Inheriting

/-!
# Scripts on known ground

Most of what a script looks at is as it was in a fresh machine. As long as a script keeps to that,
what its expressions give and what its statements change can be told from the global object and from
the prototype of functions alone, whatever else there is on the heap.
-/

namespace ScriptBridge.Script

/-- The names by which scripts are led to objects of a fresh machine. -/
def guides : List (String × ObjectId) :=
  [("globalThis", Realm.globalObject), ("Object", Realm.function .objectConstructor),
    ("Function", Realm.function .functionConstructor),
    ("Promise", Realm.function .promiseConstructor),
    ("String", Realm.function (.primitiveConstructor .string)),
    ("forceGC", Realm.function .forceCollection)]

namespace Object

variable {g : Object} {key : String}

/-- A global object that leads to these objects, and takes more properties. -/
structure Guides (g : Object) : Prop where
  isArray : g.isArray = false
  extensible : g.extensible = true
  prototype : g.prototype = some Realm.objectPrototype
  shows : ∀ guide ∈ guides, g.Shows guide.1 (.object guide.2)

theorem own?_eq_none (h : key ∉ g.properties.map Prod.fst) : g.own? key = none :=
  List.lookup_eq_none_iff.mpr fun entry hentry ↦ by
    simpa using Ne.symm (ne_of_mem_of_not_mem (List.mem_map_of_mem hentry) h)

theorem Shows.put {d : Datum} (h : g.Shows key d) {other : String} (hne : key ≠ other)
    (p : Property) : (g.put other p).Shows key d := by
  obtain ⟨flags, hown⟩ := h
  exact ⟨flags, (g.own?_put_of_ne hne p).trans hown⟩

theorem Guides.put (h : g.Guides) (hkey : key ∉ guides.map Prod.fst) (p : Property) :
    (g.put key p).Guides where
  isArray := h.isArray
  extensible := h.extensible
  prototype := h.prototype
  shows guide hguide :=
    (h.shows guide hguide).put (ne_of_mem_of_not_mem (List.mem_map_of_mem hguide) hkey) p

theorem Guides.erase (h : g.Guides) (hkey : key ∉ guides.map Prod.fst) : (g.erase key).Guides where
  isArray := h.isArray
  extensible := h.extensible
  prototype := h.prototype
  shows guide hguide := by
    obtain ⟨flags, hown⟩ := h.shows guide hguide
    refine ⟨flags, (g.own?_erase_of_ne ?_).trans hown⟩
    exact ne_of_mem_of_not_mem (List.mem_map_of_mem hguide) hkey

end Object

/-- The statement changes properties. -/
def Statement.isEdit : Statement → Bool
  | .setProperty _ _ _ | .deleteProperty _ _ => true
  | _ => false

theorem checkDeclarations_of_edits {p : Program} (h : ∀ entry ∈ p, entry.2.isEdit = true) :
    Interp.checkDeclarations p = pure () := by
  induction p with
  | nil => rfl
  | cons entry rest ih =>
    obtain ⟨hentry, hrest⟩ := List.forall_mem_cons.mp h
    obtain ⟨distance, statement⟩ := entry
    cases statement with
    | setProperty | deleteProperty => exact ih hrest
    | _ => cases hentry

theorem makeDeclarations_of_edits {p : Program} (h : ∀ entry ∈ p, entry.2.isEdit = true)
    {invoke : Invoke} : Interp.makeDeclarations invoke p = pure () := by
  induction p with
  | nil => rfl
  | cons entry rest ih =>
    obtain ⟨hentry, hrest⟩ := List.forall_mem_cons.mp h
    obtain ⟨distance, statement⟩ := entry
    cases statement with
    | setProperty | deleteProperty => exact ih hrest
    | _ => cases hentry

namespace Machine

variable {α β : Type} {m m' : Machine} {g f o : Object} {x y q : ObjectId} {p : Property}
  {key name file : String} {d : Datum} {invoke : Invoke}

/-! ## Lookup -/

/-- What an object does not have itself is found on its prototype. -/
theorem find?_of_parent (ho : m.heap[x]? = some o) (hown : o.own? key = none)
    (hprototype : o.prototype = some q) (hq : m.heap[q]? = some g) (hne : x ≠ q)
    (hp : g.own? key = some p) : m.find? x key = some (q, p) := by
  have hsize : [x, q].length ≤ m.heap.size := by
    refine length_le_size (by simpa using hne) fun y hy ↦ ?_
    rcases List.mem_pair.mp hy with rfl | rfl
    · exact mem_heap_of_getElem? ho
    · exact mem_heap_of_getElem? hq
  obtain ⟨steps, hsteps⟩ := Nat.exists_eq_add_of_le' hsize
  unfold find? chain
  rw [hsteps, List.length_cons, List.length_singleton]
  simp only [chainWithin, object_of_getElem? ho, hprototype, object_of_getElem? hq,
    List.findSome?_cons, hown, Option.map_none, hp, Option.map_some]

/-- What neither an object nor its prototype has, which is the last one, is not found. -/
theorem find?_eq_none (ho : m.heap[x]? = some o) (hown : o.own? key = none)
    (hprototype : o.prototype = some q) (hq : m.heap[q]? = some g) (hlast : g.prototype = none)
    (hp : g.own? key = none) : m.find? x key = none := by
  have hfound (steps : Nat) : (m.chainWithin steps x).findSome? (fun owner ↦
      ((m.object owner).own? key).map (owner, ·)) = none := by
    cases steps with
    | zero => rfl
    | succ steps =>
      rw [chainWithin, object_of_getElem? ho, hprototype, List.findSome?_cons,
        object_of_getElem? ho, hown]
      cases steps with
      | zero => rfl
      | succ steps =>
        simp only [chainWithin, object_of_getElem? hq, hlast, List.findSome?_cons, hp,
          Option.map_none, List.findSome?_nil]
  exact hfound _

/-! ## Known ground -/

/-- The objects of a fresh machine that scripts are led to. -/
def landmarks : List ObjectId :=
  [Realm.objectPrototype, Realm.function .prototypeGetter, Realm.function .prototypeSetter,
    Realm.function .objectConstructor, Realm.function .objectDefineProperty,
    Realm.function .functionConstructor, Realm.function .promiseConstructor,
    Realm.function .promiseReject, Realm.function (.primitiveConstructor .string),
    Realm.function .forceCollection]

/-- A machine with this global object and this prototype of functions, on which those objects are as
they were at first. -/
structure Ground (g f : Object) (m : Machine) : Prop where
  anchors : m.anchors = Realm.anchors
  requests : m.requests = 0
  guides : g.Guides
  global : m.heap[Realm.globalObject]? = some g
  functions : m.heap[Realm.functionPrototype]? = some f
  landmarks : ∀ x ∈ landmarks, m.heap[x]? = Realm.objects[x.index]?

theorem ground_machine (isStrict : Bool) :
    Ground Realm.globalThis Realm.functionPrototypeObject (Realm.machine isStrict) where
  anchors := rfl
  requests := rfl
  guides := by
    refine ⟨rfl, rfl, rfl, fun guide hguide ↦ ?_⟩
    simp only [Script.guides, List.mem_cons, List.not_mem_nil, or_false] at hguide
    rcases hguide with rfl | rfl | rfl | rfl | rfl | rfl <;> exact ⟨_, rfl⟩
  global := Realm.getElem?_heap isStrict _
  functions := Realm.getElem?_heap isStrict _
  landmarks x _ := Realm.getElem?_heap isStrict x

/-- The keys of the last prototype of all objects. -/
def rootKeys : List String := ["constructor", "toString", "valueOf", protoKey]

namespace Ground

/-- Nothing else on the heap matters. -/
theorem congr (h : Ground g f m) (hanchors : m'.anchors = m.anchors)
    (hrequests : m'.requests = m.requests)
    (hheap : ∀ x ∈ Realm.globalObject :: Realm.functionPrototype :: Machine.landmarks,
      m'.heap[x]? = m.heap[x]?) : Ground g f m' where
  anchors := hanchors.trans h.anchors
  requests := hrequests.trans h.requests
  guides := h.guides
  global := (hheap _ (by simp)).trans h.global
  functions := (hheap _ (by simp)).trans h.functions
  landmarks x hx := (hheap x (by simp [hx])).trans (h.landmarks x hx)

theorem of_heap (h : Ground g f m) (hanchors : m'.anchors = m.anchors)
    (hrequests : m'.requests = m.requests) (hheap : m'.heap = m.heap) : Ground g f m' :=
  h.congr hanchors hrequests fun _ _ ↦ by rw [hheap]

/-- A landmark is neither the global object nor the prototype of functions. -/
theorem ne_of_mem_landmarks : ∀ x ∈ Machine.landmarks,
    x ≠ Realm.globalObject ∧ x ≠ Realm.functionPrototype := by
  decide +kernel

/-- The global object is changed. -/
theorem update_global (h : Ground g f m) (edit : Object → Object) (hguides : (edit g).Guides) :
    Ground (edit g) f (m.update Realm.globalObject edit) where
  anchors := h.anchors
  requests := h.requests
  guides := hguides
  global := by rw [getElem?_heap_update, if_pos rfl, h.global]; rfl
  functions := by rw [getElem?_heap_update, if_neg (by decide), h.functions]
  landmarks x hx := by
    rw [getElem?_heap_update, if_neg (ne_of_mem_landmarks x hx).1, h.landmarks x hx]

/-- The prototype of functions is changed. -/
theorem update_functions (h : Ground g f m) (edit : Object → Object) :
    Ground g (edit f) (m.update Realm.functionPrototype edit) where
  anchors := h.anchors
  requests := h.requests
  guides := h.guides
  global := by rw [getElem?_heap_update, if_neg (by decide), h.global]
  functions := by rw [getElem?_heap_update, if_pos rfl, h.functions]; rfl
  landmarks x hx := by
    rw [getElem?_heap_update, if_neg (ne_of_mem_landmarks x hx).2, h.landmarks x hx]

/-- A landmark is like this. -/
theorem at_landmark (h : Ground g f m) (hx : x ∈ Machine.landmarks)
    (ho : Realm.objects[x.index]? = some o) : m.heap[x]? = some o :=
  (h.landmarks x hx).trans ho

/-- A landmark is a function. -/
theorem callable?_landmark {callable : Callable} (h : Ground g f m) (hx : x ∈ Machine.landmarks)
    (ho : Realm.objects[x.index]? = some o) (hcallable : o.callable? = some callable) :
    (m.object x).callable? = some callable := by
  rw [object_of_getElem? (h.at_landmark hx ho), hcallable]

/-- The last prototype of all objects. -/
theorem root (h : Ground g f m) : ∃ o, m.heap[Realm.objectPrototype]? = some o ∧
    o.prototype = none ∧ o.own? protoKey = some protoProperty ∧
      ∀ key ∉ rootKeys, o.own? key = none := by
  refine ⟨_, h.at_landmark (by simp [Machine.landmarks]) rfl, rfl, rfl, fun key hkey ↦ ?_⟩
  exact Object.own?_eq_none hkey

/-- The ground is there. -/
theorem mem_heap (h : Ground g f m)
    (hx : x ∈ Realm.globalObject :: Realm.functionPrototype :: Machine.landmarks) :
    x ∈ m.heap := by
  have hall : ∀ x ∈ Machine.landmarks, (Realm.objects[x.index]?).isSome = true := by decide +kernel
  rcases List.mem_cons.mp hx with rfl | hx
  · exact mem_heap_of_getElem? h.global
  · rcases List.mem_cons.mp hx with rfl | hx
    · exact mem_heap_of_getElem? h.functions
    · rw [Std.ExtTreeMap.mem_iff_isSome_getElem?, h.landmarks x hx]
      exact hall x hx

/-- What is not found on the global object is not found behind it either. -/
theorem find?_eq_none (h : Ground g f m) (hown : g.own? key = none) (hkey : key ∉ rootKeys) :
    m.find? Realm.globalObject key = none := by
  obtain ⟨root, hroot, hlast, -, hlacks⟩ := h.root
  exact Machine.find?_eq_none h.global hown h.guides.prototype hroot hlast (hlacks key hkey)

/-- With the prototype of functions of a fresh machine, and a global object of values that can be
assigned, no class is on display. -/
theorem displays (h : Ground g Realm.functionPrototypeObject m) (hplain : g.Plain) (hopen : g.Open)
    (hown : g.own? protoKey = none) : Displays m [] where
  fixtures x hx := by
    have hall : ∀ x ∈ fixtures, x = Realm.functionPrototype ∨ x ∈ Machine.landmarks := by
      decide +kernel
    rcases hall x hx with rfl | hx
    · exact h.functions
    · exact h.landmarks x hx
  global := ⟨g, h.global, h.guides.isArray, h.guides.extensible, hplain, hopen, hown,
    h.guides.prototype, fun hlatest ↦ by cases hlatest⟩
  standing := .nil

/-! ## What settling leaves -/

/-- The ground is referred to: the machine holds on to some of it, and the rest is found from
there. -/
theorem notMem_unreferenced (h : Ground g f m)
    (hx : x ∈ Realm.globalObject :: Realm.functionPrototype :: Machine.landmarks)
    (kept : List ObjectId) : x ∉ m.unreferenced kept := by
  have hanchor {x : ObjectId} (hx : x ∈ Realm.anchors) : x ∈ m.referenced kept :=
    mem_referenced.mpr (.inr (.inl (mem_roots.mpr (.inl (h.anchors ▸ hx)))))
  have hfrom {x y : ObjectId} {o : Object} {p : Property} (key : String)
      (ho : m.heap[y]? = some o) (hp : o.own? key = some p) (hx : x ∈ p.content.references) :
      x ∈ m.referenced kept :=
    mem_referenced.mpr (.inr (.inr ⟨y, o, ho,
      Object.mem_references.mpr (.inr (.inr ⟨_, Object.mem_of_own? hp, hx⟩))⟩))
  have hguide {x : ObjectId} (name : String) (hmem : (name, x) ∈ Script.guides) :
      x ∈ m.referenced kept := by
    obtain ⟨flags, hown⟩ := h.guides.shows _ hmem
    exact hfrom name h.global hown (List.mem_singleton_self x)
  obtain ⟨root, hroot, -, hproto, -⟩ := h.root
  have hobject := h.at_landmark (x := Realm.function .objectConstructor)
    (by simp [Machine.landmarks]) rfl
  have hpromise := h.at_landmark (x := Realm.function .promiseConstructor)
    (by simp [Machine.landmarks]) rfl
  refine fun hun ↦ (mem_unreferenced.mp hun).2 ?_
  simp only [Machine.landmarks, List.mem_cons, List.not_mem_nil, or_false] at hx
  rcases hx with rfl | rfl | rfl | rfl | rfl | rfl | rfl | rfl | rfl | rfl | rfl | rfl
  · exact hanchor (by decide +kernel)
  · exact hanchor (by decide +kernel)
  · exact hanchor (by decide +kernel)
  · exact hfrom protoKey hroot hproto (by simp [protoProperty, Content.references])
  · exact hfrom protoKey hroot hproto (by simp [protoProperty, Content.references])
  · exact hguide "Object" (by simp [Script.guides])
  · exact hfrom "defineProperty" hobject rfl (List.mem_singleton_self _)
  · exact hanchor (by decide +kernel)
  · exact hanchor (by decide +kernel)
  · exact hfrom "reject" hpromise rfl (List.mem_singleton_self _)
  · exact hguide "String" (by simp [Script.guides])
  · exact hguide "forceGC" (by simp [Script.guides])

theorem settle (h : Ground g f m) (kept : List ObjectId) : Ground g f (m.settle kept) := by
  refine settle_induction (P := Ground g f) kept h fun m hm ↦ ?_
  refine hm.congr (by rw [freeAll_eq]) (by rw [freeAll_eq]) fun x hx ↦ ?_
  rw [getElem?_heap_freeAll, if_neg (hm.notMem_unreferenced hx kept)]

end Ground

theorem nextHandle_touched (key : String) (m : Machine) :
    (m.touched key).nextHandle = m.nextHandle := by
  unfold touched
  split <;> rfl

/-! ## What an interpretation gives on known ground -/

/-- Wherever the ground is like this, the interpretation gives that and leaves the ground like
that. No handles are given out. -/
def Yields (g f : Object) (action : Interp α) (a : α) (g' f' : Object) : Prop :=
  ∀ m, Ground g f m → ∃ m', action.run m = (some a, m') ∧ Ground g' f' m' ∧
    m'.nextHandle = m.nextHandle

namespace Yields

variable {g' f' g'' f'' : Object} {action : Interp α} {next : α → Interp β} {a : α} {b : β}
  {flags : Flags}

theorem of_pure (a : α) : Yields g f (pure a : Interp α) a g f := fun m h ↦ ⟨m, rfl, h, rfl⟩

theorem bind (first : Yields g f action a g' f') (second : Yields g' f' (next a) b g'' f'') :
    Yields g f (action >>= next) b g'' f'' := by
  intro m h
  obtain ⟨m', hfirst, h', hnext⟩ := first m h
  obtain ⟨m'', hsecond, h'', hnext'⟩ := second m' h'
  exact ⟨m'', (run_bind_of hfirst).trans hsecond, h'', hnext'.trans hnext⟩

/-- What only looks at the machine leaves it as it is. -/
theorem of_look (h : ∀ m, Ground g f m → action.run m = (some a, m)) : Yields g f action a g f :=
  fun m hm ↦ ⟨m, h m hm, hm, rfl⟩

/-- What the machine keeps alive is no part of the ground, and neither are its frames. -/
theorem holding (h : Yields g f action a g' f') (values : List Datum) :
    Yields g f (Interp.holding values action) a g' f' := by
  intro m hm
  obtain ⟨m', hrun, hm', hnext⟩ := h { m with pins := values ++ m.pins } (hm.of_heap rfl rfl rfl)
  exact ⟨{ m' with pins := m.pins }, run_holding_of hrun rfl, hm'.of_heap rfl rfl rfl, hnext⟩

theorem inFrame (h : Yields g f action a g' f') (frame : Frame) :
    Yields g f (Interp.inFrame frame action) a g' f' := by
  intro m hm
  obtain ⟨m', hrun, hm', hnext⟩ := h { m with frames := frame :: m.frames } (hm.of_heap rfl rfl rfl)
  exact ⟨{ m' with frames := m.frames }, run_inFrame_of hrun, hm'.of_heap rfl rfl rfl, hnext⟩

theorem updatePlace (edit : Place → Place) : Yields g f (Interp.updatePlace edit) () g f := by
  intro m hm
  refine ⟨_, rfl, ?_⟩
  dsimp only
  cases hframes : m.frames with
  | nil => exact ⟨hm, rfl⟩
  | cons frame rest => exact ⟨hm.of_heap rfl rfl rfl, rfl⟩

theorem settling {action : Interp Datum} (h : Yields g f action d g' f') :
    Yields g f (Interp.settling action) d g' f' := by
  intro m hm
  obtain ⟨m', hrun, hm', hnext⟩ := h m hm
  exact ⟨_, run_settling_of hrun, hm'.settle _, (nextHandle_settle _ m').trans hnext⟩

theorem touch (key : String) : Yields g f (Interp.touch key) () g f := by
  intro m hm
  refine ⟨_, run_touch_eq key m, hm.of_heap ?_ ?_ (heap_touched key m), ?_⟩
  all_goals
    unfold touched
    split <;> rfl

/-! ### Reading -/

theorem readFor {receiver : Datum} {flags : Flags}
    (h : ∀ m, Ground g f m → m.find? x key = some (q, ⟨.data d, flags⟩)) :
    Yields g f (Interp.readFor invoke x receiver key) d g f := by
  refine (touch key).bind (of_look fun m hm ↦ ?_)
  rw [run_bind_of (run_view_find? m x key), h m hm]
  rfl

theorem readDeclared (h : g.Shows name d) :
    Yields g f (Interp.readDeclared invoke name) d g f := by
  obtain ⟨flags, hown⟩ := h
  have hfind {m : Machine} (hm : Ground g f m) :
      m.find? Realm.globalObject name = some (Realm.globalObject, ⟨.data d, flags⟩) :=
    find?_of_own hm.global hown
  have hdeclared : Yields g f (Interp.isDeclared name) true g f := of_look fun m hm ↦ by
    show (some (m.find? Realm.globalObject name).isSome, m) = _
    rw [hfind hm]
    rfl
  exact hdeclared.bind (readFor fun m ↦ hfind)

/-- A declared name stands for what the global object has under it. -/
theorem reference (h : g.Shows name d) :
    Yields g f (Interp.eval invoke (.reference name)) d g f := by
  rw [Interp.eval]
  exact (readDeclared h).settling

/-- So does a name that need not be declared. -/
theorem global (h : g.Shows name d) : Yields g f (Interp.eval invoke (.global name)) d g f := by
  intro m hm
  obtain ⟨flags, hown⟩ := h
  have hthis : g.Shows "globalThis" (.object Realm.globalObject) :=
    hm.guides.shows _ List.mem_cons_self
  have hread : Yields g f (Interp.read invoke Realm.globalObject name) d g f :=
    readFor fun m hm ↦ find?_of_own hm.global hown
  rw [Interp.eval]
  exact ((readDeclared hthis).bind hread).settling m hm

/-- A property of an object that has it. -/
theorem property {target : Expr} (htarget : Yields g f (Interp.eval invoke target) (.object x) g f)
    (h : ∀ m, Ground g f m → ∃ o, m.heap[x]? = some o ∧ o.own? key = some ⟨.data d, flags⟩) :
    Yields g f (Interp.eval invoke (.property target key)) d g f := by
  have hread : Yields g f (Interp.read invoke x key) d g f := readFor fun m hm ↦ by
    obtain ⟨o, ho, hown⟩ := h m hm
    exact find?_of_own ho hown
  rw [Interp.eval]
  exact (htarget.bind (hread.holding _)).settling

/-- A name by which scripts are led to an object of a fresh machine. -/
theorem guide (hmem : (name, x) ∈ guides) :
    Yields g f (Interp.eval invoke (.global name)) (.object x) g f :=
  fun m hm ↦ global (hm.guides.shows _ hmem) m hm

/-- What a landmark shows. -/
theorem landmark {target : Expr} (htarget : Yields g f (Interp.eval invoke target) (.object x) g f)
    (hx : x ∈ landmarks) (ho : Realm.objects[x.index]? = some o)
    (hown : o.own? key = some ⟨.data d, flags⟩) :
    Yields g f (Interp.eval invoke (.property target key)) d g f :=
  property htarget fun _ hm ↦ ⟨o, hm.at_landmark hx ho, hown⟩

/-! ### Assigning -/

/-- A name that the global object does not have yet gets a property. -/
theorem assign_global (hown : g.own? key = none) (hroot : key ∉ rootKeys)
    (hguide : key ∉ guides.map Prod.fst) : Yields g f
      (Interp.assign invoke Realm.globalObject key d) none (g.put key ⟨.data d, .plain⟩) f := by
  refine (touch key).bind fun m hm ↦ ?_
  rw [run_bind_of (run_view_find? m _ key), hm.find?_eq_none hown hroot]
  have hobject := object_of_getElem? hm.global
  refine ⟨_, ?_, hm.update_global (·.put key ⟨.data d, .plain⟩) (hm.guides.put hguide _), rfl⟩
  refine (run_assignNew (by rw [hobject, hm.guides.isArray]) key d).trans ?_
  rw [hobject, hm.guides.extensible, if_pos rfl]

/-- A property of the prototype of functions is changed. -/
theorem assign_functions {old : Datum} {flags : Flags} (hisArray : f.isArray = false)
    (hown : f.own? key = some ⟨.data old, flags⟩) (hwritable : flags.writable = true) :
    Yields g f (Interp.assign invoke Realm.functionPrototype key d) none g
      (f.put key ⟨.data d, flags⟩) := by
  refine (touch key).bind fun m hm ↦ ?_
  rw [run_bind_of (run_view_find? m _ key), find?_of_own hm.functions hown]
  have hobject := object_of_getElem? hm.functions
  refine ⟨_, ?_, hm.update_functions (·.put key ⟨.data d, flags⟩), rfl⟩
  refine (run_assignData_own (by rw [hobject, hisArray]) invoke ⟨.data old, flags⟩ key d).trans ?_
  rw [if_pos hwritable]

/-! ### Statements -/

/-- An assignment that is not refused has the value that is assigned. -/
theorem setProperty {target value : Expr}
    (htarget : Yields g f (Interp.eval invoke target) (.object x) g f)
    (hvalue : Yields g f (Interp.eval invoke value) d g' f')
    (hassign : Yields g' f' (Interp.assign invoke x key d) none g'' f'') :
    Yields g f (Interp.exec invoke (.setProperty target key value)) (.next (some d)) g'' f'' := by
  have hrefuse : Yields g'' f'' (Interp.refuse none) () g'' f'' := of_pure ()
  exact htarget.bind ((hvalue.holding _).bind
    (((hassign.bind hrefuse).holding _).bind (of_pure _)))

/-- A new name stands for a value. -/
theorem setGlobal {value : Expr} (hvalue : Yields g f (Interp.eval invoke value) d g' f')
    (hown : g'.own? key = none) (hroot : key ∉ rootKeys) (hguide : key ∉ guides.map Prod.fst) :
    Yields g f (Interp.exec invoke (.setGlobal key value)) (.next (some d))
      (g'.put key ⟨.data d, .plain⟩) f' :=
  fun m hm ↦ setProperty (reference (hm.guides.shows _ List.mem_cons_self)) hvalue
    (assign_global hown hroot hguide) m hm

/-- A property of the global object that may be deleted is gone. -/
theorem deleteGlobal {target : Expr} {p : Property}
    (htarget : Yields g f (Interp.eval invoke target) (.object Realm.globalObject) g f)
    (hown : g.own? key = some p) (hconfigurable : p.flags.configurable = true)
    (hguide : key ∉ guides.map Prod.fst) : Yields g f
      (Interp.exec invoke (.deleteProperty target key)) (.next (some (.boolean true)))
      (g.erase key) f := by
  have hdelete : Yields g f (Interp.delete Realm.globalObject key) true (g.erase key) f := by
    refine (touch key).bind fun m hm ↦ ?_
    refine ⟨_, ?_, hm.update_global (·.erase key) (hm.guides.erase hguide), rfl⟩
    rw [run_bind_of (run_object m _), object_of_getElem? hm.global, hown]
    dsimp only
    rw [hconfigurable, if_pos rfl]
    rfl
  have hgone : Yields g f (Interp.deleteFrom (.object Realm.globalObject) key) true
      (g.erase key) f := hdelete.bind (of_pure true)
  exact htarget.bind ((hgone.holding _).bind (of_pure _))

/-- A statement with a value is followed by others. -/
theorem statements {statement : Statement} {rest : Program}
    (h : Yields g f (Interp.exec Interp.invoke statement) (.next (some d)) g' f')
    (hrest : Yields g' f' (Interp.runStatements rest) () g'' f'') (distance : Nat) :
    Yields g f (Interp.runStatements ((distance, statement) :: rest)) () g'' f'' := by
  have henter : Yields g f (Interp.enterStatement distance statement) () g f := by
    refine (updatePlace _).bind ?_
    split
    · exact updatePlace _
    · exact of_pure ()
  have hretain : Yields g' f' (modify fun m ↦ { m with retained := d } : Interp Unit) () g' f' :=
    fun m hm ↦ ⟨_, rfl, hm.of_heap rfl rfl rfl, rfl⟩
  have hsettle : Yields g' f' (modify (Machine.settle []) : Interp Unit) () g' f' :=
    fun m hm ↦ ⟨_, rfl, hm.settle [], nextHandle_settle [] m⟩
  exact henter.bind (h.bind (hretain.bind (hsettle.bind hrest)))

theorem no_statements : Yields g f (Interp.runStatements []) () g f := of_pure ()

/-! ### Scripts -/

/-- A script that declares nothing and ends with no expression has no value. -/
theorem program {p : Program} (hedits : ∀ entry ∈ p, entry.2.isEdit = true)
    (h : Yields g f (Interp.runStatements p) () g' f') (file : String) :
    Yields g f (Interp.runProgram file p) .undefined g' f' := by
  unfold Interp.runProgram
  rw [checkDeclarations_of_edits hedits, makeDeclarations_of_edits hedits]
  refine inFrame ((of_pure ()).bind ((of_pure ()).bind (h.bind ?_))) _
  split
  · next hlast =>
    have hedit := hedits _ (List.mem_of_getLast? hlast)
    cases hedit
  · exact of_pure _

end Yields

/-- The evaluation of a script that needs no collection. -/
theorem Ground.evaluate {p : Program} (h : Ground g f m) (hopen : m.isOpen = true)
    (hdefect : defect? (.program p) file = none)
    (hp : Yields g f (Interp.runProgram file p) .undefined g' f') : ∃ notices m',
      Machine.evaluate (.program p) file m = .events notices (.done ⟨.ok .undefined, m', []⟩) ∧
        Ground g' f' m' ∧ m'.nextHandle = m.nextHandle := by
  obtain ⟨ran, hrun, hran, hnext⟩ := hp m h
  have hsource : (runSource (.program p) file).run m = (some (.ok .undefined), ran) :=
    (run_bind_of hrun).trans rfl
  let after : Machine := { ran with retained := .undefined }
  let o : Outcome Machine (Except Failure Value) := after.conclude (.ok .undefined)
  have hafter : Ground g' f' after := hran.of_heap rfl rfl rfl
  have hstate : Ground g' f' o.state := (hafter.settle []).of_heap rfl rfl rfl
  have hrun : Machine.run (.program p) file m = o := by
    unfold Machine.run Machine.interpret
    rw [hsource]
  refine ⟨o.events, o.state, ?_, hstate, (nextHandle_conclude after _).trans hnext⟩
  rw [evaluate_eq_run hopen hdefect, hrun, reportRequests, if_pos hstate.requests]
  rfl

end Machine

end ScriptBridge.Script
