import ScriptBridge.Proofs.Script.Throwing

/-!
# Editions of classes

Until a script runs, native code alone puts classes on the global object. A class that is installed
under a name that another one has takes its place there, so that a name has editions, and only the
latest one is found. The name `__proto__` is none of the global object itself: what is assigned to
it becomes the prototype of the global object.
-/

namespace ScriptBridge.Script

/-- The key under which the prototype of an object is read and assigned. -/
def protoKey : String := "__proto__"

theorem protoKey_ne_payloadKey : protoKey ≠ payloadKey := by decide

/-- The names under which something read-only may be found on the global object. -/
def reservedNames : List String :=
  [protoKey, "undefined", "NaN", "Infinity", "length", "name", "prototype"]

/-- The content is a value. -/
def Content.isData : Content → Bool
  | .data _ => true
  | _ => false

theorem Content.exists_of_isData {c : Content} (h : c.isData = true) : ∃ d, c = .data d := by
  cases c with
  | data d => exact ⟨d, rfl⟩
  | accessor getter setter => cases h
  | deferred => cases h

namespace Object

variable {o : Object} {key : String} {p : Property} {d : Datum} {flags : Flags}

/-- All properties hold values, except for the one that leads to the prototype. -/
def Plain (o : Object) : Prop :=
  ∀ entry ∈ o.properties, entry.1 ≠ protoKey → entry.2.content.isData = true

instance : DecidablePred Plain := fun o ↦
  inferInstanceAs (Decidable (∀ entry ∈ o.properties, entry.1 ≠ protoKey →
    entry.2.content.isData = true))

theorem Plain.exists_data (h : o.Plain) (hp : o.own? key = some p) (hkey : key ≠ protoKey) :
    ∃ d, p.content = .data d :=
  Content.exists_of_isData (h _ (mem_of_own? hp) hkey)

theorem Plain.put (h : o.Plain) (key : String) (d : Datum) (flags : Flags) :
    (o.put key ⟨.data d, flags⟩).Plain := by
  intro entry hentry hkey
  rcases mem_putEntry hentry with rfl | hold
  · rfl
  · exact h entry hold hkey

/-- Properties can be assigned, except for those of reserved names. -/
def Open (o : Object) : Prop :=
  ∀ entry ∈ o.properties, entry.1 ∉ reservedNames → entry.2.flags.writable = true

instance : DecidablePred Open := fun o ↦
  inferInstanceAs (Decidable (∀ entry ∈ o.properties, entry.1 ∉ reservedNames →
    entry.2.flags.writable = true))

theorem Open.writable (h : o.Open) (hp : o.own? key = some p) (hkey : key ∉ reservedNames) :
    p.flags.writable = true :=
  h _ (mem_of_own? hp) hkey

theorem Open.put (h : o.Open) (hp : key ∉ reservedNames → p.flags.writable = true) :
    (o.put key p).Open := by
  intro entry hentry hkey
  rcases mem_putEntry hentry with rfl | hold
  · exact hp hkey
  · exact h entry hold hkey

end Object

namespace Machine

/-- A class as it was installed. -/
structure Edition where
  spec : ClassSpec
  prototype : ObjectId
  constructor : ObjectId

namespace Edition

/-- The function that makes instances of a class. -/
def function (edition : Edition) : Object :=
  (Realm.functionObject (.native ⟨edition.spec.name, edition.spec.constructor,
    edition.spec.finalizer⟩) 0 edition.spec.name).put "prototype"
      ⟨.data (.object edition.prototype), .sealed⟩

/-- The prototype of the instances of a class, behind which stands another one. -/
def model (edition : Edition) (behind : ObjectId) : Object :=
  (Object.empty .ordinary (some behind)).put "constructor"
    ⟨.data (.object edition.constructor), .hidden⟩

variable (edition : Edition)

theorem own?_prototype_function :
    edition.function.own? "prototype" = some ⟨.data (.object edition.prototype), .sealed⟩ :=
  Object.own?_put_self _ _ _

theorem own?_protoKey_function : edition.function.own? protoKey = none := rfl

theorem plain_function : edition.function.Plain := by
  refine Object.Plain.put (.put (.put ?_ _ _ _) _ _ _) _ _ _
  exact List.forall_mem_nil _

theorem open_function : edition.function.Open := by
  refine Object.Open.put (.put (.put ?_ fun h ↦ ?_) fun h ↦ ?_) fun h ↦ ?_
  · exact List.forall_mem_nil _
  all_goals simp [reservedNames] at h

theorem prototype_function : edition.function.prototype = some Realm.functionPrototype := rfl

end Edition

variable {m m' : Machine} {editions older newer : List Edition} {edition : Edition}
  {name key : String} {x q behind : ObjectId} {p : Property} {g : Object} {spec : ClassSpec}

/-- The edition of a name that was installed last. The list begins with the latest class. -/
def latest? (editions : List Edition) (name : String) : Option Edition :=
  editions.find? (·.spec.name = name)

theorem latest?_cons (edition : Edition) (editions : List Edition) (name : String) :
    latest? (edition :: editions) name =
      if edition.spec.name = name then some edition else latest? editions name := by
  rw [latest?, List.find?_cons]
  by_cases h : edition.spec.name = name <;> simp [h, latest?]

theorem mem_of_latest? (h : latest? editions name = some edition) :
    edition ∈ editions ∧ edition.spec.name = name :=
  ⟨List.mem_of_find?_eq_some h, by simpa using List.find?_some h⟩

/-- What comes to stand behind the prototype of a class: the parent is known by its name. -/
def behind? (editions : List Edition) (spec : ClassSpec) : Option ObjectId :=
  match spec.parent with
  | none => some Realm.objectPrototype
  | some parent => (latest? editions parent).map Edition.prototype

/-- Every class stands as it was made. No two have one prototype. -/
inductive Standing (m : Machine) : List Edition → Prop
  | nil : Standing m []
  | cons {edition : Edition} {editions : List Edition} {behind : ObjectId}
    (h : Standing m editions) (hbehind : behind? editions edition.spec = some behind)
    (hnew : ∀ old ∈ editions, old.prototype ≠ edition.prototype)
    (hapart : edition.constructor ≠ Realm.globalObject ∧ edition.prototype ≠ Realm.globalObject)
    (hfunction : m.heap[edition.constructor]? = some edition.function)
    (hmodel : m.heap[edition.prototype]? = some (edition.model behind)) :
    Standing m (edition :: editions)

/-- What the global object has of the classes. -/
structure Presents (editions : List Edition) (g : Object) : Prop where
  isArray : g.isArray = false
  extensible : g.extensible = true
  plain : g.Plain
  isOpen : g.Open
  own?_protoKey : g.own? protoKey = none
  prototype : g.prototype = some
    (((latest? editions protoKey).map Edition.constructor).getD Realm.objectPrototype)
  named : ∀ {name edition}, latest? editions name = some edition → name ≠ protoKey →
    g.Shows name (.object edition.constructor)

/-- The objects of a fresh machine that lead from the global object to prototypes. -/
def fixtures : List ObjectId :=
  [Realm.objectPrototype, Realm.functionPrototype, Realm.function .prototypeGetter,
    Realm.function .prototypeSetter]

/-- The objects on which the display of classes depends. -/
def essentials (editions : List Edition) : List ObjectId :=
  Realm.globalObject :: fixtures ++
    editions.flatMap fun edition ↦ [edition.constructor, edition.prototype]

/-- The machine displays classes: no script has touched them, or what leads to them. -/
structure Displays (m : Machine) (editions : List Edition) : Prop where
  fixtures : ∀ x ∈ fixtures, m.heap[x]? = Realm.objects[x.index]?
  global : ∃ g, m.heap[Realm.globalObject]? = some g ∧ Presents editions g
  standing : Standing m editions

/-! ## What stands -/

namespace Standing

theorem split (h : Standing m (newer ++ edition :: older)) : Standing m (edition :: older) := by
  induction newer with
  | nil => exact h
  | cons first newer ih =>
    cases h with
    | cons h => exact ih h

theorem of_mem (h : Standing m editions) (hedition : edition ∈ editions) :
    m.heap[edition.constructor]? = some edition.function ∧
      ∃ behind, m.heap[edition.prototype]? = some (edition.model behind) := by
  obtain ⟨newer, older, rfl⟩ := List.append_of_mem hedition
  cases h.split with
  | cons _ _ _ _ hfunction hmodel => exact ⟨hfunction, _, hmodel⟩

theorem ne_global (h : Standing m editions) (hedition : edition ∈ editions) :
    edition.constructor ≠ Realm.globalObject ∧ edition.prototype ≠ Realm.globalObject := by
  obtain ⟨newer, older, rfl⟩ := List.append_of_mem hedition
  cases h.split with
  | cons _ _ _ hapart => exact hapart

theorem congr (h : Standing m editions)
    (hkept : ∀ edition ∈ editions, m'.heap[edition.constructor]? = m.heap[edition.constructor]? ∧
      m'.heap[edition.prototype]? = m.heap[edition.prototype]?) : Standing m' editions := by
  induction h with
  | nil => exact .nil
  | cons _ hbehind hnew hapart hfunction hmodel ih =>
    obtain ⟨⟨hconstructor, hprototype⟩, hkept⟩ := List.forall_mem_cons.mp hkept
    exact .cons (ih hkept) hbehind hnew hapart (hconstructor.trans hfunction)
      (hprototype.trans hmodel)

end Standing

theorem mem_essentials : x ∈ essentials editions ↔ x = Realm.globalObject ∨ x ∈ fixtures ∨
    ∃ edition ∈ editions, x = edition.constructor ∨ x = edition.prototype := by
  simp [essentials]

namespace Displays

theorem congr (h : Displays m editions)
    (hkept : ∀ x ∈ essentials editions, m'.heap[x]? = m.heap[x]?) : Displays m' editions where
  fixtures x hx := (hkept x (mem_essentials.mpr (.inr (.inl hx)))).trans (h.fixtures x hx)
  global := by
    rw [hkept _ (mem_essentials.mpr (.inl rfl))]
    exact h.global
  standing := h.standing.congr fun edition hedition ↦
    ⟨hkept _ (mem_essentials.mpr (.inr (.inr ⟨edition, hedition, .inl rfl⟩))),
      hkept _ (mem_essentials.mpr (.inr (.inr ⟨edition, hedition, .inr rfl⟩)))⟩

theorem of_heap (h : Displays m editions) (hheap : m'.heap = m.heap) : Displays m' editions :=
  h.congr fun x _ ↦ by rw [hheap]

theorem mem_heap (h : Displays m editions) (hx : x ∈ essentials editions) : x ∈ m.heap := by
  rcases mem_essentials.mp hx with rfl | hfixture | ⟨edition, hedition, hx⟩
  · obtain ⟨g, hg, -⟩ := h.global
    exact mem_heap_of_getElem? hg
  · have hall : ∀ x ∈ Machine.fixtures, (Realm.objects[x.index]?).isSome = true := by decide +kernel
    rw [Std.ExtTreeMap.mem_iff_isSome_getElem?, h.fixtures x hfixture]
    exact hall x hfixture
  · obtain ⟨hfunction, behind, hmodel⟩ := h.standing.of_mem hedition
    rcases hx with rfl | rfl
    · exact mem_heap_of_getElem? hfunction
    · exact mem_heap_of_getElem? hmodel

theorem ne_fresh (h : Displays m editions) (hfresh : m.fresh ∉ m.heap)
    (hx : x ∈ essentials editions) : x ≠ m.fresh :=
  ne_of_mem_of_not_mem (h.mem_heap hx) hfresh

/-- As long as objects stay as they are, so does the display. -/
theorem of_old (h : Displays m editions)
    (hold : ∀ {x : ObjectId}, x ∈ m.heap → m'.heap[x]? = m.heap[x]?) : Displays m' editions :=
  h.congr fun _ hx ↦ hold (h.mem_heap hx)

end Displays

end ScriptBridge.Script.Machine
