import ScriptBridge.Proofs.Script.Ground

/-!
# Setters under the names of classes

A script may define a setter on the global object. A class of that name cannot be put in place then:
the setter is called with the constructor, and whatever it throws refuses the installation. What the
setter does with the constructor is done already.
-/

namespace ScriptBridge.Script

namespace Object

/-- What the description of a setter leaves open. -/
def undescribed : List String := ["enumerable", "value", "writable", "get"]

/-- An object that describes a setter: a property that can be redefined, with nothing else. -/
structure DescribesSetter (g : Object) (setter : ObjectId) : Prop where
  lacks : ∀ key ∈ undescribed, g.own? key = none
  configurable : g.Shows "configurable" (.boolean true)
  setter : g.Shows "set" (.object setter)

end Object

namespace Machine

variable {g f g' f' : Object} {x setter : ObjectId} {key name : String} {d : Datum}
  {invoke : Invoke}

/-- The property that the description of a setter makes. -/
def trap (setter : ObjectId) : Property := ⟨.accessor none (some setter), .fixed⟩

namespace Yields

/-! ## Calling -/

theorem evalAll_cons {e : Expr} {rest : List Expr} {ds : List Datum}
    (h : Yields g f (Interp.eval invoke e) d g f)
    (hrest : Yields g f (Interp.evalAll invoke rest) ds g f) :
    Yields g f (Interp.evalAll invoke (e :: rest)) (d :: ds) g f := by
  rw [Interp.evalAll]
  exact h.bind ((hrest.holding _).bind (of_pure _))

theorem evalAll_nil : Yields g f (Interp.evalAll invoke []) [] g f := by
  rw [Interp.evalAll]
  exact of_pure []

/-- A value is a function. -/
theorem function? (h : ∀ m, Ground g f m → (m.object x).callable?.isSome = true) :
    Yields g f (Interp.function? (.object x)) (some x) g f := of_look fun m hm ↦ by
  show (some (if (m.object x).callable?.isSome then some x else none), m) = _
  rw [if_pos (h m hm)]

/-- A function that stands for something is applied to arguments. -/
theorem apply {callee : Expr} {arguments : List Expr} {ds : List Datum}
    (hcallee : Yields g f (Interp.eval invoke callee) (.object x) g f)
    (harguments : Yields g f (Interp.evalAll invoke arguments) ds g f)
    (hfunction : ∀ m, Ground g f m → (m.object x).callable?.isSome = true)
    (hcall : Yields g f (invoke x .undefined ds none) d g' f') :
    Yields g f (Interp.eval invoke (.apply callee arguments)) d g' f' := by
  rw [Interp.eval]
  refine (hcallee.bind ((updatePlace _).bind (holding ?_ _))).settling
  exact harguments.bind ((function? hfunction).bind hcall)

/-- A call of one of the functions that every script finds. -/
theorem intrinsic {which : Intrinsic} {this : Datum} {arguments : List Datum}
    (hcallable : ∀ m, Ground g f m → (m.object x).callable? = some (.intrinsic which))
    (hshown : which.isShown = true)
    (h : ∀ depth, Yields g f (Interp.runIntrinsic (Interp.invokeWithin depth) which this arguments
      none) d g' f') :
    Yields g f (Interp.invoke x this arguments none) d g' f' := by
  intro m hm
  obtain ⟨depth, hrun⟩ := run_invoke_intrinsic (hcallable m hm) hshown this arguments
  rw [hrun]
  exact (((h depth).inFrame _).holding _) m hm

/-! ## Defining a setter -/

theorem field?_of_lacks (hown : g.own? key = none) (hroot : key ∉ rootKeys) :
    Yields g f (Interp.field? invoke Realm.globalObject key) none g f := of_look fun m hm ↦ by
  unfold Interp.field?
  rw [run_bind_of (run_view_find? m _ key), hm.find?_eq_none hown hroot]
  rfl

theorem field?_of_shows (h : g.Shows key d) :
    Yields g f (Interp.field? invoke Realm.globalObject key) (some d) g f := by
  obtain ⟨flags, hown⟩ := h
  intro m hm
  have hfind {m : Machine} (hm : Ground g f m) :
      m.find? Realm.globalObject key = some (Realm.globalObject, ⟨.data d, flags⟩) :=
    find?_of_own hm.global hown
  obtain ⟨m', hread, hm', hnext⟩ : ∃ m', (Interp.read invoke Realm.globalObject key).run m =
      (some d, m') ∧ Ground g f m' ∧ m'.nextHandle = m.nextHandle := readFor (fun m ↦ hfind) m hm
  refine ⟨m', ?_, hm', hnext⟩
  unfold Interp.field?
  rw [run_bind_of (run_view_find? m _ key), hfind hm]
  exact (run_bind_of hread).trans rfl

theorem functionField?_of_lacks (hown : g.own? key = none) (hroot : key ∉ rootKeys)
    (fault : Fault) :
    Yields g f (Interp.functionField? invoke Realm.globalObject key fault) none g f :=
  (field?_of_lacks hown hroot).bind (of_pure none)

theorem functionField?_of_shows (h : g.Shows key (.object x))
    (hfunction : ∀ m, Ground g f m → (m.object x).callable?.isSome = true) (fault : Fault) :
    Yields g f (Interp.functionField? invoke Realm.globalObject key fault) (some (some x)) g f :=
  (field?_of_shows h).bind ((function? hfunction).bind (of_pure _))

theorem toDescriptor (h : g.DescribesSetter setter)
    (hfunction : ∀ m, Ground g f m → (m.object setter).callable?.isSome = true) :
    Yields g f (Interp.toDescriptor invoke Realm.globalObject)
      { setter := some (some setter), configurable := some true } g f := by
  have hnot : ∀ key ∈ Object.undescribed, key ∉ rootKeys := by decide
  have hlacks {key : String} (hkey : key ∈ Object.undescribed) :
      Yields g f (Interp.field? invoke Realm.globalObject key) none g f :=
    field?_of_lacks (h.lacks key hkey) (hnot key hkey)
  have hgetter : Yields g f (Interp.functionField? invoke Realm.globalObject "get" .notGetter)
      none g f := functionField?_of_lacks (h.lacks _ (by decide)) (by decide) _
  refine (hlacks (by decide)).bind ((field?_of_shows h.configurable).bind
    ((hlacks (by decide)).bind (holding ?_ _)))
  refine (hlacks (by decide)).bind (hgetter.bind (holding ?_ _))
  exact (functionField?_of_shows h.setter hfunction _).bind (of_pure _)

/-- A setter is defined under a name that the global object does not have yet. -/
theorem defineSetter (h : g.DescribesSetter setter) (hown : g.own? name = none)
    (hguide : name ∉ guides.map Prod.fst) (hindex : arrayIndex? name = none)
    (hfunction : ∀ m, Ground g f m → (m.object setter).callable?.isSome = true) :
    Yields g f (Interp.invoke (Realm.function .objectDefineProperty) .undefined
      [.object Realm.globalObject, .text name, .object Realm.globalObject] none)
      (.object Realm.globalObject) (g.put name (trap setter)) f := by
  have hcallable (m : Machine) (hm : Ground g f m) :
      (m.object (Realm.function .objectDefineProperty)).callable? =
        some (.intrinsic .objectDefineProperty) :=
    hm.callable?_landmark (by simp [landmarks]) rfl rfl
  refine intrinsic hcallable rfl fun depth ↦ ?_
  have hkey : Yields g f (Interp.toKey (Interp.invokeWithin depth) (.text name)) name g f := by
    refine of_look fun m _ ↦ ?_
    show (some ((Text.Units.ofString name).toString?.getD "\ufffd"), m) = _
    rw [Text.Units.toString?, Text.Units.decode_ofString]
    rfl
  have hdefine : Yields g f (Interp.defineOrThrow (Interp.invokeWithin depth) Realm.globalObject
      name { setter := some (some setter), configurable := some true }) ()
      (g.put name (trap setter)) f := fun m hm ↦ by
    refine ⟨_, ?_, hm.update_global (·.put name (trap setter)) (hm.guides.put hguide _), rfl⟩
    exact run_defineOrThrow_new hindex hm.global hown hm.guides.extensible _
  exact hkey.bind ((toDescriptor h hfunction).bind ((touch name).bind (hdefine.bind (of_pure _))))

end Yields

end Machine

end ScriptBridge.Script
