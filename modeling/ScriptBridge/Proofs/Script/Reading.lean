import ScriptBridge.Proofs.Script.Edits

/-!
# Reading and converting values

Whatever looks up properties may call functions, of which no more is assumed than that they are as
safe as the interpreter itself. After a call only what was given to the function, what it returned,
and what is pinned can be counted on.
-/

namespace ScriptBridge.Script

open Machine

variable {α β : Type} {t : Prop} {pins : List Datum} {needs ids : List ObjectId} {id : ObjectId}
  {key : String} {d : Datum} {invoke : Invoke} {gives : α → List ObjectId}

/-! ## The objects that are always there -/

theorem mem_pinned_of_anchor (h : id ∈ Realm.anchors) : id ∈ pinned pins :=
  List.mem_append_left _ h

@[simp, grind ←]
theorem globalObject_pinned : Realm.globalObject ∈ pinned pins :=
  mem_pinned_of_anchor (by simp [Realm.anchors])

@[simp, grind ←]
theorem objectPrototype_pinned : Realm.objectPrototype ∈ pinned pins :=
  mem_pinned_of_anchor (by simp [Realm.anchors])

@[simp, grind ←]
theorem functionPrototype_pinned : Realm.functionPrototype ∈ pinned pins :=
  mem_pinned_of_anchor (by simp [Realm.anchors])

@[simp, grind ←]
theorem arrayPrototype_pinned : Realm.arrayPrototype ∈ pinned pins :=
  mem_pinned_of_anchor (by simp [Realm.anchors])

@[simp, grind ←]
theorem promisePrototype_pinned : Realm.promisePrototype ∈ pinned pins :=
  mem_pinned_of_anchor (by simp [Realm.anchors])

@[simp, grind ←]
theorem PrimitiveType.prototype_pinned (type : PrimitiveType) : type.prototype ∈ pinned pins := by
  apply mem_pinned_of_anchor
  cases type <;> simp [Realm.anchors, PrimitiveType.all]

@[simp, grind ←]
theorem ErrorKind.prototype_pinned (kind : ErrorKind) : kind.prototype ∈ pinned pins := by
  apply mem_pinned_of_anchor
  cases kind <;> simp [Realm.anchors, ErrorKind.all]

/-! ## Calls -/

/-- What a call is given. -/
@[grind =]
def inputs (id : ObjectId) (this : Datum) (arguments : List Datum) (newTarget : Option ObjectId) :
    List ObjectId :=
  id :: (this.references ++ arguments.flatMap Datum.references ++ newTarget.toList)

/-- Calls are safe, and what they are given stays. -/
def Faithful (invoke : Invoke) : Prop :=
  ∀ {t : Prop} {pins : List Datum} {needs : List ObjectId} {id this arguments newTarget},
    Known pins needs (inputs id this arguments newTarget) →
      Safe t pins needs (invoke id this arguments newTarget)
        fun d ↦ d.references ++ inputs id this arguments newTarget

namespace Safe

/-! ## Errors -/

theorem addStack (id : ObjectId) (frames : List Frame) :
    Safe t pins needs (Interp.addStack id frames) fun _ ↦ needs := by
  unfold Interp.addStack
  exact Safe.look.bind fun stack ↦ .edit (.put (by simp [payloadKey])) (by simp) id

theorem placeable_errorObject {prototype : ObjectId} (message : Option Text.Units)
    (h : Known pins needs [prototype]) :
    Placeable pins needs (errorObject prototype message) := by
  have hempty : Placeable pins needs (.empty .error (some prototype)) := .empty h known_nil rfl rfl
  unfold errorObject
  split
  · exact hempty.withData (by simp [payloadKey]) (by simp)
  · exact hempty

theorem newError {prototype : ObjectId} (message : Option Text.Units) (frames : List Frame)
    (h : Known pins needs [prototype]) :
    Safe t pins needs (Interp.newError prototype message frames) fun id ↦ id :: needs := by
  unfold Interp.newError
  refine (Safe.allocate (placeable_errorObject message h)).bind fun id ↦ ?_
  exact (Safe.addStack id frames).bind fun _ ↦ .ret (by simp)

/-- Whatever throws gives nothing, so that anything may be said of what it gives. -/
theorem raiseError (kind : ErrorKind) (message : String) :
    Safe t pins needs (Interp.raiseError kind message : Interp α) gives := by
  unfold Interp.raiseError
  refine Safe.get_bind fun m ↦ ?_
  exact (Safe.newError _ _ (by simp)).bind fun id ↦ .raise (by simp)

theorem raiseFault (fault : Fault) :
    Safe t pins needs (Interp.raiseFault fault : Interp α) gives :=
  .raiseError fault.kind fault.message

theorem run_bind_eq_none {x : Interp α} {f : α → Interp β} (h : ∀ a m, ((f a).run m).1 = none)
    (m : Machine) : ((x >>= f).run m).1 = none := by
  rw [Interp.run_bind]
  split
  · exact h _ _
  · rfl

theorem run_raiseError (kind : ErrorKind) (message : String) (m : Machine) :
    ((Interp.raiseError kind message : Interp α).run m).1 = none := by
  unfold Interp.raiseError
  refine run_bind_eq_none (fun now ↦ ?_) m
  exact run_bind_eq_none fun _ _ ↦ rfl

theorem run_raiseFault (fault : Fault) (m : Machine) :
    ((Interp.raiseFault fault : Interp α).run m).1 = none :=
  run_raiseError fault.kind fault.message m

/-- Nothing is done after a fault. -/
theorem raiseFault_bind {fault : Fault} {f : α → Interp β} {gf : β → List ObjectId} :
    Safe t pins needs (Interp.raiseFault fault >>= f) gf := by
  have hraise : Safe t pins needs (Interp.raiseFault fault : Interp α) fun _ ↦ needs :=
    .raiseFault fault
  refine hraise.bind_of fun a ha ↦ ?_
  obtain ⟨m, hm⟩ := ha
  rw [run_raiseFault] at hm
  cases hm

theorem raiseDatum (h : Known pins needs d.references) :
    Safe t pins needs (Interp.raiseDatum d : Interp α) gives := by
  unfold Interp.raiseDatum
  dsimp only
  split
  · next id =>
    refine (Safe.object id).bind fun o ↦ ?_
    have hraise : Safe t pins (o.shown ++ needs) (Interp.raise (.object id) : Interp α) gives :=
      .raise (h.mono (by simp))
    split
    · refine Safe.get_bind fun m ↦ ?_
      split
      · exact hraise
      · exact (Safe.addStack id _).bind fun _ ↦ hraise
    · exact hraise
  · exact .raise h

theorem run_raiseDatum (thrown : Datum) (m : Machine) :
    ((Interp.raiseDatum thrown : Interp α).run m).1 = none := by
  unfold Interp.raiseDatum
  split
  · refine run_bind_eq_none (fun o m ↦ ?_) m
    split
    · refine run_bind_eq_none (fun now m ↦ ?_) m
      dsimp only
      split
      · rfl
      · exact run_bind_eq_none (fun _ m ↦ rfl) m
    · rfl
  · rfl

/-! ## Properties -/

theorem makeDeferred (hid : Known pins needs [id]) (hkey : key = payloadKey → t) (flags : Flags) :
    Safe t pins needs (Interp.makeDeferred id key flags) fun d ↦ d.references ++ needs := by
  unfold Interp.makeDeferred
  have hplaceable :
      Placeable pins needs ((Object.empty .ordinary (some Realm.objectPrototype)).withData
      "constructor" (.object id) .hidden) :=
    (Placeable.ordinary (by simp)).withData (by simp [payloadKey]) hid
  refine (Safe.allocate hplaceable).bind fun made ↦ ?_
  exact (Safe.edit (.put hkey) (by simp) id).bind fun _ ↦ .ret (by simp)

theorem settleProperty (hid : Known pins needs [id]) (hkey : key = payloadKey → t) :
    Safe t pins needs (Interp.settleProperty id key) fun _ ↦ needs := by
  unfold Interp.settleProperty
  refine ((Safe.object id).giving fun _ ↦ known_append_right).bind fun o ↦ ?_
  split
  · exact (Safe.makeDeferred hid hkey _).bind fun _ ↦ .ret (by simp)
  · exact .done _

/-- What is read, and the receiver, are offered afterwards. -/
theorem readFor (hinvoke : Faithful invoke) {receiver : Datum}
    (h : Known pins needs (id :: receiver.references)) (key : String) :
    Safe t pins needs (Interp.readFor invoke id receiver key)
      fun d ↦ d.references ++ receiver.references := by
  unfold Interp.readFor
  refine Safe.touch_bind ?_
  have hkey : key = payloadKey → t ∨ key = payloadKey := .inr
  refine (Safe.find hkey (by grind)).bind fun found ↦ ?_
  split
  · exact .ret (by grind)
  · next owner p =>
    split
    · exact .ret (by grind)
    · exact (hinvoke (by grind)).giving fun d ↦ by grind
    · exact .ret (by grind)
    · exact (Safe.makeDeferred (by grind) hkey _).giving fun d ↦ by grind

theorem read (hinvoke : Faithful invoke) (hid : Known pins needs [id]) (key : String) :
    Safe t pins needs (Interp.read invoke id key) fun d ↦ d.references ++ [id] :=
  Safe.readFor hinvoke (by grind) key

theorem readOf (hinvoke : Faithful invoke) {target : Datum} (h : Known pins needs target.references)
    (key : String) (shownKey : Option String) :
    Safe t pins needs (Interp.readOf invoke target key shownKey)
      fun d ↦ d.references ++ target.references := by
  unfold Interp.readOf
  split
  · exact .read hinvoke h key
  · exact .raiseFault _
  · exact .raiseFault _
  · split
    · split
      · next unit hunit => exact .ret (by grind [references_unitOf?])
      · exact .readFor hinvoke (by grind) key
    · split
      · exact .readFor hinvoke (by grind) key
      · exact .ret (by grind)

/-- What wraps a primitive value refers to its prototype alone. -/
theorem placeable_wrapperObject {prototype : ObjectId} (h : Known pins needs [prototype])
    (hd : d.references = []) : Placeable pins needs (Realm.wrapperObject prototype d) := by
  unfold Realm.wrapperObject
  split
  · refine .withEntries (.empty h (by simp [Kind.references]) rfl rfl) fun entry hentry ↦ ?_
    rcases List.mem_append.mp hentry with hentry | hentry
    · obtain ⟨i, hi, rfl⟩ := List.mem_mapIdx.mp hentry
      exact ⟨toString_ne_payloadKey i, known_nil⟩
    · rw [List.mem_singleton.mp hentry]
      exact ⟨by simp [payloadKey], by simp⟩
  · exact .empty h (by rw [Kind.references, hd]; exact known_nil) rfl rfl

theorem toObject (d : Datum) (h : Known pins needs d.references) :
    Safe t pins needs (Interp.toObject d) fun id ↦ id :: needs := by
  unfold Interp.toObject
  cases d with
  | object id => exact .ret (by grind)
  | undefined | null => exact .raiseFault _
  | boolean | integer | double | string | symbol | bigint =>
    exact .allocate (placeable_wrapperObject (by grind) rfl)

/-! ## Conversions -/

theorem orRaise (result : Except Fault α) :
    Safe t pins needs (Interp.orRaise result) fun _ ↦ needs := by
  unfold Interp.orRaise
  split
  · exact .done _
  · exact .raiseFault _

/-- A function is asked for, and found or not. -/
theorem function_bind {f : Option ObjectId → Interp β} {gf : β → List ObjectId}
    (hnone : Safe t pins needs (f none) gf)
    (hsome : ∀ id, d = .object id → Safe t pins needs (f (some id)) gf) :
    Safe t pins needs (Interp.function? d >>= f) gf := by
  unfold Interp.function?
  split
  · next id =>
    rw [bind_assoc]
    refine ((Safe.object id).giving fun _ ↦ known_append_right).bind fun o ↦ ?_
    rw [pure_bind]
    split
    · exact hsome id rfl
    · exact hnone
  · rw [pure_bind]
    exact hnone

theorem primitiveText (d : Datum) :
    Safe t pins needs (Interp.primitiveText d) fun _ ↦ needs :=
  .orRaise _

theorem askForPrimitive (hinvoke : Faithful invoke) (h : Known pins needs [id])
    (keys : List String) :
    Safe t pins needs (Interp.askForPrimitive invoke id keys) fun _ ↦ [id] := by
  induction keys generalizing needs with
  | nil => exact .raiseFault _
  | cons key keys ih =>
    rw [Interp.askForPrimitive]
    refine (Safe.read hinvoke h key).bind fun d ↦ ?_
    refine Safe.function_bind ?_ fun method hmethod ↦ ?_
    · exact ih (by grind)
    · dsimp only
      refine (hinvoke (by grind)).bind fun d ↦ ?_
      split
      · exact ih (by grind)
      · exact .ret (by grind)

theorem toPrimitive (hinvoke : Faithful invoke) (h : Known pins needs d.references)
    (purpose : Interp.Purpose) :
    Safe t pins needs (Interp.toPrimitive invoke d purpose) fun _ ↦ d.references := by
  unfold Interp.toPrimitive
  split
  · next id =>
    refine Safe.look.bind fun chain ↦ ?_
    split
    · refine (Safe.object id).bind fun o ↦ ?_
      split
      · exact .ret (by grind)
      · exact .raiseFault _
    · exact .askForPrimitive hinvoke h _
  · exact .ret (by grind)

theorem toText (hinvoke : Faithful invoke) (h : Known pins needs d.references) :
    Safe t pins needs (Interp.toText invoke d) fun _ ↦ d.references :=
  (Safe.toPrimitive hinvoke h .text).bind fun primitive ↦ .primitiveText primitive

theorem toNumber (hinvoke : Faithful invoke) (h : Known pins needs d.references) :
    Safe t pins needs (Interp.toNumber invoke d) fun _ ↦ d.references :=
  (Safe.toPrimitive hinvoke h .number).bind fun primitive ↦ .orRaise primitive.primitiveNumber

theorem toNumeric (hinvoke : Faithful invoke) (h : Known pins needs d.references) :
    Safe t pins needs (Interp.toNumeric invoke d) fun x ↦ x.references ++ d.references := by
  unfold Interp.toNumeric
  refine (Safe.toPrimitive hinvoke h .number).bind fun primitive ↦ ?_
  split
  · exact .ret (by grind)
  · exact .ret (by grind)
  · exact .ret (by grind)
  · exact .ret (by grind)
  · exact (Safe.orRaise _).bind fun x ↦ .ret (by grind)
  · exact (Safe.orRaise _).bind fun x ↦ .ret (by grind)

/-- A number is a length if it is the word that it was taken for. -/
theorem lengthFor (hinvoke : Faithful invoke) (h : Known pins needs d.references) (word : Nat) :
    Safe t pins needs (do
      match lengthOfNumber? (← Interp.toNumber invoke d) with
      | some n => if n = word then return n else Interp.raiseFault .invalidLength
      | none => Interp.raiseFault .invalidLength) fun _ ↦ d.references := by
  refine (Safe.toNumber hinvoke h).bind fun x ↦ ?_
  split
  · split
    · exact .done _
    · exact .raiseFault _
  · exact .raiseFault _

theorem toLength (hinvoke : Faithful invoke) (h : Known pins needs d.references) :
    Safe t pins needs (Interp.toLength invoke d) fun _ ↦ d.references := by
  unfold Interp.toLength
  split
  · exact .ret (by grind)
  · exact .ret (by grind)
  · split
    · exact .ret (by grind)
    · exact .raiseFault _
  · split
    · exact .lengthFor hinvoke h _
    · have hword : Safe t pins needs (Datum.wordOf <$> Interp.toNumber invoke d)
          fun _ ↦ d.references :=
        (Safe.toNumber hinvoke h).map fun _ ↦ known_self
      exact hword.bind (.lengthFor hinvoke known_self)

theorem toKey (hinvoke : Faithful invoke) (h : Known pins needs d.references) :
    Safe t pins needs (Interp.toKey invoke d) fun _ ↦ d.references :=
  (Safe.toText hinvoke h).bind fun _ ↦ .done _

end Safe

/-! ## Results that are no objects -/

/-- Whatever the interpretation gives is no object. -/
def Primitive (action : Interp Datum) : Prop :=
  ∀ m d, (action.run m).1 = some d → d.references = []

namespace Primitive

theorem ret (h : d.references = []) : Primitive (Pure.pure d) := by
  intro m x hx
  obtain rfl : d = x := Option.some.inj hx
  exact h

theorem bind {x : Interp α} {f : α → Interp Datum} (h : ∀ a, Primitive (f a)) :
    Primitive (x >>= f) := by
  intro m d hd
  rw [Interp.run_bind] at hd
  split at hd
  · exact h _ _ d hd
  · cases hd

theorem bind_of {x : Interp Datum} {f : Datum → Interp Datum} (hx : Primitive x)
    (h : ∀ a, a.references = [] → Primitive (f a)) : Primitive (x >>= f) := by
  intro m d hd
  rw [Interp.run_bind] at hd
  split at hd
  · next a after hrun => exact h a (hx m a (by rw [hrun])) after d hd
  · cases hd

theorem raiseFault (fault : Fault) : Primitive (Interp.raiseFault fault) := by
  intro m d hd
  rw [Safe.run_raiseFault] at hd
  cases hd

theorem askForPrimitive (invoke : Invoke) (id : ObjectId) (keys : List String) :
    Primitive (Interp.askForPrimitive invoke id keys) := by
  induction keys with
  | nil => exact .raiseFault _
  | cons key keys ih =>
    rw [Interp.askForPrimitive]
    refine .bind fun d ↦ .bind fun method ↦ ?_
    split
    · exact ih
    · refine .bind fun result ↦ ?_
      split
      · exact ih
      · next hobject =>
        refine .ret ?_
        cases result with
        | object id => exact absurd rfl (hobject id)
        | _ => rfl

theorem toPrimitive (invoke : Invoke) (d : Datum) (purpose : Interp.Purpose) :
    Primitive (Interp.toPrimitive invoke d purpose) := by
  unfold Interp.toPrimitive
  split
  · refine .bind fun chain ↦ ?_
    split
    · refine .bind fun o ↦ ?_
      split
      · exact .ret rfl
      · exact .raiseFault _
    · exact .askForPrimitive invoke _ _
  · next hobject =>
    refine .ret ?_
    cases d with
    | object id => exact absurd rfl (hobject id)
    | _ => rfl

theorem toNumeric (invoke : Invoke) (d : Datum) : Primitive (Interp.toNumeric invoke d) := by
  refine .bind fun primitive ↦ ?_
  split
  · exact .ret rfl
  · exact .ret rfl
  · exact .ret rfl
  · exact .ret rfl
  · exact .bind fun x ↦ .ret (Datum.references_ofFloat x)
  · exact .bind fun x ↦ .ret rfl

end Primitive

end ScriptBridge.Script
