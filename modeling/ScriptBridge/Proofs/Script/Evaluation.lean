import ScriptBridge.Proofs.Script.Functions
import ScriptBridge.Script.Evaluation

/-!
# Evaluation is safe

By induction on expressions and statements, whatever a script does leaves a sound machine sound if
the calls in it do; and by induction on the depth to which calls may nest, they do.
-/

namespace ScriptBridge.Script

open Machine

namespace Safe

variable {α : Type} {t : Prop} {pins : List Datum} {needs : List ObjectId} {id : ObjectId}
  {d : Datum} {invoke : Invoke} {arguments : List Datum} {newTarget : Option ObjectId}

/-! ## Names -/

theorem readGlobal (hinvoke : Faithful invoke) (name : String) :
    Safe t pins needs (Interp.readGlobal invoke name) Datum.references :=
  (Safe.read hinvoke (by grind) name).giving fun _ ↦ by grind

theorem readDeclared (hinvoke : Faithful invoke) (name : String) :
    Safe t pins needs (Interp.readDeclared invoke name) Datum.references := by
  unfold Interp.readDeclared
  refine Safe.look.bind fun isDeclared ↦ ?_
  split
  · exact .readGlobal hinvoke name
  · exact .raiseFault _

theorem refuse (fault : Option Fault) :
    Safe t pins needs (Interp.refuse fault) fun _ ↦ needs := by
  unfold Interp.refuse
  split
  · exact .done _
  · refine Safe.get_bind fun m ↦ ?_
    split
    · exact .raiseFault _
    · exact .done _

theorem newFunction (form : FunctionForm) (name source : String) (body : Program) :
    Safe t pins needs (Interp.newFunction form name source body) fun d ↦ d.references ++ needs :=
  Safe.look.bind fun _ ↦ .newRoutine _ _

theorem isConstructor (id : ObjectId) :
    Safe t pins needs (Interp.isConstructor id) fun _ ↦ needs :=
  ((Safe.object id).giving fun _ ↦ known_append_right).bind fun _ ↦ .done _

/-! ## Classes -/

theorem parentOf (hinvoke : Faithful invoke) (h : Known pins needs d.references) :
    Safe t pins needs (Interp.parentOf invoke d) fun (parent, prototype) ↦
      parent :: prototype.toList := by
  unfold Interp.parentOf
  split
  · exact .ret (by grind)
  · next id =>
    refine (Safe.isConstructor id).bind fun isConstructor ↦ ?_
    split
    · refine (Safe.read hinvoke h "prototype").bind fun prototype ↦ ?_
      split
      · exact .ret (by grind)
      · exact .ret (by grind)
      · exact .raiseFault _
    · exact .raiseFault _
  · exact .raiseFault _

theorem newDerivedClass (hinvoke : Faithful invoke) (name : String)
    (h : Known pins needs d.references) :
    Safe t pins needs (Interp.newDerivedClass invoke name d) Datum.references := by
  unfold Interp.newDerivedClass
  refine (Safe.parentOf hinvoke h).bind fun (parent, parentPrototype) ↦ ?_
  refine Safe.look.bind fun place ↦ ?_
  have hfunction : Placeable pins (parent :: parentPrototype.toList)
      { Realm.functionObject (.derived place.file place.current name) 0 "" with
        prototype := some parent } :=
    (placeable_functionObject known_nil rfl 0 "").edit (.withPrototype (some parent)) (by simp)
  refine (Safe.allocate hfunction).bind fun id ↦ ?_
  have hprototype : Placeable pins (id :: parent :: parentPrototype.toList)
      ((Object.empty .ordinary parentPrototype).withData "constructor" (.object id) .hidden) :=
    (Placeable.ordinary (by grind)).withData (by simp [payloadKey]) (by grind)
  refine (Safe.allocate hprototype).bind fun prototype ↦ ?_
  exact (Safe.edit (.put (by simp [payloadKey])) (by simp) id).bind fun _ ↦ .ret (by grind)

/-! ## Calls -/

theorem call (hinvoke : Faithful invoke) {callee this : Datum}
    (h : Known pins needs (callee.references ++ (this.references ++
      arguments.flatMap Datum.references))) :
    Safe t pins needs (Interp.call invoke callee this arguments) Datum.references := by
  unfold Interp.call
  refine Safe.function_bind (.raiseFault _) fun id hid ↦ ?_
  exact (hinvoke (by grind)).giving fun _ ↦ by grind

theorem construct (hinvoke : Faithful invoke) {callee : Datum}
    (h : Known pins needs (callee.references ++ arguments.flatMap Datum.references)) :
    Safe t pins needs (Interp.construct invoke callee arguments) Datum.references := by
  unfold Interp.construct
  split
  · next id =>
    refine (Safe.isConstructor id).bind fun isConstructor ↦ ?_
    split
    · exact (hinvoke (by grind)).giving fun _ ↦ by grind
    · exact .raiseFault _
  · exact .raiseFault _

/-! ## Operators -/

theorem isInstance (hinvoke : Faithful invoke) {value constructor : Datum}
    (h : Known pins needs constructor.references) :
    Safe t pins needs (Interp.isInstance invoke value constructor) fun _ ↦ [] := by
  unfold Interp.isInstance
  split
  · next id =>
    refine ((Safe.object id).giving fun _ ↦ known_append_right).bind fun o ↦ ?_
    split
    · split
      · refine (Safe.read hinvoke h "prototype").bind fun prototype ↦ ?_
        split
        · exact Safe.look.bind fun _ ↦ .ret known_nil
        · exact .raiseFault _
      · exact .ret known_nil
    · refine Safe.look.bind fun chain ↦ ?_
      split
      · exact .ret known_nil
      · exact .raiseFault _
  · exact .raiseFault _

theorem typeOf (d : Datum) : Safe t pins needs (Interp.typeOf d) fun _ ↦ [] := by
  unfold Interp.typeOf
  cases d with
  | object id => exact (Safe.object id).bind fun _ ↦ .ret known_nil
  | _ => exact .ret known_nil

theorem addNumbers (left right : Datum) :
    Safe t pins needs (Interp.addNumbers left right) Datum.references := by
  unfold Interp.addNumbers
  split
  · exact .ret (by grind)
  · exact .ret (by grind)
  · exact .raiseFault _
  · exact .raiseFault _
  · exact .ret (by grind)

theorem add (hinvoke : Faithful invoke) {left right : Datum}
    (h : Pinned pins (left.references ++ right.references)) :
    Safe t pins needs (Interp.add invoke left right) Datum.references := by
  unfold Interp.add
  refine (Safe.toPrimitive hinvoke (by grind) .number).bind_of fun left hleft ↦ ?_
  refine (Safe.toPrimitive hinvoke (by grind) .number).bind_of fun right hright ↦ ?_
  obtain ⟨m, hm⟩ := hleft
  obtain ⟨m', hm'⟩ := hright
  have hleft : left.references = [] := Primitive.toPrimitive _ _ _ _ _ hm
  have hright : right.references = [] := Primitive.toPrimitive _ _ _ _ _ hm'
  split
  · refine (Safe.primitiveText _).bind fun a ↦ ?_
    exact (Safe.primitiveText _).bind fun b ↦ .ret (by grind)
  · refine (Safe.primitiveText _).bind fun a ↦ ?_
    exact (Safe.primitiveText _).bind fun b ↦ .ret (by grind)
  · refine (Safe.toNumeric hinvoke (by grind)).bind fun a ↦ ?_
    exact (Safe.toNumeric hinvoke (by grind)).bind fun b ↦ .addNumbers a b

theorem operate (hinvoke : Faithful invoke) {left right : Datum}
    (h : Pinned pins (left.references ++ right.references)) (operator : Operator) :
    Safe t pins needs (Interp.operate invoke operator left right) Datum.references := by
  unfold Interp.operate
  split
  · exact .add hinvoke h
  · exact .ret (by grind)
  · exact .ret (by grind)
  · exact .ret (by grind)
  · exact .ret (by grind)
  · refine (Safe.toNumber hinvoke (by grind)).bind fun a ↦ ?_
    refine (Safe.toNumber hinvoke (by grind)).bind fun b ↦ ?_
    split
    · exact .ret (by grind)
    · exact .ret (by grind)
    · exact .ret (by grind)
    · exact .ret (by grind)

theorem putField (h : Known pins needs d.references) (id : ObjectId) (key : String) (e : Expr) :
    Safe t pins needs (Interp.putField id key e d) fun _ ↦ needs := by
  unfold Interp.putField
  split
  · split
    · exact .setPrototype (by grind) id
    · exact .setPrototype (by grind) id
    · exact .done _
  · have hput : Safe t pins needs (do
        Interp.touch key
        Interp.update id (·.put key ⟨.data d, .plain⟩)) fun _ ↦ needs :=
      Safe.touch_bind (.edit (.put .inr) h id)
    split
    · next function =>
      split
      · exact (Safe.edit (.put (by simp [payloadKey])) (by simp) function).bind fun _ ↦ hput
      · exact hput
    · exact hput

theorem noteLine : Safe t pins needs Interp.noteLine fun _ ↦ needs := .updatePlace _

end Safe

/-! ## Expressions -/

section

variable {invoke : Invoke}

mutual

theorem Safe.eval (hinvoke : Faithful invoke) {t : Prop} {pins : List Datum}
    {needs : List ObjectId} (e : Expr) :
      Safe t pins needs (Interp.eval invoke e) Datum.references :=
  match e with
  | .undefined | .null | .boolean _ | .string _ | .bigint _ => .ret (by grind)
  | .number x => .ret (by grind)
  | .symbol description => (Safe.newSymbol description).giving fun _ ↦ by grind
  | .global name => by
    rw [Interp.eval]
    refine Safe.settling ((Safe.readDeclared hinvoke _).bind fun target ↦ ?_)
    exact (Safe.readOf hinvoke known_self name none).giving fun _ ↦ by grind
  | .reference name => .settling (.readDeclared hinvoke name)
  | .property target key => by
    rw [Interp.eval]
    refine Safe.settling ((Safe.eval hinvoke target).bind fun target ↦ ?_)
    refine Safe.holding (by grind) ?_
    exact (Safe.readOf hinvoke (by grind) key none).giving fun _ ↦ by grind
  | .object fields => by
    rw [Interp.eval]
    refine Safe.settling ((Safe.allocate (.ordinary (by simp))).bind fun id ↦ ?_)
    refine (Safe.holding (by grind) (Safe.evalFields hinvoke (by grind) fields)).bind fun _ ↦ ?_
    exact .ret (by grind)
  | .array elements => by
    rw [Interp.eval]
    refine Safe.settling ((Safe.evalAll hinvoke elements).bind fun ds ↦ ?_)
    exact (Safe.newArray (by grind)).giving fun _ ↦ by grind
  | .function form name source body => by
    rw [Interp.eval]
    exact (Safe.newFunction form name source body).giving fun _ ↦ by grind
  | .derivedClass base => by
    rw [Interp.eval]
    refine Safe.settling ((Safe.readDeclared hinvoke _).bind fun target ↦ ?_)
    refine (Safe.readOf hinvoke known_self base none).bind fun parent ↦ ?_
    exact .newDerivedClass hinvoke base (by grind)
  | .construct callee arguments => by
    rw [Interp.eval]
    refine Safe.settling ((Safe.eval hinvoke callee).bind fun callee ↦ ?_)
    refine Safe.noteLine.bind fun _ ↦ Safe.holding (by grind) ?_
    refine (Safe.evalAll hinvoke arguments).bind fun ds ↦ ?_
    exact .construct hinvoke (by grind)
  | .apply callee arguments => by
    rw [Interp.eval]
    refine Safe.settling ((Safe.eval hinvoke callee).bind fun callee ↦ ?_)
    refine Safe.noteLine.bind fun _ ↦ Safe.holding (by grind) ?_
    refine (Safe.evalAll hinvoke arguments).bind fun ds ↦ ?_
    exact .call hinvoke (by grind)
  | .method receiver key arguments => by
    rw [Interp.eval]
    refine Safe.settling ((Safe.eval hinvoke receiver).bind fun receiver ↦ ?_)
    refine Safe.holding (by grind) ?_
    refine (Safe.readOf hinvoke (by grind) key (some key)).bind fun callee ↦ ?_
    refine Safe.noteLine.bind fun _ ↦ Safe.holding (by grind) ?_
    refine (Safe.evalAll hinvoke arguments).bind fun ds ↦ ?_
    exact .call hinvoke (by grind)
  | .isInstance value constructor => by
    rw [Interp.eval]
    refine Safe.settling ((Safe.eval hinvoke value).bind fun value ↦ ?_)
    refine Safe.noteLine.bind fun _ ↦ Safe.holding (by grind) ?_
    refine (Safe.eval hinvoke constructor).bind fun constructor ↦ ?_
    refine (Safe.holding (by grind) (.isInstance hinvoke (by grind))).bind fun _ ↦ ?_
    exact .ret (by grind)
  | .typeOf value => by
    rw [Interp.eval]
    refine Safe.settling ((Safe.eval hinvoke value).bind fun d ↦ ?_)
    exact (Safe.typeOf d).bind fun _ ↦ .ret (by grind)
  | .typeOfName name => by
    rw [Interp.eval]
    refine Safe.settling ((Safe.readGlobal hinvoke name).bind fun d ↦ ?_)
    exact (Safe.typeOf d).bind fun _ ↦ .ret (by grind)
  | .same left right => by
    rw [Interp.eval]
    refine Safe.settling ((Safe.eval hinvoke left).bind fun left ↦ ?_)
    refine Safe.noteLine.bind fun _ ↦ ?_
    exact (Safe.holding (by grind) (Safe.eval hinvoke right)).bind fun _ ↦ .ret (by grind)
  | .binary operator left right => by
    rw [Interp.eval]
    refine Safe.settling ((Safe.eval hinvoke left).bind fun left ↦ ?_)
    refine Safe.noteLine.bind fun _ ↦ ?_
    have hright : Safe t ([left] ++ pins) left.references (Interp.eval invoke right)
        fun d ↦ d.references ++ left.references :=
      (Safe.eval hinvoke right).giving fun _ ↦ by grind
    refine (Safe.holding (by grind) hright).bind fun right ↦ ?_
    exact Safe.holding (by grind) (.operate hinvoke (by grind) operator)
  | .assign name value => by
    rw [Interp.eval]
    refine Safe.settling ((Safe.eval hinvoke value).bind fun value ↦ ?_)
    refine Safe.get_bind fun m ↦ Safe.look.bind fun isDeclared ↦ ?_
    have hassign : Safe t ([value] ++ pins) value.references (do
        Interp.refuse (← Interp.assign invoke Realm.globalObject name value))
        fun _ ↦ value.references := by
      refine (Safe.assign hinvoke (by grind)).bind fun fault ↦ ?_
      exact (Safe.refuse fault).giving fun _ ↦ by grind
    split
    · exact .raiseFault_bind
    · exact (Safe.holding (by grind) hassign).bind fun _ ↦ .ret (by grind)

theorem Safe.evalAll (hinvoke : Faithful invoke) {t : Prop} {pins : List Datum}
    {needs : List ObjectId} (es : List Expr) :
    Safe t pins needs (Interp.evalAll invoke es) fun ds ↦ ds.flatMap Datum.references :=
  match es with
  | [] => .ret known_nil
  | e :: rest => by
    rw [Interp.evalAll]
    refine (Safe.eval hinvoke e).bind fun d ↦ ?_
    have hrest : Safe t ([d] ++ pins) d.references (Interp.evalAll invoke rest)
        fun ds ↦ ds.flatMap Datum.references ++ d.references :=
      (Safe.evalAll hinvoke rest).giving fun ds ↦ by grind
    exact (Safe.holding (by grind) hrest).bind fun ds ↦ .ret (by grind)

theorem Safe.evalFields (hinvoke : Faithful invoke) {t : Prop} {pins : List Datum}
    {needs : List ObjectId} {id : ObjectId} (h : Pinned pins [id]) (fields : List (String × Expr)) :
    Safe t pins needs (Interp.evalFields invoke id fields) fun _ ↦ [id] :=
  match fields with
  | [] => .ret (by grind)
  | (key, e) :: rest => by
    rw [Interp.evalFields]
    refine (Safe.eval hinvoke e).bind fun d ↦ ?_
    exact (Safe.putField known_self id key e).bind fun _ ↦ Safe.evalFields hinvoke h rest

end

end

/-! ## Statements -/

namespace Safe

variable {t : Prop} {pins : List Datum} {needs : List ObjectId} {invoke : Invoke} {d : Datum}

theorem deleteFrom (h : Known pins needs d.references) (key : String) :
    Safe t pins needs (Interp.deleteFrom d key) fun _ ↦ [] := by
  unfold Interp.deleteFrom
  refine (Safe.toObject d h).bind fun id ↦ ?_
  refine (Safe.delete id key).bind fun gone ↦ ?_
  split
  · exact .ret known_nil
  · exact (Safe.refuse _).bind fun _ ↦ .ret known_nil

theorem checkDefinable (name : String) (isFunction : Bool) :
    Safe t pins needs (Interp.checkDefinable name isFunction) fun _ ↦ [] := by
  unfold Interp.checkDefinable
  refine (Safe.object _).bind fun o ↦ ?_
  dsimp only
  split <;> split
  · exact .ret known_nil
  · exact .raiseFault _
  · exact .ret known_nil
  · exact .raiseFault _

theorem declare (name : String) : Safe t pins needs (Interp.declare name) fun _ ↦ [] := by
  unfold Interp.declare
  refine Safe.touch_bind ((Safe.object _).bind fun o ↦ ?_)
  split
  · exact (Safe.edit (.put .inr) (by simp) _).giving fun _ ↦ known_nil
  · exact .ret known_nil

theorem declareFunction (hinvoke : Faithful invoke) (name : String)
    (h : Known pins needs d.references) :
    Safe t pins needs (Interp.declareFunction invoke name d) fun _ ↦ [] := by
  unfold Interp.declareFunction
  refine Safe.touch_bind (((Safe.object _).giving fun _ ↦ known_append_right).bind fun o ↦ ?_)
  refine .defineOrThrow hinvoke .inr (by grind) ?_
  split
  · simpa [Descriptor.references] using h
  · simpa [Descriptor.references] using h

theorem checkDeclarations (program : Program) :
    Safe t pins needs (Interp.checkDeclarations program) fun _ ↦ [] := by
  fun_induction Interp.checkDeclarations program generalizing needs with
  | case1 => exact .ret known_nil
  | case2 _ name _ rest ih => exact (Safe.checkDefinable name false).bind fun _ ↦ ih
  | case3 _ name _ _ rest ih => exact (Safe.checkDefinable name true).bind fun _ ↦ ih
  | case4 _ rest _ _ ih => exact ih

theorem makeDeclarations (hinvoke : Faithful invoke) (program : Program) :
    Safe t pins needs (Interp.makeDeclarations invoke program) fun _ ↦ [] := by
  fun_induction Interp.makeDeclarations invoke program generalizing needs with
  | case1 => exact .ret known_nil
  | case2 _ name _ rest ih => exact (Safe.declare name).bind fun _ ↦ ih
  | case3 distance name source body rest ih =>
    refine (Safe.updatePlace _).bind fun _ ↦ ?_
    refine (Safe.newFunction _ _ _ _).bind fun function ↦ ?_
    exact (Safe.declareFunction hinvoke name (by grind)).bind fun _ ↦ ih
  | case4 _ rest _ _ ih => exact ih

end Safe

/-- The objects that the end of a statement gives. -/
def Flow.references : Flow → List ObjectId
  | .next value => value.toList.flatMap Datum.references
  | .returned value => value.references

@[simp, grind =]
theorem Flow.references_next {value : Option Datum} :
    (Flow.next value).references = value.toList.flatMap Datum.references :=
  rfl

@[simp, grind =]
theorem Flow.references_returned {value : Datum} :
    (Flow.returned value).references = value.references :=
  rfl

namespace Safe

variable {t : Prop} {pins : List Datum} {needs : List ObjectId} {invoke : Invoke}
  {newTarget : Option ObjectId}

theorem exec (hinvoke : Faithful invoke) (statement : Statement) :
    Safe t pins needs (Interp.exec invoke statement) Flow.references := by
  cases statement with
  | expression value => exact (Safe.eval hinvoke value).bind fun d ↦ .ret (by grind)
  | perform value => exact (Safe.eval hinvoke value).bind fun d ↦ .ret (by grind)
  | setProperty target key value =>
    rw [Interp.exec]
    refine (Safe.eval hinvoke target).bind fun target ↦ ?_
    have hvalue : Safe t ([target] ++ pins) target.references (Interp.eval invoke value)
        fun d ↦ d.references ++ target.references :=
      (Safe.eval hinvoke value).giving fun _ ↦ by grind
    refine (Safe.holding (by grind) hvalue).bind fun value ↦ ?_
    have hassign : Safe t ([target, value] ++ pins) (value.references ++ target.references) (do
        Interp.refuse (← Interp.assignOf invoke target key value)) fun _ ↦ value.references := by
      refine (Safe.assignOf hinvoke (by grind)).bind fun fault ↦ ?_
      exact (Safe.refuse fault).giving fun _ ↦ by grind
    exact (Safe.holding (by grind) hassign).bind fun _ ↦ .ret (by grind)
  | deleteProperty target key =>
    rw [Interp.exec]
    refine (Safe.eval hinvoke target).bind fun target ↦ ?_
    exact (Safe.holding (by grind) (.deleteFrom (by grind) key)).bind fun _ ↦ .ret (by grind)
  | «throw» value => exact (Safe.eval hinvoke value).bind fun d ↦ .raiseDatum known_self
  | «return» value => exact (Safe.eval hinvoke value).bind fun d ↦ .ret (by grind)
  | attempt value =>
    have hafter (caught : Datum) : Safe t pins caught.references (do
        Interp.holding [caught] do
          Interp.refuse
            (← Interp.assignOf invoke (← Interp.globalThis invoke) "caught" caught)
        return Flow.next (some caught)) Flow.references := by
      have hassign : Safe t ([caught] ++ pins) caught.references (do
          Interp.refuse (← Interp.assignOf invoke (← Interp.globalThis invoke) "caught" caught))
          fun _ ↦ caught.references := by
        refine (Safe.readDeclared hinvoke _).bind fun target ↦ ?_
        refine (Safe.assignOf hinvoke (by grind)).bind fun fault ↦ ?_
        exact (Safe.refuse fault).giving fun _ ↦ by grind
      exact (Safe.holding (by grind) hassign).bind fun _ ↦ .ret (by grind)
    rw [Interp.exec]
    refine Safe.trying_bind (Safe.eval hinvoke value) (fun _ ↦ (hafter _).needing (by simp)) rfl
      fun thrown ↦ ?_
    have hthrown : Known pins (thrown.toList.flatMap Datum.references)
        (thrown.getD .undefined).references := by cases thrown <;> simp
    generalize thrown.getD .undefined = thrown at hthrown ⊢
    have hcall : Safe t ([thrown] ++ pins) thrown.references (do
        Interp.call invoke (← Interp.readDeclared invoke "String") .undefined [thrown])
        Datum.references := by
      refine (Safe.readDeclared hinvoke "String").bind fun callee ↦ ?_
      exact .call hinvoke (by grind)
    exact ((Safe.holding (by grind) hcall).bind hafter).needing hthrown
  | declare name value =>
    cases value with
    | none => exact .ret (by grind)
    | some value =>
      rw [Interp.exec]
      refine (Safe.eval hinvoke value).bind fun value ↦ ?_
      refine (Safe.holding (by grind) (.assign hinvoke (by grind))).bind fun fault ↦ ?_
      exact (Safe.refuse fault).bind fun _ ↦ .ret (by grind)
  | declareFunction => exact .ret (by grind)
  | empty => exact .ret (by grind)

theorem enterStatement (distance : Nat) (statement : Statement) :
    Safe t pins needs (Interp.enterStatement distance statement) fun _ ↦ needs := by
  unfold Interp.enterStatement
  refine (Safe.updatePlace _).bind fun _ ↦ ?_
  split
  · exact .noteLine
  · exact .done _

theorem runBody (hinvoke : Faithful invoke) (body : Program) :
    Safe t pins needs (Interp.runBody invoke body) Datum.references := by
  induction body generalizing needs with
  | nil => exact .ret (by grind)
  | cons entry rest ih =>
    obtain ⟨distance, statement⟩ := entry
    rw [Interp.runBody]
    refine (Safe.enterStatement distance statement).bind fun _ ↦ ?_
    refine (Safe.exec hinvoke statement).bind fun flow ↦ ?_
    split
    · exact .ret (by grind)
    · exact ih

theorem callCode (hinvoke : Faithful invoke) (frame : Frame) (body : Program)
    (h : Known pins needs newTarget.toList) :
    Safe t pins needs (Interp.callCode invoke frame body newTarget) Datum.references := by
  unfold Interp.callCode
  split
  · exact .inFrame (.runBody hinvoke body)
  · next target =>
    refine (Safe.prototypeFor hinvoke h (by grind)).bind fun prototype ↦ ?_
    refine (Safe.allocate (.ordinary (by grind))).bind fun made ↦ ?_
    refine Safe.holding (by grind) ?_
    refine (Safe.inFrame (.runBody hinvoke body)).bind fun d ↦ ?_
    split
    · exact .ret (by grind)
    · exact .ret (by grind)

theorem callDerived (hinvoke : Faithful invoke) (id : ObjectId) (frame : Frame)
    {arguments : List Datum} (h : Pinned pins (arguments.flatMap Datum.references ++
      newTarget.toList)) :
    Safe t pins needs (Interp.callDerived invoke id frame arguments newTarget)
      Datum.references := by
  unfold Interp.callDerived
  refine .inFrame ((Safe.object id).bind fun o ↦ ?_)
  split
  · exact .raiseFault _
  · next target parent hparent =>
    refine (Safe.isConstructor parent).bind fun isConstructor ↦ ?_
    split
    · have hshown : parent ∈ o.shown := Object.mem_shown.mpr (.inl hparent)
      exact (hinvoke (by grind)).giving fun _ ↦ by grind
    · exact .raiseFault _
  · exact .raiseFault _

end Safe

/-- Calls that nest only so deep are safe. -/
theorem faithful_invokeWithin (depth : Nat) : Faithful (Interp.invokeWithin depth) := by
  induction depth with
  | zero => exact fun _ ↦ .raiseFault _
  | succ depth ih =>
    intro t pins needs id this arguments newTarget h
    rw [Interp.invokeWithin]
    have hheld : Known pins needs ((Datum.object id :: this :: arguments ++
        (newTarget.map Datum.object).toList).flatMap Datum.references) := by
      cases newTarget <;> grind
    have hinputs : Pinned (Datum.object id :: this :: arguments ++
        (newTarget.map Datum.object).toList ++ pins) (inputs id this arguments newTarget) := by
      cases newTarget <;> grind
    refine Safe.holding hheld ?_
    generalize Datum.object id :: this :: arguments ++ (newTarget.map Datum.object).toList ++ pins =
      pins at hinputs ⊢
    refine (Safe.object id).bind fun o ↦ ?_
    split
    · exact .raiseFault _
    · next which hwhich =>
      have hshown : Known pins (o.shown ++ needs) (Kind.function (.intrinsic which)).references :=
        fun x hx ↦ .inl (List.mem_append_left _ (Object.mem_shown_of_callable? hwhich hx))
      have hrun : Safe t pins (o.shown ++ needs)
          (Interp.runIntrinsic (Interp.invokeWithin depth) which this arguments newTarget)
          fun d ↦ d.references ++ inputs id this arguments newTarget :=
        (Safe.runIntrinsic ih hshown (by grind)).giving fun _ ↦ by grind
      dsimp only
      split
      · exact .inFrame hrun
      · exact hrun
    · next spec _ =>
      exact (Safe.constructNative ih spec (by grind) (by grind)).giving fun _ ↦ by grind
    · exact (Safe.callCode ih _ _ (by grind)).giving fun _ ↦ by grind
    · exact (Safe.callDerived ih id _ (by grind)).giving fun _ ↦ by grind

theorem faithful_invoke : Faithful Interp.invoke := faithful_invokeWithin Interp.callDepth

namespace Safe

variable {t : Prop} {pins : List Datum} {needs : List ObjectId} {d : Datum}

theorem retain (h : Known pins needs d.references) :
    Safe t pins needs (modify fun m ↦ { m with retained := d } : Interp Unit) fun _ ↦ needs := by
  intro m hm _ hpins hneeds
  refine ⟨{ Evolves.refl m with }, ?_, .of_eq rfl rfl, fun _ _ ↦ hneeds⟩
  refine hm.withHeld rfl rfl rfl rfl rfl rfl fun {d id} hd hid ↦ ?_
  rcases mem_held.mp hd with rfl | hd | hd | hd
  · exact .inr (h.offers hm hpins hneeds id hid)
  · exact .inl (mem_held.mpr (.inr (.inl hd)))
  · exact .inl (mem_held.mpr (.inr (.inr (.inl hd))))
  · exact .inl (mem_held.mpr (.inr (.inr (.inr hd))))

theorem retained : Safe t pins needs (do return (← get).retained) Datum.references := by
  intro m hm _ _ _
  refine ⟨.refl m, hm, .refl m, fun d hd id hid ↦
    hm.roots (mem_roots.mpr (.inr (.inr ⟨d, ?_, hid⟩)))⟩
  cases hd
  exact mem_held.mpr (.inl rfl)

theorem settle : Safe t pins needs (modify (Machine.settle []) : Interp Unit) fun _ ↦ [] := by
  intro m hm _ _ _
  obtain ⟨hsound, hevolves, -⟩ := hm.settle []
  exact ⟨hevolves, hsound, (Accounts.refl m).settle [], fun _ _ ↦ List.forall_mem_nil _⟩

theorem runStatements (program : Program) :
    Safe t pins needs (Interp.runStatements program) fun _ ↦ [] := by
  induction program generalizing needs with
  | nil => exact .ret known_nil
  | cons entry rest ih =>
    obtain ⟨distance, statement⟩ := entry
    rw [Interp.runStatements]
    refine (Safe.enterStatement distance statement).bind fun _ ↦ ?_
    refine (Safe.exec faithful_invoke statement).bind fun flow ↦ ?_
    have hrest : Safe t pins flow.references (do
        modify (Machine.settle [])
        Interp.runStatements rest) fun _ ↦ [] :=
      Safe.settle.bind fun _ ↦ ih
    split
    · exact hrest
    · exact (Safe.retain (by grind)).bind fun _ ↦ hrest
    · exact (Safe.retain (by grind)).bind fun _ ↦ hrest

theorem runProgram (file : String) (program : Program) :
    Safe t pins needs (Interp.runProgram file program) Datum.references := by
  unfold Interp.runProgram
  refine .inFrame ?_
  refine (Safe.checkDeclarations program).bind fun _ ↦ ?_
  refine (Safe.makeDeclarations faithful_invoke program).bind fun _ ↦ ?_
  refine (Safe.runStatements program).bind fun _ ↦ ?_
  split
  · exact .retained
  · exact .ret (by grind)

end Safe

end ScriptBridge.Script
