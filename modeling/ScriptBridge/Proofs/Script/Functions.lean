import ScriptBridge.Proofs.Script.Constructing
import ScriptBridge.Script.Intrinsics

/-!
# The functions that every script finds are safe

Whatever such a function is applied to is pinned while it runs, so that it can be counted on
throughout.
-/

namespace ScriptBridge.Script.Safe

open Machine

variable {t : Prop} {pins : List Datum} {needs : List ObjectId} {id : ObjectId}
  {d : Datum} {invoke : Invoke} {arguments : List Datum} {newTarget : Option ObjectId}

theorem toStrings (hinvoke : Faithful invoke)
    (h : Pinned pins (arguments.flatMap Datum.references)) :
    Safe t pins needs (Interp.toStrings invoke arguments) fun _ ↦ [] := by
  induction arguments generalizing needs with
  | nil => exact .ret known_nil
  | cons d rest ih =>
    rw [Interp.toStrings]
    refine (Safe.toText hinvoke (by grind)).bind fun text ↦ ?_
    split
    · exact .raiseError _ _
    · exact (ih (by grind)).bind fun _ ↦ .ret known_nil

theorem objectText (h : Known pins needs d.references) :
    Safe t pins needs (Interp.objectText d) Datum.references := by
  unfold Interp.objectText
  dsimp only
  split
  · exact .ret (by grind)
  · exact .ret (by grind)
  · refine (Safe.toObject d h).bind fun id ↦ ?_
    exact Safe.get_bind fun m ↦ .ret (by grind)

theorem textAt (hinvoke : Faithful invoke) (h : Known pins needs [id]) (key : String)
    (absent : Text.Units) : Safe t pins needs (Interp.textAt invoke id key absent) fun _ ↦ [] := by
  unfold Interp.textAt
  refine (Safe.read hinvoke h key).bind fun d ↦ ?_
  split
  · exact .ret known_nil
  · exact (Safe.toText hinvoke (by grind)).giving fun _ ↦ known_nil

theorem sourceText (hinvoke : Faithful invoke) (h : Known pins needs [id]) (callable : Callable) :
    Safe t pins needs (Interp.sourceText invoke id callable) Datum.references := by
  unfold Interp.sourceText
  split
  · exact .ret (by grind)
  · exact .ret (by grind)
  · exact (Safe.textAt hinvoke h "name" _).bind fun _ ↦ .ret (by grind)
  · exact (Safe.textAt hinvoke h "name" _).bind fun _ ↦ .ret (by grind)

theorem errorText (hinvoke : Faithful invoke) (h : Pinned pins [id]) :
    Safe t pins needs (Interp.errorText invoke id) Datum.references := by
  unfold Interp.errorText
  refine (Safe.textAt hinvoke h.known "name" _).bind fun name ↦ ?_
  refine (Safe.textAt hinvoke h.known "message" _).bind fun message ↦ ?_
  split
  · exact .ret (by grind)
  · split
    · exact .ret (by grind)
    · exact .ret (by grind)

theorem messageOf (hinvoke : Faithful invoke) (h : Known pins needs d.references) :
    Safe t pins needs (Interp.messageOf invoke d) fun _ ↦ [] := by
  unfold Interp.messageOf
  split
  · exact .ret known_nil
  · exact (Safe.toText hinvoke h).map fun _ ↦ known_nil

theorem addCause (hinvoke : Faithful invoke) (h : Known pins needs d.references) (id : ObjectId) :
    Safe t pins needs (Interp.addCause invoke id d) fun _ ↦ [] := by
  unfold Interp.addCause
  split
  · refine (Safe.field hinvoke h "cause").bind fun cause ↦ ?_
    split
    · exact (Safe.edit (.put (by simp [payloadKey])) (by grind) id).giving fun _ ↦ known_nil
    · exact .ret known_nil
  · exact .ret known_nil

theorem makeError (hinvoke : Faithful invoke) {prototype : ObjectId} {message options : Datum}
    (h : Known pins needs (prototype :: newTarget.toList))
    (hmessage : Pinned pins message.references) (hoptions : Pinned pins options.references) :
    Safe t pins needs (Interp.makeError invoke prototype newTarget message options)
      Datum.references := by
  unfold Interp.makeError
  refine (Safe.holding (by grind) (.prototypeFor hinvoke (by grind) (by grind))).bind
    fun prototype ↦ ?_
  have hheld : Safe t ([.object prototype] ++ pins) [prototype] (Interp.messageOf invoke message)
      fun _ ↦ [prototype] :=
    (Safe.messageOf hinvoke (by grind)).giving fun _ ↦ by grind
  refine (Safe.holding (by grind) hheld).bind fun message ↦ ?_
  refine (Safe.allocate (placeable_errorObject message (by grind))).bind fun id ↦ ?_
  refine Safe.holding (by grind) ?_
  refine (Safe.addCause hinvoke (by grind) id).bind fun _ ↦ ?_
  refine Safe.get_bind fun m ↦ ?_
  exact (Safe.addStack id _).bind fun _ ↦ .ret (by grind)

theorem newSymbol (description : Option Text.Units) :
    Safe t pins needs (Interp.newSymbol description) fun d ↦ d.references ++ needs := by
  intro m hm _ _ hneeds
  refine ⟨{ Evolves.refl m with }, ?_, .of_eq rfl rfl, fun d hd ↦ ?_⟩
  · exact hm.withHeld rfl rfl rfl rfl rfl rfl fun hd _ ↦ .inl hd
  · cases hd
    exact hneeds

theorem primitiveOf (hinvoke : Faithful invoke) (type : PrimitiveType) (isPlainCall : Bool)
    (h : Known pins needs (arguments.flatMap Datum.references)) :
    Safe t pins needs (Interp.primitiveOf invoke type isPlainCall arguments) Datum.references := by
  have hhead : Known pins needs (arguments.headD .undefined).references := by
    cases arguments <;> grind
  unfold Interp.primitiveOf
  split
  · exact .ret (by grind)
  · split
    · exact .ret (by grind)
    · exact (Safe.toText hinvoke (by grind)).bind fun _ ↦ .ret (by grind)
  · exact (Safe.toText hinvoke (by grind)).bind fun _ ↦ .ret (by grind)
  · exact .ret (by grind)
  · refine (Safe.toNumeric hinvoke (by grind)).bind fun number ↦ ?_
    split
    · exact .ret (by grind)
    · exact .ret (by grind)
  · exact .ret (by grind)
  · split
    · exact (Safe.newSymbol _).giving fun _ ↦ by grind
    · exact (Safe.toText hinvoke hhead).bind fun _ ↦ (Safe.newSymbol _).giving fun _ ↦ by grind
  · refine (Safe.toPrimitive hinvoke hhead .number).bind fun d ↦ ?_
    exact (Safe.orRaise _).bind fun n ↦ .ret (by grind)

theorem primitive_primitiveOf (invoke : Invoke) (type : PrimitiveType) (isPlainCall : Bool)
    (arguments : List Datum) :
    Primitive (Interp.primitiveOf invoke type isPlainCall arguments) := by
  unfold Interp.primitiveOf
  split
  · exact .ret rfl
  · split
    · exact .ret rfl
    · exact .bind fun _ ↦ .ret rfl
  · exact .bind fun _ ↦ .ret rfl
  · exact .ret rfl
  · refine .bind_of (.toNumeric invoke _) fun number hnumber ↦ ?_
    split
    · exact .ret (Datum.references_ofInt _)
    · exact .ret hnumber
  · exact .ret rfl
  · split
    · exact .bind fun _ ↦ .ret rfl
    · exact .bind fun _ ↦ .bind fun _ ↦ .ret rfl
  · exact .bind fun _ ↦ .bind fun _ ↦ .ret rfl

theorem makePrimitive (hinvoke : Faithful invoke) (type : PrimitiveType)
    (h : Pinned pins (arguments.flatMap Datum.references ++ newTarget.toList)) :
    Safe t pins needs (Interp.makePrimitive invoke type newTarget arguments) Datum.references := by
  unfold Interp.makePrimitive
  split
  · exact .primitiveOf hinvoke type true (by grind)
  · dsimp only
    split
    · exact .raiseFault_bind
    · refine (Safe.primitiveOf hinvoke type false (by grind)).bind_of fun value hvalue ↦ ?_
      obtain ⟨m, hm⟩ := hvalue
      refine (Safe.prototypeFor hinvoke (by grind) (by grind)).bind fun prototype ↦ ?_
      refine (Safe.allocate ?_).bind fun id ↦ .ret (by grind)
      exact placeable_wrapperObject (by grind) (primitive_primitiveOf _ _ _ _ _ _ hm)

/-- A primitive value is no object, wherever it was found. -/
theorem thisPrimitive (type : PrimitiveType) (d : Datum) :
    Safe t pins needs (Interp.thisPrimitive type d) Datum.references := by
  have hresult (value : Datum) {needs : List ObjectId} : Safe t pins needs (do
      if value.primitiveType? = some type then return value
      else Interp.raiseFault (.notOfType type)) Datum.references := by
    split
    · next htype =>
      refine .ret ?_
      rw [Datum.references_of_primitiveType? htype]
      exact known_nil
    · exact .raiseFault _
  unfold Interp.thisPrimitive
  split
  · refine (Safe.object _).bind fun o ↦ ?_
    split
    · exact hresult _
    · rw [pure_bind]
      exact hresult _
  · exact hresult _

theorem prototypeOf (h : Known pins needs d.references) :
    Safe t pins needs (Interp.prototypeOf d) Datum.references := by
  unfold Interp.prototypeOf
  split
  · next id =>
    refine (Safe.object id).bind fun o ↦ .ret ?_
    cases hprototype : o.prototype with
    | none => simp
    | some prototype =>
      have hshown : prototype ∈ o.shown := Object.mem_shown.mpr (.inl hprototype)
      simp [hshown]
  · split
    · exact .ret (by grind)
    · exact .raiseFault _

theorem makeFunction (hinvoke : Faithful invoke)
    (h : Pinned pins (arguments.flatMap Datum.references ++ newTarget.toList)) :
    Safe t pins needs (Interp.makeFunction invoke newTarget arguments) Datum.references := by
  unfold Interp.makeFunction
  refine (Safe.toStrings hinvoke (by grind)).bind fun texts ↦ ?_
  refine (Safe.compileFunction _ _).bind fun made ↦ ?_
  split
  · next id =>
    have hchange : Safe t ([.object id] ++ pins) ((Datum.object id).references ++ []) (do
        Interp.setPrototype id
          (some (← Interp.prototypeFor invoke newTarget Realm.functionPrototype)))
        fun _ ↦ [id] := by
      refine (Safe.prototypeFor hinvoke (by grind) (by grind)).bind fun prototype ↦ ?_
      exact (Safe.setPrototype (by grind) id).giving fun _ ↦ by grind
    exact (Safe.holding (by grind) hchange).bind fun _ ↦ .ret (by grind)
  · exact .ret (by grind)

/-- Those of some values that are functions. -/
theorem functions {ds : List Datum} (h : Known pins needs (ds.flatMap Datum.references)) :
    Safe t pins needs (ds.filterMapM Interp.function?) fun ids ↦ ids := by
  suffices hloop : ∀ (ds : List Datum) (found : List ObjectId),
      Known pins needs (ds.flatMap Datum.references) → Known pins needs found →
        Safe t pins needs (List.filterMapM.loop Interp.function? ds found) fun ids ↦ ids from
    hloop ds [] h known_nil
  intro ds
  induction ds with
  | nil => exact fun found _ hfound ↦ .ret (by grind)
  | cons d ds ih =>
    intro found hds hfound
    rw [List.filterMapM.loop]
    refine Safe.function_bind ?_ fun id hid ↦ ?_
    · exact ih found (by grind) hfound
    · exact ih (id :: found) (by grind) (by grind)

theorem forceCollection :
    Safe t pins needs (modify Machine.force : Interp Unit) fun _ ↦ [] := by
  intro m hm _ _ _
  obtain ⟨hsound, hevolves⟩ := hm.sweep
  refine ⟨hevolves.trans { Evolves.refl m.sweep with counts := ⟨1, rfl, rfl⟩ }, ?_,
    (Accounts.sweep m).trans (.of_eq rfl rfl), ?_⟩
  · exact hsound.withHeld rfl rfl rfl rfl rfl rfl fun hd _ ↦ .inl hd
  · exact fun _ _ ↦ List.forall_mem_nil _

theorem runIntrinsic (hinvoke : Faithful invoke) {which : Intrinsic} {this : Datum}
    (hwhich : Known pins needs (Kind.function (.intrinsic which)).references)
    (h : Pinned pins (this.references ++ (arguments.flatMap Datum.references ++
      newTarget.toList))) :
    Safe t pins needs (Interp.runIntrinsic invoke which this arguments newTarget)
      Datum.references := by
  have hthis : Pinned pins this.references := by grind
  have harguments : Pinned pins (arguments.flatMap Datum.references) := by grind
  have htarget : Pinned pins newTarget.toList := by grind
  have hargument (i : Nat) : Pinned pins (arguments.getD i .undefined).references := by
    rw [List.getD_eq_getElem?_getD]
    cases hd : arguments[i]? with
    | none => exact fun _ h ↦ by cases h
    | some d =>
      have hmem : d ∈ arguments := List.mem_of_getElem? hd
      exact fun x hx ↦ harguments x (List.mem_flatMap.mpr ⟨d, hmem, hx⟩)
  have hfirst := hargument 0
  have hsecond := hargument 1
  have hthird := hargument 2
  unfold Interp.runIntrinsic
  dsimp only
  cases which with
  | ignore => exact .ret (by grind)
  | objectConstructor =>
    dsimp only
    split
    · exact (Safe.toObject _ hfirst.known).bind fun id ↦ .ret (by grind)
    · refine (Safe.prototypeFor hinvoke htarget.known (by grind)).bind fun prototype ↦ ?_
      exact (Safe.allocate (.ordinary (by grind))).bind fun id ↦ .ret (by grind)
  | objectKeys =>
    refine (Safe.toObject _ hfirst.known).bind fun id ↦ ?_
    refine (Safe.settleProperty (by grind) (by simp [payloadKey])).bind fun _ ↦ ?_
    refine (Safe.object id).bind fun o ↦ ?_
    have hkeys : (o.enumerableKeys.map Datum.text).flatMap Datum.references = [] := by
      simp [List.flatMap_map]
    exact (Safe.newArray (hkeys ▸ known_nil)).giving fun _ ↦ by grind
  | objectGetPrototypeOf => exact .prototypeOf hfirst.known
  | objectFreeze =>
    dsimp only
    split
    · exact (Safe.freeze (by grind)).bind fun _ ↦ .ret (by grind)
    · exact .ret hfirst.known
  | objectDefineProperty =>
    dsimp only
    split
    · next id =>
      refine (Safe.toKey hinvoke hsecond.known).bind fun key ↦ ?_
      split
      · next description =>
        refine (Safe.toDescriptor hinvoke (by grind)).bind fun descriptor ↦ ?_
        refine Safe.touch_bind ?_
        refine (Safe.defineOrThrow hinvoke .inr (by grind) known_self).bind fun _ ↦ ?_
        exact .ret (by grind)
      · exact .raiseFault _
    · exact .raiseFault _
  | objectToString => exact .objectText hthis.known
  | objectValueOf => exact (Safe.toObject this hthis.known).bind fun id ↦ .ret (by grind)
  | prototypeGetter =>
    exact (Safe.toObject this hthis.known).bind fun id ↦ .prototypeOf (by grind)
  | prototypeSetter =>
    dsimp only
    split
    · exact .raiseFault_bind
    · split
      · exact (Safe.setPrototype (by grind) _).bind fun _ ↦ .ret (by grind)
      · exact (Safe.setPrototype (by grind) _).bind fun _ ↦ .ret (by grind)
      · exact .ret (by grind)
  | functionConstructor => exact .makeFunction hinvoke (by grind)
  | functionToString =>
    dsimp only
    split
    · next id =>
      refine (Safe.object id).bind fun o ↦ ?_
      split
      · exact .sourceText hinvoke (by grind) _
      · exact .raiseFault _
    · exact .raiseFault _
  | arrayConstructor => exact .makeArray hinvoke htarget.known harguments
  | arrayJoin =>
    refine (Safe.toObject this hthis.known).bind fun id ↦ ?_
    refine (Safe.holding (by grind) (.joinElements hinvoke (by grind) (by grind))).bind fun _ ↦ ?_
    exact .ret (by grind)
  | arrayToString =>
    refine (Safe.toObject this hthis.known).bind fun id ↦ ?_
    refine Safe.holding (by grind) ?_
    refine (Safe.read hinvoke (by grind) "join").bind fun d ↦ ?_
    refine Safe.function_bind ?_ fun join hjoin ↦ ?_
    · exact .objectText (by grind)
    · exact (hinvoke (by grind)).giving fun _ ↦ by grind
  | errorConstructor prototype =>
      exact .makeError hinvoke (by grind [Kind.references]) hfirst hsecond
  | errorToString =>
    dsimp only
    split
    · exact .errorText hinvoke hthis
    · exact .raiseFault _
  | primitiveConstructor type => exact .makePrimitive hinvoke type (by grind)
  | primitiveToString type =>
    refine (Safe.thisPrimitive type this).bind fun value ↦ ?_
    split
    · exact .ret (by grind)
    · exact (Safe.primitiveText _).bind fun _ ↦ .ret (by grind)
  | primitiveValueOf type => exact .thisPrimitive type this
  | symbolDescription =>
    refine (Safe.thisPrimitive .symbol this).bind fun value ↦ ?_
    split
    · exact .ret (by grind)
    · exact .ret (by grind)
  | promiseConstructor => exact .makePromise hinvoke htarget.known hfirst
  | promiseReject =>
    dsimp only
    split
    · exact .makeRejected hinvoke (by grind) hfirst
    · exact .raiseFault _
  | promiseThen =>
    have hhandlers : Known pins needs
        ([arguments.getD 0 .undefined, arguments.getD 1 .undefined].flatMap Datum.references) := by
      grind
    refine (Safe.functions hhandlers).bind fun handlers ↦ ?_
    refine .handlePromise ?_
    rw [List.flatMap_map]
    exact fun x hx ↦ .inl (by simpa using hx)
  | promiseCatch =>
    refine (Safe.readOf hinvoke hthis.known "then" _).bind fun d ↦ ?_
    refine Safe.function_bind (.raiseFault _) fun next hnext ↦ ?_
    exact (hinvoke (by grind)).giving fun _ ↦ by grind
  | reflectApply =>
    refine Safe.function_bind ?_ fun id hid ↦ ?_
    · exact .raiseFault _
    · split
      · cases ‹some _ = none›
      · refine (Safe.argumentsOf hinvoke (by grind)).bind fun elements ↦ ?_
        exact (hinvoke (by grind)).giving fun _ ↦ by grind
      · exact .raiseFault _
  | log =>
    refine (Safe.toStrings hinvoke harguments).bind fun texts ↦ ?_
    exact (Safe.emit rfl fun _ ↦ rfl).bind fun _ ↦ .ret (by grind)
  | forceCollection => exact Safe.forceCollection.bind fun _ ↦ .ret (by grind)

end ScriptBridge.Script.Safe
