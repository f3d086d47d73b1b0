import ScriptBridge.Proofs.Script.Writing
import ScriptBridge.Script.Compilation
import ScriptBridge.Script.Promises

/-!
# Making objects

Arrays, functions and promises are made of what is known, and a diagnosis of a thrown value leaves
nothing behind.
-/

namespace ScriptBridge.Script.Safe

open Machine

variable {α : Type} {t : Prop} {pins : List Datum} {needs : List ObjectId} {id prototype : ObjectId}
  {key : String} {d : Datum} {invoke : Invoke} {gives : α → List ObjectId} {elements : List Datum}

/-! ## Arrays -/

theorem allocateArray (hprototype : Known pins needs [prototype])
    (helements : Known pins needs (elements.flatMap Datum.references)) :
    Safe t pins needs (Interp.allocateArray prototype elements) fun id ↦ id :: needs := by
  unfold Interp.allocateArray
  apply Safe.allocate
  have hempty : Placeable pins needs (.empty .array (some prototype)) :=
    .empty hprototype known_nil rfl rfl
  refine hempty.withEntries fun entry hentry ↦ ?_
  rcases List.mem_append.mp hentry with hentry | hentry
  · rw [List.mem_singleton.mp hentry]
    exact ⟨by simp [payloadKey], by simp⟩
  · obtain ⟨i, hi, rfl⟩ := List.mem_mapIdx.mp hentry
    refine ⟨toString_ne_payloadKey i, fun x hx ↦ helements x ?_⟩
    exact List.mem_flatMap.mpr ⟨elements[i], List.getElem_mem hi, hx⟩

theorem newArray (helements : Known pins needs (elements.flatMap Datum.references)) :
    Safe t pins needs (Interp.newArray elements) fun d ↦ d.references ++ needs :=
  (Safe.allocateArray (by grind) helements).map fun _ ↦ by grind

theorem lengthOf (hinvoke : Faithful invoke) (h : Known pins needs [id]) :
    Safe t pins needs (Interp.lengthOf invoke id) fun _ ↦ [] := by
  unfold Interp.lengthOf
  refine (Safe.read hinvoke h "length").bind fun d ↦ ?_
  refine (Safe.toNumber hinvoke (by grind)).bind fun x ↦ ?_
  split
  · exact .ret known_nil
  · exact .ret known_nil

theorem elementsAt (hinvoke : Faithful invoke) (h : Pinned pins [id]) (indices : List Nat) :
    Safe t pins needs (Interp.elementsAt invoke id indices)
      fun ds ↦ ds.flatMap Datum.references := by
  induction indices generalizing pins needs with
  | nil => exact .ret known_nil
  | cons i indices ih =>
    rw [Interp.elementsAt]
    refine (Safe.read hinvoke h.known (toString i)).bind fun d ↦ ?_
    have hrest : Safe t ([d] ++ pins) (d.references ++ [id])
        (Interp.elementsAt invoke id indices)
        fun ds ↦ ds.flatMap Datum.references ++ d.references :=
      (ih (by grind)).giving fun ds ↦ by grind
    exact (Safe.holding (by grind) hrest).bind fun ds ↦ .ret (by grind)

theorem argumentsOf (hinvoke : Faithful invoke) (h : Pinned pins [id]) :
    Safe t pins needs (Interp.argumentsOf invoke id) fun ds ↦ ds.flatMap Datum.references := by
  unfold Interp.argumentsOf
  refine (Safe.lengthOf hinvoke h.known).bind fun n ↦ ?_
  dsimp only
  split
  · exact .raiseFault_bind
  · exact .elementsAt hinvoke h _

theorem elementTexts (hinvoke : Faithful invoke) (h : Pinned pins [id]) (indices : List Nat) :
    Safe t pins needs (Interp.elementTexts invoke id indices) fun _ ↦ [] := by
  induction indices generalizing needs with
  | nil => exact .ret known_nil
  | cons i indices ih =>
    rw [Interp.elementTexts]
    refine (Safe.read hinvoke h.known (toString i)).bind fun d ↦ ?_
    dsimp only
    split
    · exact ih.bind fun _ ↦ .ret known_nil
    · refine (Safe.holding (by grind) (.toText hinvoke (by grind))).bind fun _ ↦ ?_
      exact ih.bind fun _ ↦ .ret known_nil

theorem joinElements (hinvoke : Faithful invoke) (h : Pinned pins [id]) {separator : Datum}
    (hseparator : Pinned pins separator.references) :
    Safe t pins needs (Interp.joinElements invoke id separator) fun _ ↦ [] := by
  have hjoined (separator : Text.Units) (n : Nat) {needs : List ObjectId} : Safe t pins needs (do
      if Interp.longestText < (n - 1) * separator.length then Interp.raiseFault .textTooLong
      return separator.intercalate (← Interp.elementTexts invoke id (List.range n)))
      fun _ ↦ [] := by
    dsimp only
    split
    · exact .raiseFault_bind
    · exact (Safe.elementTexts hinvoke h _).bind fun _ ↦ .ret known_nil
  unfold Interp.joinElements
  refine (Safe.lengthOf hinvoke h.known).bind fun n ↦ ?_
  dsimp only
  split
  · exact hjoined _ n
  · exact (Safe.toText hinvoke hseparator.known).bind fun text ↦ hjoined text n

theorem prototypeFor (hinvoke : Faithful invoke) {newTarget : Option ObjectId} {usual : ObjectId}
    (h : Known pins needs newTarget.toList) (husual : Pinned pins [usual]) :
    Safe t pins needs (Interp.prototypeFor invoke newTarget usual) fun id ↦ [id] := by
  unfold Interp.prototypeFor
  split
  · exact .ret husual.known
  · next target =>
    refine (Safe.read hinvoke (by grind) "prototype").bind fun d ↦ ?_
    split
    · exact .ret (by grind)
    · exact .ret husual.known

theorem makeArray (hinvoke : Faithful invoke) {newTarget : Option ObjectId} {arguments : List Datum}
    (h : Known pins needs newTarget.toList)
    (harguments : Pinned pins (arguments.flatMap Datum.references)) :
    Safe t pins needs (Interp.makeArray invoke newTarget arguments) Datum.references := by
  unfold Interp.makeArray
  refine (Safe.prototypeFor hinvoke h (by grind)).bind fun prototype ↦ ?_
  split
  · next length =>
    split
    · refine (Safe.allocateArray (by grind) (by grind)).bind fun id ↦ ?_
      have hassign : Safe t ([.object id] ++ pins) (id :: [prototype])
          (Interp.assignLength invoke id length) fun _ ↦ [id] :=
        (Safe.assignLength hinvoke (by grind) id).giving fun _ ↦ by grind
      refine (Safe.holding (by grind) hassign).bind fun fault ↦ ?_
      split
      · exact .raiseFault_bind
      · exact .ret (by grind)
    · exact (Safe.allocateArray (by grind) harguments.known).bind fun id ↦ .ret (by grind)
  · exact (Safe.allocateArray (by grind) harguments.known).bind fun id ↦ .ret (by grind)

/-! ## Functions made of texts -/

theorem raiseMistake (file : String) (mistake : Mistake) :
    Safe t pins needs (Interp.raiseMistake file mistake : Interp α) gives := by
  unfold Interp.raiseMistake
  refine (Safe.allocate (placeable_errorObject _ (by grind))).bind fun id ↦ ?_
  refine Safe.get_bind fun m ↦ ?_
  refine (Safe.edit (.put (by simp [payloadKey])) (by simp) id).bind fun _ ↦ ?_
  exact .raise (by grind)

theorem placeable_functionObject {callable : Callable}
    (h : Known pins needs (Kind.function callable).references)
    (hnative : (Object.empty (.function callable) none).native? = none) (parameters : Nat)
    (name : String) : Placeable pins needs (Realm.functionObject callable parameters name) := by
  have hempty : Placeable pins needs (.empty (.function callable) (some Realm.functionPrototype)) :=
    .empty (by simp) h rfl hnative
  exact (hempty.withData (by simp [payloadKey]) (by simp)).withData (by simp [payloadKey]) (by simp)

theorem newRoutine (name : String) (routine : Routine) :
    Safe t pins needs (Interp.newRoutine name routine) fun d ↦ d.references ++ needs := by
  have hfunction : Placeable pins needs (Realm.functionObject (.code routine) 0 name) :=
    placeable_functionObject known_nil rfl 0 name
  unfold Interp.newRoutine
  refine (Safe.allocate ?_).bind fun id ↦ .ret (by grind)
  split
  · exact hfunction.put (by simp [payloadKey]) (by simp)
  · exact hfunction

theorem compileFunction (parameters body : String) :
    Safe t pins needs (Interp.compileFunction parameters body) fun d ↦ d.references ++ needs := by
  unfold Interp.compileFunction
  dsimp only
  split
  · exact .raiseMistake _ _
  · exact .newRoutine _ _

/-! ## Diagnosis -/

theorem readText (hinvoke : Faithful invoke) (h : Pinned pins [id]) (key : String) :
    Safe t pins needs (Interp.readText? invoke id key) fun _ ↦ [] := by
  have hread : Safe t pins needs (do
      let d ← Interp.read invoke id key
      if d.isNullish then return none
      return some (← Interp.toText invoke d)) fun _ ↦ [] := by
    refine (Safe.read hinvoke h.known key).bind fun d ↦ ?_
    split
    · exact .ret known_nil
    · exact (Safe.toText hinvoke (by grind)).bind fun _ ↦ .ret known_nil
  exact (Safe.passingOver hread).bind fun _ ↦ .ret known_nil

theorem readString (hinvoke : Faithful invoke) (h : Pinned pins [id]) (key : String) :
    Safe t pins needs (Interp.readString? invoke id key) fun _ ↦ [] := by
  unfold Interp.readString?
  refine (Safe.passingOver (Safe.read hinvoke h.known key)).bind fun d ↦ ?_
  split
  · exact .ret known_nil
  · exact .ret known_nil

theorem readLine (hinvoke : Faithful invoke) (h : Pinned pins [id]) (key : String) :
    Safe t pins needs (Interp.readLine? invoke id key) fun _ ↦ [] :=
  (Safe.passingOver (Safe.read hinvoke h.known key)).bind fun _ ↦ .ret known_nil

theorem diagnoseError (hinvoke : Faithful invoke) (h : Pinned pins [id]) :
    Safe t pins needs (Interp.diagnoseError invoke id) fun _ ↦ [] := by
  unfold Interp.diagnoseError
  refine (Safe.readText hinvoke h "message").bind fun message ↦ ?_
  refine (Safe.readString hinvoke h "name").bind fun name ↦ ?_
  refine (Safe.readString hinvoke h "fileName").bind fun file ↦ ?_
  refine (Safe.readLine hinvoke h "lineNumber").bind fun line ↦ ?_
  split
  · exact .ret known_nil
  · refine (Safe.readText hinvoke h "stack").bind fun stack ↦ ?_
    split
    · exact .ret known_nil
    · exact .ret known_nil

theorem typeName (d : Datum) : Safe t pins needs (Interp.typeName d) fun _ ↦ [] := by
  unfold Interp.typeName
  split
  · exact (Safe.object _).bind fun _ ↦ .ret known_nil
  · exact .ret known_nil

theorem stringify (hinvoke : Faithful invoke) (h : Known pins needs d.references) :
    Safe t pins needs (Interp.stringify invoke d) fun _ ↦ [] := by
  unfold Interp.stringify
  have hgives {needs : List ObjectId} : Safe t pins needs (do
      let _ ← Interp.takePending
      return "[" ++ (← Interp.typeName d) ++ "]") fun _ ↦ [] :=
    Safe.takePending.bind fun _ ↦ (Safe.typeName d).bind fun _ ↦ .ret known_nil
  refine Safe.trying_bind (Safe.toText hinvoke h) (fun text ↦ ?_) rfl fun _ ↦
    (Safe.typeName d).bind fun _ ↦ .ret known_nil
  split
  · exact .ret known_nil
  · exact hgives

theorem diagnose (hinvoke : Faithful invoke) (h : Known pins needs d.references) :
    Safe t pins needs (Interp.diagnose invoke d) fun _ ↦ [] := by
  unfold Interp.diagnose
  refine Safe.holding (by grind) ?_
  split
  · next id =>
    refine (Safe.object id).bind fun o ↦ ?_
    split
    · exact .diagnoseError hinvoke (by grind)
    · exact (Safe.stringify hinvoke (by grind)).bind fun _ ↦ .ret known_nil
  · exact (Safe.stringify hinvoke (by grind)).bind fun _ ↦ .ret known_nil

/-! ## Promises -/

theorem reportRejection (hinvoke : Faithful invoke) (h : Known pins needs d.references) :
    Safe t pins needs (Interp.reportRejection invoke d) fun _ ↦ [] :=
  (Safe.diagnose hinvoke h).bind fun _ ↦ .emit rfl fun _ ↦ rfl

theorem placeable_promise {reason : Option Datum} (h : Known pins needs [prototype])
    (hreason : Known pins needs (reason.toList.flatMap Datum.references)) :
    Placeable pins needs (.empty (.promise reason) (some prototype)) := by
  refine .empty h ?_ rfl rfl
  cases reason with
  | none => exact known_nil
  | some reason => simpa [Kind.references] using hreason

theorem newPromise {reason : Option Datum}
    (h : Known pins needs (reason.toList.flatMap Datum.references)) :
    Safe t pins needs (Interp.newPromise reason) fun d ↦ d.references ++ needs :=
  (Safe.allocate (placeable_promise (by grind) h)).bind fun _ ↦ .ret (by grind)

theorem rejectPromise (hinvoke : Faithful invoke) {reason : Datum}
    (h : Known pins needs (id :: reason.references)) :
    Safe t pins needs (Interp.rejectPromise invoke id reason) fun _ ↦ [id] := by
  unfold Interp.rejectPromise
  refine (Safe.edit (.rejected reason) (by grind) id).bind fun _ ↦ ?_
  refine Safe.holding (by grind) ?_
  exact (Safe.reportRejection hinvoke (by grind)).giving fun _ ↦ by grind

theorem makePromise (hinvoke : Faithful invoke) {newTarget : Option ObjectId} {executor : Datum}
    (h : Known pins needs newTarget.toList) (hexecutor : Pinned pins executor.references) :
    Safe t pins needs (Interp.makePromise invoke newTarget executor) Datum.references := by
  unfold Interp.makePromise
  dsimp only
  split
  · exact .raiseFault_bind
  · refine Safe.function_bind (.raiseFault _) fun run hrun ↦ ?_
    refine (Safe.prototypeFor hinvoke h (by grind)).bind fun prototype ↦ ?_
    refine (Safe.allocate (placeable_promise (by grind) known_nil)).bind fun id ↦ ?_
    refine Safe.holding (by grind) ?_
    refine Safe.trying_bind (hinvoke (by grind)) (fun _ ↦ .ret (by grind)) rfl fun thrown ↦ ?_
    refine (Safe.rejectPromise hinvoke ?_).bind fun _ ↦ .ret (by grind)
    cases thrown <;> grind

theorem makeRejected (hinvoke : Faithful invoke) {constructor : ObjectId} {reason : Datum}
    (h : Known pins needs [constructor]) (hreason : Pinned pins reason.references) :
    Safe t pins needs (Interp.makeRejected invoke constructor reason) Datum.references := by
  unfold Interp.makeRejected
  refine ((Safe.object constructor).giving fun _ ↦ known_append_right).bind fun o ↦ ?_
  dsimp only
  split
  · exact .raiseFault_bind
  · refine (hinvoke (by grind)).bind fun made ↦ ?_
    split
    · next id =>
      refine ((Safe.object id).giving fun _ ↦ known_append_right).bind fun o ↦ ?_
      split
      · exact (Safe.rejectPromise hinvoke (by grind)).bind fun _ ↦ .ret (by grind)
      · exact .raiseFault _
    · exact .raiseFault _

/-- What jobs hold is kept alive from then on. -/
theorem addJob {ds : List Datum} (h : Known pins needs (ds.flatMap Datum.references)) :
    Safe t pins needs (modify fun m ↦ { m with jobs := m.jobs ++ ds } : Interp Unit)
      fun _ ↦ needs := by
  intro m hm _ hpins hneeds
  refine ⟨{ Evolves.refl m with }, ?_, .of_eq rfl rfl, fun _ _ ↦ hneeds⟩
  refine hm.withHeld rfl rfl rfl rfl rfl rfl fun {d id} hd hid ↦ ?_
  rcases mem_held.mp hd with hd | hd | hd | hd
  · exact .inl (mem_held.mpr (.inl hd))
  · exact .inl (mem_held.mpr (.inr (.inl hd)))
  · exact .inl (mem_held.mpr (.inr (.inr (.inl hd))))
  · rcases List.mem_append.mp hd with hd | hd
    · exact .inl (mem_held.mpr (.inr (.inr (.inr hd))))
    · exact .inr (h.offers hm hpins hneeds id (List.mem_flatMap.mpr ⟨d, hd, hid⟩))

theorem handlePromise {this : Datum} {handlers : List Datum}
    (h : Known pins needs (handlers.flatMap Datum.references)) :
    Safe t pins needs (Interp.handlePromise this handlers) Datum.references := by
  unfold Interp.handlePromise
  split
  · next id =>
    refine (Safe.object id).bind fun o ↦ ?_
    split
    · next reason hkind =>
      refine (Safe.newPromise (by simp)).bind fun derived ↦ ?_
      split
      · next reason =>
        have hreason : Known pins (derived.references ++ (o.shown ++ needs)) reason.references := by
          intro x hx
          have hshown : x ∈ o.shown :=
            Object.mem_shown.mpr (.inr (.inl (by rw [hkind]; exact hx)))
          exact .inl (List.mem_append_right _ (List.mem_append_left _ hshown))
        exact (Safe.addJob (by grind)).bind fun _ ↦ .ret (by grind)
      · exact .ret (by grind)
    · exact .raiseFault _
  · exact .raiseFault _

end ScriptBridge.Script.Safe
