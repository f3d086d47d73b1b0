import ScriptBridge.Proofs.Engine.Conducting
import ScriptBridge.Proofs.Engine.Ending
import ScriptBridge.Proofs.Engine.Installing

/-!
# What surrounds the wrappers

An operation that concerns wrappers or scripts works on the registry, the backend and the trace, and
on nothing else. The others change one list, flag or catalog each. So it can be said of every
operation what becomes of the queue of module initializers, of the flag of a start, and of the
catalog of classes.
-/

namespace ScriptBridge

/-- The operations that reach nothing but the registry, the backend and the trace. -/
def Operation.isInward : Operation → Bool
  | .cleanup | .addBeforeHook _ | .addAfterHook _ | .addInitializer _ | .createClass _ _ _
  | .defineFinalizer _ _ | .installClass _ | .setListener _ | .nodeEvent _ _ => false
  | _ => true

/-- A call that is to install a class. -/
def Call.isInstallation : Call → Bool
  | .installClass _ _ _ _ => true
  | _ => false

theorem Call.isInstallation_of_isWeak {call : Call} (h : call.isWeak = true) :
    call.isInstallation = false := by
  cases call <;> first | rfl | cases h

namespace Engine

variable {σ : Type}

/-! ## Operations that work inwards -/

/-- The engines differ in the registry, the backend and the trace at most, and no class was to be
installed. -/
structure Inward (e e' : Engine σ) : Prop where
  same : e' = { e with registry := e'.registry, backend := e'.backend, trace := e'.trace }
  makes : Makes (fun call ↦ call.isInstallation = false) e e'

instance : IsPreorder (Engine σ) Inward where
  refl e := ⟨rfl, .refl e⟩
  trans _ _ e'' first second := ⟨second.same.trans
    (congrArg (fun e : Engine σ ↦
      { e with registry := e''.registry, backend := e''.backend, trace := e''.trace }) first.same),
    first.makes.trans second.makes⟩

namespace Inward

variable {e e' : Engine σ}

theorem refl (e : Engine σ) : Inward e e := Std.Refl.refl e

theorem withRegistry (e : Engine σ) (r : Registry) : Inward e { e with registry := r } :=
  ⟨rfl, .of_trace rfl⟩

/-- Lines of the log are no calls. -/
theorem logged (e : Engine σ) (level : Level) (text : String) :
    Inward e { e with trace := e.trace ++ [.log level text] } :=
  ⟨rfl, [_], rfl, by simp [callsOf, Event.call?]⟩

theorem catalog (h : Inward e e') : e'.catalog = e.catalog := by rw [h.same]

theorem queue (h : Inward e e') : e'.queue = e.queue := by rw [h.same]

theorem started (h : Inward e e') : e'.started = e.started := by rw [h.same]

end Inward

theorem inward_ask? {α : Type} {call : Call} (hcall : call.isInstallation = false)
    (f : σ → Outcome σ α) : Along Inward (ask? call f) := by
  intro e
  refine ⟨?_, .ask? hcall f e⟩
  cases hs : e.backend with
  | none => rw [ask?_none hs]
  | some s => rw [ask?_some hs]; rfl

theorem inward_ask {α : Type} {call : Call} (hcall : call.isInstallation = false)
    (f : σ → Outcome σ (Except Failure α)) : Along Inward (ask call f) :=
  inward_ask? hcall f

variable [Backend σ]

theorem inward_askReporting? {α : Type} {call : Call} (hcall : call.isInstallation = false)
    (f : σ → Report σ α) : Along Inward (askReporting? call f) := by
  intro e
  cases hs : e.backend with
  | none =>
    rw [askReporting?_none hs]
    exact .refl e
  | some s =>
    obtain ⟨passes, o, events, hconducted, hrun, hcalls⟩ := Reconcile.run_conducted e.inCleanup
      (f s) e.registry (e.trace ++ [.call call])
    rw [askReporting?_some hs, follow, hrun]
    refine ⟨rfl, .call call :: events, List.append_assoc _ _ _, fun made hmade ↦ ?_⟩
    rw [callsOf_call, List.mem_cons, hcalls, List.mem_flatMap] at hmade
    rcases hmade with rfl | ⟨pass, hpass, hmade⟩
    · exact hcall
    · exact Call.isInstallation_of_isWeak (hconducted.isWeak pass hpass made hmade)

theorem inward_clearException : Along Inward (clearException (σ := σ)) := by
  apply (inward_ask? rfl _).act_bind
  rintro (_ | _ | exception)
  · exact .of_return none
  · exact .of_return none
  · exact Along.act_bind (.of_act_modify fun e ↦ .logged e _ _) fun _ ↦ .of_return _

theorem inward_executeSource (source : Script.Source) (file : Option String) :
    Along Inward (executeSource (σ := σ) source file) := by
  apply Along.get_bind
  intro e
  apply (Along.of_surely (inward_askReporting? rfl _)).bind
  intro result
  split
  · exact .of_pure _
  · exact (Along.of_surely inward_clearException).bind fun _ ↦ .of_throw _
  · exact (Along.of_surely inward_clearException).bind fun _ ↦ .of_throw _

theorem inward_executeBuffer (bytes : List UInt8) (file : Option String) :
    Along Inward (executeBuffer (σ := σ) bytes file) := by
  intro e
  rw [executeBuffer_snd]
  split
  · exact inward_executeSource _ file e
  · exact .refl e

theorem inward_releaseValue (value : Value) : Along Inward (releaseValue (σ := σ) value) := by
  intro e
  rw [releaseValue_eq]
  split
  · exact .refl e
  · split
    · exact .refl e
    · exact inward_ask? rfl _ e

theorem inward_retain (owner target : NativeId) :
    Along Inward (retain (σ := σ) owner target) := by
  apply Along.get_bind
  intro e
  split
  · exact .of_pure ()
  · apply (Along.of_surely inward_clearException).bind
    intro _
    apply (Along.of_surely (inward_ask? rfl _)).bind
    intro result
    split
    · exact .of_modify fun e ↦ .withRegistry e _
    · exact .of_pure ()
    · exact .of_throw _

theorem inward_unretain (owner target : NativeId) :
    Along Inward (unretain (σ := σ) owner target) := by
  apply Along.get_bind
  intro e
  split
  · exact .of_pure ()
  · apply (Along.of_surely inward_clearException).bind
    intro _
    apply (Along.of_surely (inward_ask? rfl _)).bind
    intro result
    split
    · exact .of_modify fun e ↦ .withRegistry e _
    · exact .of_modify fun e ↦ .withRegistry e _
    · exact .of_throw _

theorem inward_settleRoot (handle : Handle) (rooted : Bool) :
    Along Inward (settleRoot (σ := σ) handle rooted) := by
  intro e
  cases rooted with
  | true => rw [settleRoot_true]; exact .refl e
  | false => exact inward_ask rfl _ e

theorem inward_dismissPrevious (native : NativeId) :
    Along Inward (dismissPrevious (σ := σ) native) := by
  intro e
  rw [dismissPrevious_eq]
  rcases e.current? native with _ | ⟨id, w⟩
  · exact .refl e
  · exact IsTrans.trans _ _ _ (.withRegistry e _) (inward_ask? rfl _ _)

theorem inward_wrapNative (native : NativeId) (handle : Handle) (rooted : Bool) :
    Along Inward (wrapNative (σ := σ) native handle rooted) := by
  apply Along.get_bind
  intro e
  split
  · exact .of_pure _
  · apply (inward_settleRoot handle rooted).bind
    intro _
    apply (Along.of_surely (inward_dismissPrevious native)).bind
    intro _ e'
    exact .withRegistry e' _

theorem inward_createObject (native : NativeId) :
    Along Inward (createObject (σ := σ) native) :=
  (inward_ask rfl _).bind fun handle ↦ inward_wrapNative native handle true

omit [Backend σ] in
theorem inward_wrapperOf (native : NativeId) : Along Inward (wrapperOf (σ := σ) native) := by
  intro e
  rw [wrapperOf_eq]
  split <;> exact .refl e

theorem inward_rootObject (native : NativeId) : Along Inward (rootObject (σ := σ) native) := by
  apply (inward_wrapperOf native).bind
  rintro ⟨id, handle⟩
  apply Along.get_bind
  intro e
  refine Along.bind (.of_modify ?_) fun _ ↦ ?_
  · exact fun e ↦ .withRegistry e _
  · split
    · exact inward_ask rfl _
    · exact .of_pure ()

theorem inward_unrootObject (native : NativeId) :
    Along Inward (unrootObject (σ := σ) native) := by
  apply (inward_wrapperOf native).bind
  rintro ⟨id, handle⟩
  apply Along.get_bind
  intro e
  dsimp only
  split
  · refine Along.bind (.of_modify ?_) fun _ ↦ ?_
    · exact fun e ↦ .withRegistry e _
    · split
      · exact inward_ask rfl _
      · exact .of_pure ()
  · exact .of_pure ()

theorem inward_setPrivateData (native : NativeId) (payload : Payload) :
    Along Inward (setPrivateData (σ := σ) native payload) := by
  apply (inward_wrapperOf native).bind
  rintro ⟨id, handle⟩
  exact (inward_ask rfl _).bind fun _ ↦ .of_modify fun e ↦ .withRegistry e _

theorem inward_performSimple {op : Operation} (h : op.isInward = true) :
    Along Inward (performSimple (σ := σ) op) := by
  cases op with
  | start => exact .of_pure _
  | executeBuffer bytes file => exact (inward_executeBuffer bytes file).map _
  | executeSource source file => exact (inward_executeSource source file).map _
  | clearException => exact (Along.of_surely inward_clearException).bind fun _ ↦ .of_pure _
  | getProperty target key => exact (inward_ask rfl _).bind fun _ ↦ .of_pure _
  | setProperty target key value => exact (inward_ask rfl _).of_bind_pure _
  | releaseValue value => exact (Along.of_surely (inward_releaseValue value)).of_bind_pure _
  | collectGarbage =>
    exact (Along.of_surely (inward_askReporting? rfl Backend.collect)).of_bind_pure _
  | retain owner target => exact (inward_retain owner target).of_bind_pure _
  | unretain owner target => exact (inward_unretain owner target).of_bind_pure _
  | wrapNative native handle rooted => exact (inward_wrapNative native handle rooted).map _
  | createObject native => exact (inward_createObject native).map _
  | rootObject native => exact (inward_rootObject native).of_bind_pure _
  | unrootObject native => exact (inward_unrootObject native).of_bind_pure _
  | setPrivateData native payload => exact (inward_setPrivateData native payload).of_bind_pure _
  | _ => cases h

/-! ## The queue of initializers and the flag of a start -/

/-- Neither the queue of initializers nor the flag of a start differs. -/
structure Steady (e e' : Engine σ) : Prop where
  queue : e'.queue = e.queue
  started : e'.started = e.started

omit [Backend σ] in
theorem Inward.steady {e e' : Engine σ} (h : Inward e e') : Steady e e' := ⟨h.queue, h.started⟩

instance : IsPreorder (Engine σ) Steady where
  refl _ := ⟨rfl, rfl⟩
  trans _ _ _ first second :=
    ⟨second.queue.trans first.queue, second.started.trans first.started⟩

omit [Backend σ] in
theorem steady_ask {α : Type} (call : Call) (f : σ → Outcome σ (Except Failure α)) :
    Along Steady (ask call f) := by
  intro e
  cases hs : e.backend with
  | none => rw [ask_none hs]; exact Std.Refl.refl e
  | some s => rw [ask_some hs]; exact ⟨rfl, rfl⟩

theorem steady_installAll (ids : List ClassId) :
    Along Steady (installAll (σ := σ) ids) := by
  induction ids with
  | nil => exact .of_pure ()
  | cons id rest ih =>
    apply Along.bind _ fun _ ↦ ih
    apply Along.get_bind
    intro e
    dsimp only
    split
    · exact .of_pure ()
    · split
      · exact .of_throw _
      · exact (steady_ask _ _).bind fun _ ↦ .of_modify fun _ ↦ ⟨rfl, rfl⟩

/-! ## The queue of initializers -/

/-- Only a registration or a cleanup changes the queue, and only a cleanup the flag of a start. -/
theorem steady_performSimple {op : Operation} (hcleanup : op ≠ .cleanup)
    (hadd : ∀ name, op ≠ .addInitializer name) : Along Steady (performSimple (σ := σ) op) := by
  cases op with
  | cleanup => exact absurd rfl hcleanup
  | addInitializer name => exact absurd rfl (hadd name)
  | addBeforeHook name => exact fun _ ↦ ⟨rfl, rfl⟩
  | addAfterHook name => exact fun _ ↦ ⟨rfl, rfl⟩
  | createClass name parent constructor =>
    intro e
    rw [performSimple_createClass]
    split <;> exact ⟨rfl, rfl⟩
  | defineFinalizer id tag =>
    intro e
    rw [performSimple_defineFinalizer]
    split <;> exact ⟨rfl, rfl⟩
  | installClass id =>
    exact Along.of_bind_pure (.get_bind fun _ ↦ steady_installAll _) _
  | setListener mode => exact fun _ ↦ ⟨rfl, rfl⟩
  | nodeEvent native event =>
    intro e
    rw [performSimple_nodeEvent]
    split <;> exact ⟨rfl, rfl⟩
  | _ => exact (inward_performSimple rfl).mono Inward.steady

/-! ## The catalog of classes -/

theorem installOne_of_none {e : Engine σ} (h : e.backend = none) (id : ClassId) :
    (installOne id e).2 = e := by
  simp only [installOne, run_bind, run_get]
  split
  · rfl
  · cases e.catalog.spec? id with
    | none => rfl
    | some spec => simp only [run_bind, ask_none h]

/-- Without a backend no class is installed. -/
theorem installAll_of_none {e : Engine σ} (h : e.backend = none) (ids : List ClassId) :
    (installAll ids e).2 = e := by
  induction ids with
  | nil => rfl
  | cons id rest ih =>
    have hfirst := installOne_of_none h id
    simp only [installAll, run_bind]
    rcases hrun : installOne id e with ⟨_ | _, e'⟩
    · rwa [hrun] at hfirst
    · rw [hrun] at hfirst
      subst hfirst
      exact ih

/-- What an operation makes of the catalog of an engine. -/
inductive Recatalogs (e : Engine σ) : Operation → Catalog → Prop
  | same {op : Operation} (h : ∀ id, op = .installClass id → e.backend = none) :
    Recatalogs e op e.catalog
  | created {name : String} {parent : Option ClassId} {constructor : Option NativeConstructor}
    {id : ClassId} {after : Catalog}
    (h : e.catalog.create name parent constructor = .ok (id, after)) :
    Recatalogs e (.createClass name parent constructor) after
  | defined {id : ClassId} {tag : String} {after : Catalog}
    (h : e.catalog.defineFinalizer id tag = .ok after) :
    Recatalogs e (.defineFinalizer id tag) after
  | installed {id : ClassId} {s s' : σ} {done : List ClassId} {result : Except Failure Unit}
    {events : List Event} (hs : e.backend = some s)
    (h : Installing e.catalog.spec? (e.catalog.missing id) s done result s' events) :
    Recatalogs e (.installClass id) (done.foldl Catalog.markInstalled e.catalog)
  | cleared (h : e.isValid = true) : Recatalogs e .cleanup e.catalog.clear

/-- A cleanup installs no class. -/
theorem cleanup_forgets {e : Engine σ} (h : e.isValid = true) :
    (cleanup e).2.catalog = e.catalog.clear ∧
      Makes (fun call ↦ call.isInstallation = false) e (cleanup e).2 := by
  have hbegun : Makes (fun call ↦ call.isInstallation = false) e (begun e) :=
    ⟨_, rfl, by simp [callsOf, Function.comp_def, Event.call?]⟩
  obtain ⟨hcatalog, hrelease⟩ : (releaseGlobal (begun e)).2.catalog = e.catalog ∧
      Makes (fun call ↦ call.isInstallation = false) (begun e) (releaseGlobal (begun e)).2 := by
    simp only [releaseGlobal, act_bind, act_get]
    cases (begun e).global with
    | none => exact ⟨rfl, .refl _⟩
    | some global =>
      have hasked := @inward_ask? σ _ (.release global) rfl (Backend.release global)
        { begun e with global := none }
      exact ⟨hasked.catalog, (Makes.of_trace rfl).trans hasked.makes⟩
  have hall : ∀ ws : List Wrapper, Along Inward (releaseAll (σ := σ) ws) := by
    intro ws
    induction ws with
    | nil => exact fun e ↦ .refl e
    | cons w rest ih => exact fun e ↦ IsTrans.trans _ _ _ (inward_ask? rfl _ e) (ih _)
  have hobjects : Along Inward (cleanupObjects (σ := σ)) := fun e ↦ IsTrans.trans _ _ _
    (@inward_askReporting? σ _ _ .collect rfl Backend.collect e)
    (IsTrans.trans _ _ _ (.withRegistry _ _) (hall _ _))
  let cleared : Engine σ :=
    { (releaseGlobal (begun e)).2 with catalog := (releaseGlobal (begun e)).2.catalog.clear }
  have hemptied := hobjects cleared
  have hshut := @inward_ask? σ _ .shutdown rfl Backend.shutdown (emptied e)
  rw [cleanup_eq h]
  refine ⟨?_, ?_⟩
  · calc (shutdownBackend (emptied e)).2.catalog = (emptied e).catalog := hshut.catalog
      _ = (releaseGlobal (begun e)).2.catalog.clear := hemptied.catalog
      _ = e.catalog.clear := by rw [hcatalog]
  · have hcleared : Makes (fun call ↦ call.isInstallation = false) (releaseGlobal (begun e)).2
        cleared := .of_trace rfl
    refine hbegun.trans (hrelease.trans (hcleared.trans (hemptied.makes.trans
      (hshut.makes.trans ⟨_, rfl, ?_⟩))))
    simp [callsOf, Function.comp_def, Event.call?]

theorem catalog_cleanup {e : Engine σ} (h : e.isValid = true) :
    (cleanup e).2.catalog = e.catalog.clear :=
  (cleanup_forgets h).1

/-- The missing classes of a lineage are installed in order. -/
theorem installClass_eq {e : Engine σ} {s : σ} (hlineal : e.catalog.Lineal)
    (hs : e.backend = some s) (id : ClassId) : ∃ done result s' events,
      Installing e.catalog.spec? (e.catalog.missing id) s done result s' events ∧
        installClass id e = (result, e.enrolled done s' events) := by
  have hsorted := (hlineal.descends id).sorted hlineal
  apply installAll_eq (hsorted.imp fun hlt heq ↦ ?_) hs
  exact Nat.lt_irrefl _ (heq ▸ hlt)

theorem recatalogs_performSimple {e : Engine σ} (hlineal : e.catalog.Lineal) (op : Operation) :
    Recatalogs e op (performSimple op e).2.catalog := by
  cases op with
  | cleanup =>
    rw [performSimple, run_return, run_surely]
    cases hvalid : e.isValid with
    | false =>
      rw [cleanup_of_invalid hvalid]
      exact .same (by simp)
    | true =>
      rw [catalog_cleanup hvalid]
      exact .cleared hvalid
  | addInitializer name =>
    rw [performSimple_addInitializer]
    split <;> exact .same (by simp)
  | addBeforeHook name => exact .same (by simp)
  | addAfterHook name => exact .same (by simp)
  | createClass name parent constructor =>
    rw [performSimple_createClass]
    cases h : e.catalog.create name parent constructor with
    | error failure => exact .same (by simp)
    | ok created => exact .created h
  | defineFinalizer id tag =>
    rw [performSimple_defineFinalizer]
    cases h : e.catalog.defineFinalizer id tag with
    | error failure => exact .same (by simp)
    | ok after => exact .defined h
  | installClass id =>
    rw [performSimple, run_return]
    cases hs : e.backend with
    | none =>
      change Recatalogs e _ (installAll (e.catalog.lineage id) e).2.catalog
      rw [installAll_of_none hs]
      exact .same fun _ _ ↦ hs
    | some s =>
      obtain ⟨done, result, s', events, hinstalling, hrun⟩ := installClass_eq hlineal hs id
      rw [hrun]
      exact .installed hs hinstalling
  | setListener mode => exact .same (by simp)
  | nodeEvent native event =>
    rw [performSimple_nodeEvent]
    cases e.listener <;> exact .same (by simp)
  | _ =>
    rw [(inward_performSimple rfl e).catalog]
    exact .same (by simp)

/-- Only an installation makes calls that install classes. -/
theorem makes_performSimple {op : Operation} (h : ∀ id, op ≠ .installClass id) (e : Engine σ) :
    Makes (fun call ↦ call.isInstallation = false) e (performSimple op e).2 := by
  cases op with
  | installClass id => exact absurd rfl (h id)
  | cleanup =>
    rw [performSimple, run_return, run_surely]
    cases hvalid : e.isValid with
    | false => rw [cleanup_of_invalid hvalid]; exact .refl e
    | true => exact (cleanup_forgets hvalid).2
  | addInitializer name =>
    rw [performSimple_addInitializer]
    split <;> exact .of_trace rfl
  | addBeforeHook name => exact .of_trace rfl
  | addAfterHook name => exact .of_trace rfl
  | createClass name parent constructor =>
    rw [performSimple_createClass]
    split <;> exact .of_trace rfl
  | defineFinalizer id tag =>
    rw [performSimple_defineFinalizer]
    split <;> exact .of_trace rfl
  | setListener mode => exact .of_trace rfl
  | nodeEvent native event =>
    rw [performSimple_nodeEvent]
    cases e.listener with
    | none => exact .refl e
    | some listener => exact ⟨[_], rfl, by simp [callsOf, Event.call?]⟩
  | _ => exact (inward_performSimple rfl e).makes

/-! ## New engines -/

theorem create_eq_ok {state : σ} {config : Config} {e : Engine σ} {events : List Event}
    (h : create state config = (.ok e, events)) : ∃ global s,
      e = ⟨.empty, .empty, some global, config, true, false, false, none, [], [], [], some s,
        []⟩ := by
  simp only [create] at h
  split at h
  · cases h
    exact ⟨_, _, rfl⟩
  · cases h

end Engine

end ScriptBridge
