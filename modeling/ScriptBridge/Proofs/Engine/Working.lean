import ScriptBridge.Proofs.Engine.Aftermath
import ScriptBridge.Proofs.Start.Enactment

/-!
# What an engine does with its backend

Whatever is asked of an engine, it keeps its own books, makes remarks, and makes calls, each with
the arguments that it notes. Here all operations but a cleanup are brought under one relation that
says no more than this, and a cleanup is taken apart into its stretches. What is true of bookkeeping
and of every single call is thereby true of all operations, and of the starts made of them.
-/

namespace ScriptBridge

/-- Something that an engine notes by itself, apart from its hooks. -/
def Event.isRemark : Event → Bool
  | .log _ _ | .initializer _ _ | .node _ _ _ _ => true
  | _ => false

namespace Engine

variable {σ α : Type}

/-- The backend was left alone, and nothing was noted but remarks. -/
structure Apart (e e' : Engine σ) : Prop where
  backend : e'.backend = e.backend
  trace : ∃ remarks, e'.trace = e.trace ++ remarks ∧ ∀ event ∈ remarks, event.isRemark = true

theorem Apart.of_trace {e e' : Engine σ} (hbackend : e'.backend = e.backend)
    (htrace : e'.trace = e.trace) : Apart e e' :=
  ⟨hbackend, [], by rw [htrace, List.append_nil], by simp⟩

theorem Apart.noted {event : Event} (h : event.isRemark = true) (e : Engine σ) :
    Apart e (e.noted event) :=
  ⟨rfl, [event], rfl, by simpa using h⟩

/-- The calls that an engine makes during operations and that report no collection, with the states
of the backend before and after, and what it did meanwhile. -/
inductive Served [Backend σ] : Call → σ → σ → List Notice → Prop
  | takePending (s : σ) : Served .takePending s (Backend.takePending s).state
      (Backend.takePending s).events
  | createObject (s : σ) : Served .createObject s (Backend.createObject s).state
      (Backend.createObject s).events
  | getProperty (target : Handle) (key : String) (s : σ) : Served (.getProperty target key) s
      (Backend.getProperty target key s).state (Backend.getProperty target key s).events
  | setProperty (target : Handle) (key : String) (value : Value) (s : σ) :
    Served (.setProperty target key value) s (Backend.setProperty target key value s).state
      (Backend.setProperty target key value s).events
  | root (handle : Handle) (s : σ) : Served (.root handle) s (Backend.root handle s).state
      (Backend.root handle s).events
  | unroot (handle : Handle) (s : σ) : Served (.unroot handle) s (Backend.unroot handle s).state
      (Backend.unroot handle s).events
  | release (handle : Handle) (s : σ) : Served (.release handle) s (Backend.release handle s).state
      (Backend.release handle s).events
  | attachChild (owner child : Handle) (s : σ) : Served (.attachChild owner child) s
      (Backend.attachChild owner child s).state (Backend.attachChild owner child s).events
  | detachChild (owner child : Handle) (s : σ) : Served (.detachChild owner child) s
      (Backend.detachChild owner child s).state (Backend.detachChild owner child s).events
  | setPrivateData (handle : Handle) (payload : Payload) (s : σ) :
    Served (.setPrivateData handle payload.finalizer.isSome) s
      (Backend.setPrivateData handle payload s).state
      (Backend.setPrivateData handle payload s).events
  | installClass (spec : ClassSpec) (s : σ) :
    Served (.installClass spec.name spec.parent spec.constructor.isSome spec.finalizer.isSome) s
      (Backend.installClass spec s).state (Backend.installClass spec s).events

/-- An engine comes from another one by bookkeeping, remarks and calls. -/
inductive Works [Backend σ] : Engine σ → Engine σ → Prop
  | apart {e e' : Engine σ} (h : Apart e e') : Works e e'
  | heard {α : Type} {e : Engine σ} {s : σ} {call : Call} {o : Outcome σ α}
    (hs : e.backend = some s) (hcall : Served call s o.state o.events) : Works e (e.heard call o)
  | evaluated {e : Engine σ} {s : σ} (hs : e.backend = some s) (source : Script.Source)
    (file : String) : Works e
      (e.reconciled (e.follow (.evaluate source file) (Backend.evaluate source file s)))
  | collected {e : Engine σ} {s : σ} (hs : e.backend = some s) :
    Works e (e.reconciled (e.follow .collect (Backend.collect s)))
  | trans {e e' e'' : Engine σ} (first : Works e e') (second : Works e' e'') : Works e e''

variable [Backend σ]

instance : IsPreorder (Engine σ) Works where
  refl _ := .apart (.of_trace rfl rfl)
  trans _ _ _ := .trans

theorem Works.refl (e : Engine σ) : Works e e := Std.Refl.refl e

/-! ## Single operations -/

theorem works_ask? {call : Call} {f : σ → Outcome σ α}
    (h : ∀ s, Served call s (f s).state (f s).events) : Along Works (ask? call f) := by
  intro e
  cases hs : e.backend with
  | none => rw [ask?_none hs]; exact .refl e
  | some s => rw [ask?_some hs]; exact .heard hs (h s)

theorem works_ask {call : Call} {f : σ → Outcome σ (Except Failure α)}
    (h : ∀ s, Served call s (f s).state (f s).events) : Along Works (ask call f) :=
  works_ask? h

theorem works_modify {f : Engine σ → Engine σ} (hbackend : ∀ e, (f e).backend = e.backend)
    (htrace : ∀ e, (f e).trace = e.trace) : Along Works (modify f : Attempt σ Unit) :=
  fun e ↦ .apart (.of_trace (hbackend e) (htrace e))

theorem works_emit {event : Event} (h : event.isRemark = true) :
    Along Works (emit (σ := σ) event) :=
  fun e ↦ .apart (.noted h e)

theorem works_clearException : Along Works (clearException (σ := σ)) := by
  apply (works_ask? .takePending).act_bind
  rintro (_ | _ | exception)
  · exact .of_return none
  · exact .of_return none
  · exact (works_emit rfl).act_bind fun _ ↦ .of_return _

theorem works_collectGarbage : Along Works (collectGarbage (σ := σ)) := by
  intro e
  rw [collectGarbage_snd]
  cases hs : e.backend with
  | none => rw [askReporting?_none hs]; exact .refl e
  | some s => rw [askReporting?_some hs]; exact .collected hs

theorem works_executeSource (source : Script.Source) (file : Option String) :
    Along Works (executeSource (σ := σ) source file) := by
  apply Along.get_bind
  intro e
  have hcall : Along Works (askReporting? (.evaluate source (e.fileName file))
      (Backend.evaluate (σ := σ) source (e.fileName file))) := by
    intro e'
    cases hs : e'.backend with
    | none => rw [askReporting?_none hs]; exact .refl e'
    | some s => rw [askReporting?_some hs]; exact .evaluated hs source _
  apply (Along.of_surely hcall).bind
  intro result
  split
  · exact .of_pure _
  · exact (Along.of_surely works_clearException).bind fun _ ↦ .of_throw _
  · exact (Along.of_surely works_clearException).bind fun _ ↦ .of_throw _

theorem works_executeBuffer (bytes : List UInt8) (file : Option String) :
    Along Works (executeBuffer (σ := σ) bytes file) := by
  intro e
  rw [executeBuffer_snd]
  split
  · exact works_executeSource _ file e
  · exact .refl e

theorem works_releaseValue (value : Value) : Along Works (releaseValue (σ := σ) value) := by
  intro e
  rw [releaseValue_eq]
  split
  · exact .refl e
  · split
    · exact .refl e
    · exact works_ask? (.release _) e

theorem works_retain (owner target : NativeId) : Along Works (retain (σ := σ) owner target) := by
  apply Along.get_bind
  intro e
  split
  · exact .of_pure ()
  · apply (Along.of_surely works_clearException).bind
    intro _
    apply (Along.of_surely (works_ask? (.attachChild _ _))).bind
    intro result
    split
    · exact works_modify (fun _ ↦ rfl) fun _ ↦ rfl
    · exact .of_pure ()
    · exact .of_throw _

theorem works_unretain (owner target : NativeId) :
    Along Works (unretain (σ := σ) owner target) := by
  apply Along.get_bind
  intro e
  split
  · exact .of_pure ()
  · apply (Along.of_surely works_clearException).bind
    intro _
    apply (Along.of_surely (works_ask? (.detachChild _ _))).bind
    intro result
    split
    · exact works_modify (fun _ ↦ rfl) fun _ ↦ rfl
    · exact works_modify (fun _ ↦ rfl) fun _ ↦ rfl
    · exact .of_throw _

theorem works_settleRoot (handle : Handle) (rooted : Bool) :
    Along Works (settleRoot (σ := σ) handle rooted) := by
  intro e
  cases rooted with
  | true => rw [settleRoot_true]; exact .refl e
  | false => exact works_ask (.unroot handle) e

theorem works_dismissPrevious (native : NativeId) :
    Along Works (dismissPrevious (σ := σ) native) := by
  intro e
  rw [dismissPrevious_eq]
  rcases e.current? native with _ | ⟨id, w⟩
  · exact .refl e
  · have hremoved : Works e { e with registry := (e.registry.remove id).2 } :=
      .apart (.of_trace rfl rfl)
    exact hremoved.trans (works_ask? (.release w.handle) _)

theorem works_wrapNative (native : NativeId) (handle : Handle) (rooted : Bool) :
    Along Works (wrapNative (σ := σ) native handle rooted) := by
  apply Along.get_bind
  intro e
  split
  · exact .of_pure _
  · apply (works_settleRoot handle rooted).bind
    intro _
    apply (Along.of_surely (works_dismissPrevious native)).bind
    intro _ e'
    exact .apart (.of_trace rfl rfl)

omit [Backend σ] in
theorem wrapperOf_snd (native : NativeId) (e : Engine σ) : (wrapperOf native e).2 = e := by
  rw [wrapperOf_eq]
  split <;> rfl

theorem works_wrapperOf (native : NativeId) : Along Works (wrapperOf (σ := σ) native) := by
  intro e
  rw [wrapperOf_snd]
  exact .refl e

theorem works_rootObject (native : NativeId) : Along Works (rootObject (σ := σ) native) := by
  apply (works_wrapperOf native).bind
  rintro ⟨id, handle⟩
  apply Along.get_bind
  intro e
  refine (works_modify ?_ ?_).bind fun _ ↦ ?_
  · exact fun _ ↦ rfl
  · exact fun _ ↦ rfl
  · split
    · exact works_ask (.root handle)
    · exact .of_pure ()

theorem works_unrootObject (native : NativeId) : Along Works (unrootObject (σ := σ) native) := by
  apply (works_wrapperOf native).bind
  rintro ⟨id, handle⟩
  apply Along.get_bind
  intro e
  dsimp only
  split
  · refine (works_modify ?_ ?_).bind fun _ ↦ ?_
    · exact fun _ ↦ rfl
    · exact fun _ ↦ rfl
    · split
      · exact works_ask (.unroot handle)
      · exact .of_pure ()
  · exact .of_pure ()

theorem works_setPrivateData (native : NativeId) (payload : Payload) :
    Along Works (setPrivateData (σ := σ) native payload) := by
  apply (works_wrapperOf native).bind
  rintro ⟨id, handle⟩
  exact (works_ask (.setPrivateData handle payload)).bind fun _ ↦
    works_modify (fun _ ↦ rfl) fun _ ↦ rfl

theorem works_installOne (id : ClassId) : Along Works (installOne (σ := σ) id) := by
  apply Along.get_bind
  intro e
  dsimp only
  split
  · exact .of_pure ()
  · split
    · exact .of_throw _
    · next spec _ =>
      exact (works_ask (.installClass spec)).bind fun _ ↦ works_modify (fun _ ↦ rfl) fun _ ↦ rfl

theorem works_installAll (ids : List ClassId) : Along Works (installAll (σ := σ) ids) := by
  induction ids with
  | nil => exact .of_pure ()
  | cons id rest ih => exact (works_installOne id).bind fun _ ↦ ih

/-- An operation other than a cleanup is bookkeeping, remarks and calls. -/
theorem works_performSimple {op : Operation} (h : op ≠ .cleanup) :
    Along Works (performSimple (σ := σ) op) := by
  cases op with
  | cleanup => exact absurd rfl h
  | start => exact .of_pure _
  | addBeforeHook name => exact fun e ↦ .apart (.of_trace rfl rfl)
  | addAfterHook name => exact fun e ↦ .apart (.of_trace rfl rfl)
  | addInitializer name =>
    intro e
    rw [performSimple_addInitializer]
    split <;> exact .apart (.of_trace rfl rfl)
  | executeBuffer bytes file => exact (works_executeBuffer bytes file).map _
  | executeSource source file => exact (works_executeSource source file).map _
  | clearException => exact (Along.of_surely works_clearException).bind fun _ ↦ .of_pure _
  | getProperty target key => exact (works_ask (.getProperty target key)).bind fun _ ↦ .of_pure _
  | setProperty target key value => exact (works_ask (.setProperty target key value)).of_bind_pure _
  | releaseValue value => exact (Along.of_surely (works_releaseValue value)).of_bind_pure _
  | createClass name parent constructor =>
    intro e
    rw [performSimple_createClass]
    split <;> exact .apart (.of_trace rfl rfl)
  | defineFinalizer id tag =>
    intro e
    rw [performSimple_defineFinalizer]
    split <;> exact .apart (.of_trace rfl rfl)
  | installClass id => exact Along.of_bind_pure (.get_bind fun _ ↦ works_installAll (σ := σ) _) _
  | collectGarbage => exact (Along.of_surely works_collectGarbage).of_bind_pure _
  | retain owner target => exact (works_retain owner target).of_bind_pure _
  | unretain owner target => exact (works_unretain owner target).of_bind_pure _
  | wrapNative native handle rooted => exact (works_wrapNative native handle rooted).map _
  | createObject native =>
    exact ((works_ask .createObject).bind fun handle ↦ works_wrapNative native handle true).map _
  | rootObject native => exact (works_rootObject native).of_bind_pure _
  | unrootObject native => exact (works_unrootObject native).of_bind_pure _
  | setPrivateData native payload => exact (works_setPrivateData native payload).of_bind_pure _
  | setListener mode => exact fun e ↦ .apart (.of_trace rfl rfl)
  | nodeEvent native event =>
    intro e
    rw [performSimple_nodeEvent]
    split
    · exact .apart (.of_trace rfl rfl)
    · exact (Works.apart (.noted rfl e)).trans (.apart (.of_trace rfl rfl))

/-! ## Cleanups -/

theorem works_releaseGlobal : Along Works (releaseGlobal (σ := σ)) := by
  intro e
  simp only [releaseGlobal, act_bind, act_get]
  cases e.global with
  | none => exact .refl e
  | some global =>
    have hbare : Works e { e with global := none } := .apart (.of_trace rfl rfl)
    exact hbare.trans (works_ask? (.release global) _)

theorem works_releaseAll (ws : List Wrapper) : Along Works (releaseAll (σ := σ) ws) := by
  induction ws with
  | nil => exact .of_return ()
  | cons w rest ih => exact (works_ask? (.release w.handle)).act_bind fun _ ↦ ih

theorem works_cleanupObjects : Along Works (cleanupObjects (σ := σ)) := by
  intro e
  let left := (collectGarbage e).2
  have hdrained : Works left { left with registry := left.registry.drain.2 } :=
    .apart (.of_trace rfl rfl)
  exact (works_collectGarbage e).trans (hdrained.trans (works_releaseAll left.registry.drain.1 _))

/-- Between the first hooks and the end of the backend a cleanup does what operations do. -/
theorem works_emptied (e : Engine σ) : Works (begun e) (emptied e) := by
  let released := (releaseGlobal (begun e)).2
  have hcleared : Works released { released with catalog := released.catalog.clear } :=
    .apart (.of_trace rfl rfl)
  exact (works_releaseGlobal (begun e)).trans (hcleared.trans (works_cleanupObjects _))

/-! ## Starts -/

section Nested

variable {R : Engine σ → Engine σ → Prop} [IsPreorder (Engine σ) R]

/-- Every outcome of a run is further along a relation. -/
def Leads (R : Engine σ → Engine σ → Prop) (run : Run σ α) : Prop :=
  ∀ ⦃e a e'⦄, run e = some (a, e') → R e e'

omit [Backend σ] in
theorem Leads.of_pure (a : α) : Leads R (pure a : Run σ α) := by
  intro e b e' hrun
  cases hrun
  exact Std.Refl.refl e

omit [Backend σ] in
theorem Leads.bind {β : Type} {x : Run σ α} {f : α → Run σ β} (hx : Leads R x)
    (hf : ∀ a, Leads R (f a)) : Leads R (x >>= f) := by
  intro e b e'' hrun
  obtain ⟨a, e', hfirst, hsecond⟩ := run_bind_eq_some_iff.mp hrun
  exact IsTrans.trans _ _ _ (hx hfirst) (hf a hsecond)

section

variable {perform : Operation → Run σ (Except Failure Reply)}
  (hperform : ∀ op, Leads R (perform op))
  (hnoted : ∀ (event : Event) (e : Engine σ), event.isRemark = true → R e (e.noted event))

include hperform

omit [Backend σ] in
theorem leads_runRoutine (routine : Routine) : Leads R (runRoutine perform routine) := by
  induction routine with
  | finish result => exact .of_pure result
  | step operation next ih => exact (hperform operation).bind ih

include hnoted

omit [Backend σ] in
theorem leads_runInitializers (repertoire : Repertoire) (global : Handle) (index : Nat)
    (names : List String) : Leads R (runInitializers perform repertoire global index names) := by
  induction names generalizing index with
  | nil => exact .of_pure _
  | cons name rest ih =>
    have hsettle : ∀ result, Leads R (settle perform repertoire global index rest result) := by
      rintro (source | _)
      · intro e a e' hrun
        cases hrun
        exact hnoted _ e rfl
      · exact ih (index + 1)
    intro e a e' hrun
    rw [runInitializers_cons] at hrun
    have hafter := (leads_runRoutine hperform (repertoire name global)).bind hsettle hrun
    exact IsTrans.trans _ _ _ (hnoted _ e rfl) hafter

omit [Backend σ] in
theorem leads_startWith (htaken : ∀ e : Engine σ, R e e.taken) (repertoire : Repertoire) :
    Leads R (startWith perform repertoire) := by
  intro e a e' hrun
  rcases live_or_dead e with ⟨hvalid, global, hglobal⟩ | hdead
  · rw [startWith_of_valid _ hvalid hglobal] at hrun
    have hrest := leads_runInitializers hperform hnoted repertoire global 0 e.queue hrun
    exact IsTrans.trans _ _ _ (htaken e) hrest
  · rw [startWith_of_dead _ hdead] at hrun
    cases hrun
    exact Std.Refl.refl e

end

/-- What holds of single operations, of the flag of a start and of its remarks, holds of an
operation however starts nest in it. -/
theorem leads_perform (hsimple : ∀ op, Along R (performSimple op))
    (htaken : ∀ e : Engine σ, R e e.taken)
    (hnoted : ∀ (event : Event) (e : Engine σ), event.isRemark = true → R e (e.noted event))
    (repertoire : Repertoire) (depth : Nat) (op : Operation) :
    Leads R (perform (σ := σ) repertoire depth op) := by
  have hother : ∀ op, Leads R fun e : Engine σ ↦ some (performSimple op e) := by
    intro op e a e' hrun
    obtain rfl : (performSimple op e).2 = e' := congrArg Prod.snd (Option.some.inj hrun)
    exact hsimple op e
  induction depth generalizing op with
  | zero =>
    cases op with
    | start => intro e a e' hrun; cases hrun
    | _ => exact hother _
  | succ depth ih =>
    cases op with
    | start => exact (leads_startWith ih hnoted htaken repertoire).bind fun _ ↦ .of_pure _
    | _ => exact hother _

end Nested

end Engine

end ScriptBridge
