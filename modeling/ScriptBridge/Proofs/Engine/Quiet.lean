import Mathlib.Order.Defs.Unbundled
import ScriptBridge.Proofs.Engine.Running

/-!
# Operations that no wrapper notices

Most operations touch neither the registry nor the global object, and the only calls they make read
or write properties, attach payloads, install classes or take a pending exception. Here these
operations are brought under one relation between the engine before and after, so that whatever one
quiet step preserves is preserved by all of them.
-/

namespace ScriptBridge

/-- The operations that do nothing but quiet steps. -/
def Operation.isQuiet : Operation → Bool
  | .start | .addBeforeHook _ | .addAfterHook _ | .addInitializer _ | .clearException
  | .getProperty _ _ | .setProperty _ _ _ | .createClass _ _ _ | .defineFinalizer _ _
  | .installClass _ | .setListener _ | .nodeEvent _ _ => true
  | _ => false

namespace Engine

variable {σ : Type}

/-- The calls that a backend may follow without a root, an edge or a handle being taken away. The
states are those of the backend before and after. -/
inductive QuietCall [Backend σ] : Call → σ → σ → Prop
  | takePending (s : σ) : QuietCall .takePending s (Backend.takePending s).state
  | getProperty (target : Handle) (key : String) (s : σ) :
    QuietCall (.getProperty target key) s (Backend.getProperty target key s).state
  | setProperty (target : Handle) (key : String) (value : Value) (s : σ) :
    QuietCall (.setProperty target key value) s (Backend.setProperty target key value s).state
  | setPrivateData (handle : Handle) (payload : Payload) (s : σ) :
    QuietCall (.setPrivateData handle payload.finalizer.isSome) s
      (Backend.setPrivateData handle payload s).state
  | installClass (spec : ClassSpec) (s : σ) :
    QuietCall (.installClass spec.name spec.parent spec.constructor.isSome spec.finalizer.isSome) s
      (Backend.installClass spec s).state

/-- Only bookkeeping that concerns no wrapper differs, and no call was made. -/
structure Aside (e e' : Engine σ) : Prop where
  registry : e'.registry = e.registry
  global : e'.global = e.global
  isValid : e'.isValid = e.isValid
  inCleanup : e'.inCleanup = e.inCleanup
  backend : e'.backend = e.backend
  trace : ∃ events, e'.trace = e.trace ++ events ∧ callsOf events = []

/-- An engine comes from another one by bookkeeping and quiet calls. -/
inductive Quiet [Backend σ] : Engine σ → Engine σ → Prop
  | aside {e e' : Engine σ} (h : Aside e e') : Quiet e e'
  | heard {α : Type} {e : Engine σ} {s : σ} {call : Call} {o : Outcome σ α}
    (hs : e.backend = some s) (hcall : QuietCall call s o.state) : Quiet e (e.heard call o)
  | trans {e e' e'' : Engine σ} (first : Quiet e e') (second : Quiet e' e'') : Quiet e e''

/-- Bookkeeping that does not even show in the trace. -/
theorem Aside.of_trace {e e' : Engine σ} (hregistry : e'.registry = e.registry)
    (hglobal : e'.global = e.global) (hvalid : e'.isValid = e.isValid)
    (hcleanup : e'.inCleanup = e.inCleanup) (hbackend : e'.backend = e.backend)
    (htrace : e'.trace = e.trace) : Aside e e' :=
  ⟨hregistry, hglobal, hvalid, hcleanup, hbackend, [], by rw [htrace, List.append_nil], rfl⟩

theorem Aside.refl (e : Engine σ) : Aside e e :=
  .of_trace rfl rfl rfl rfl rfl rfl

section Preserved

variable [Backend σ] {e e' : Engine σ}

theorem Quiet.refl (e : Engine σ) : Quiet e e := .aside (.refl e)

/-- No quiet step reaches the registry. -/
theorem Quiet.registry (h : Quiet e e') : e'.registry = e.registry := by
  induction h with
  | aside h => exact h.registry
  | heard => rfl
  | trans _ _ first second => exact second.trans first

theorem Quiet.frame (h : Quiet e e') : Frame e e' := by
  induction h with
  | aside h => exact ⟨h.global, h.isValid, h.inCleanup, by rw [h.backend]⟩
  | heard hs => exact .heard hs _ _
  | trans _ _ first second => exact first.trans second

/-- A quiet step makes quiet calls only. -/
theorem Quiet.makes {P : Call → Prop}
    (hP : ∀ {call : Call} {s s' : σ}, QuietCall call s s' → P call) (h : Quiet e e') :
    Makes P e e' := by
  induction h with
  | aside h =>
    obtain ⟨events, htrace, hcalls⟩ := h.trace
    exact ⟨events, htrace, by simp [hcalls]⟩
  | heard _ hcall => exact .heard (hP hcall) _
  | trans _ _ first second => exact first.trans second

end Preserved

/-! ## Computations along a relation -/

/-- Running leads along a relation from the engine before to the engine afterwards. -/
def Along {β : Type} (R : Engine σ → Engine σ → Prop) (run : Engine σ → β × Engine σ) : Prop :=
  ∀ e, R e (run e).2

namespace Along

variable {α β : Type} {R : Engine σ → Engine σ → Prop} [IsPreorder (Engine σ) R]

theorem of_pure (a : α) : Along R (pure a : Attempt σ α) := fun e ↦ Std.Refl.refl e

theorem of_throw (failure : Failure) : Along R (throw failure : Attempt σ α) :=
  fun e ↦ Std.Refl.refl e

theorem of_return (a : α) : Along R (pure a : Action σ α) := fun e ↦ Std.Refl.refl e

theorem bind {x : Attempt σ α} {f : α → Attempt σ β} (hx : Along R x) (hf : ∀ a, Along R (f a)) :
    Along R (x >>= f) := by
  intro e
  have hfirst := hx e
  rw [run_bind]
  rcases hrun : x e with ⟨_ | a, e'⟩
  · rwa [hrun] at hfirst
  · rw [hrun] at hfirst
    exact IsTrans.trans _ _ _ hfirst (hf a e')

theorem act_bind {x : Action σ α} {f : α → Action σ β} (hx : Along R x)
    (hf : ∀ a, Along R (f a)) : Along R (x >>= f) :=
  fun e ↦ IsTrans.trans _ _ _ (hx e) (hf (x e).1 (x e).2)

/-- Replacing the result. -/
theorem of_bind_pure {x : Attempt σ α} (hx : Along R x) (b : β) :
    Along R (x >>= fun _ ↦ pure b) :=
  hx.bind fun _ ↦ .of_pure b

omit [IsPreorder (Engine σ) R] in
theorem get_bind {f : Engine σ → Attempt σ β} (hf : ∀ e, Along R (f e)) :
    Along R ((get : Attempt σ (Engine σ)) >>= f) :=
  fun e ↦ hf e e

omit [IsPreorder (Engine σ) R] in
theorem map (f : α → β) {x : Attempt σ α} (hx : Along R x) : Along R (f <$> x) := by
  intro e
  rw [run_map]
  exact hx e

omit [IsPreorder (Engine σ) R] in
theorem mono {S : Engine σ → Engine σ → Prop} (hRS : ∀ {e e'}, R e e' → S e e')
    {run : Engine σ → β × Engine σ} (h : Along R run) : Along S run :=
  fun e ↦ hRS (h e)

omit [IsPreorder (Engine σ) R] in
theorem of_surely {action : Action σ α} (h : Along R action) : Along R (surely action) := h

omit [IsPreorder (Engine σ) R] in
theorem of_modify {f : Engine σ → Engine σ} (h : ∀ e, R e (f e)) :
    Along R (modify f : Attempt σ Unit) := h

omit [IsPreorder (Engine σ) R] in
theorem of_act_modify {f : Engine σ → Engine σ} (h : ∀ e, R e (f e)) :
    Along R (modify f : Action σ Unit) := h

end Along

/-! ## Quiet computations -/

/-- Running leads by quiet steps to the engine afterwards. -/
def Quietly [Backend σ] {β : Type} (run : Engine σ → β × Engine σ) : Prop :=
  ∀ e, Quiet e (run e).2

namespace Quietly

variable [Backend σ] {α β : Type}

instance : IsPreorder (Engine σ) Quiet where
  refl := .refl
  trans _ _ _ := .trans

theorem of_pure (a : α) : Quietly (pure a : Attempt σ α) := Along.of_pure a

theorem of_throw (failure : Failure) : Quietly (throw failure : Attempt σ α) :=
  Along.of_throw failure

theorem bind {x : Attempt σ α} {f : α → Attempt σ β} (hx : Quietly x) (hf : ∀ a, Quietly (f a)) :
    Quietly (x >>= f) :=
  Along.bind hx hf

theorem act_bind {x : Action σ α} {f : α → Action σ β} (hx : Quietly x)
    (hf : ∀ a, Quietly (f a)) : Quietly (x >>= f) :=
  Along.act_bind hx hf

/-- What comes next may depend on the engine. -/
theorem get_bind {f : Engine σ → Attempt σ β} (hf : ∀ e, Quietly (f e)) :
    Quietly ((get : Attempt σ (Engine σ)) >>= f) :=
  Along.get_bind hf

theorem of_modify {f : Engine σ → Engine σ} (h : ∀ e, Aside e (f e)) :
    Quietly (modify f : Attempt σ Unit) :=
  fun e ↦ .aside (h e)

theorem of_act_modify {f : Engine σ → Engine σ} (h : ∀ e, Aside e (f e)) :
    Quietly (modify f : Action σ Unit) :=
  fun e ↦ .aside (h e)

theorem of_ask? {call : Call} {f : σ → Outcome σ α} (h : ∀ s, QuietCall call s (f s).state) :
    Quietly (ask? call f) := by
  intro e
  cases hs : e.backend with
  | none => rw [ask?_none hs]; exact .refl e
  | some s => rw [ask?_some hs]; exact .heard hs (h s)

theorem of_ask {call : Call} {f : σ → Outcome σ (Except Failure α)}
    (h : ∀ s, QuietCall call s (f s).state) : Quietly (ask call f) :=
  of_ask? h

end Quietly

/-! ## Quiet operations -/

variable [Backend σ]

theorem quietly_emit (event : Event) (h : event.call? = none) :
    Quietly (emit (σ := σ) event) := by
  apply Quietly.of_act_modify
  intro e
  refine ⟨rfl, rfl, rfl, rfl, rfl, [event], rfl, ?_⟩
  rw [callsOf, List.filterMap_cons_none h, List.filterMap_nil]

theorem quietly_clearException : Quietly (clearException (σ := σ)) := by
  apply Quietly.act_bind (Quietly.of_ask? .takePending)
  rintro (_ | _ | exception)
  · exact .refl
  · exact .refl
  · exact (quietly_emit _ rfl).act_bind fun _ ↦ .refl

theorem quietly_installOne (id : ClassId) : Quietly (installOne (σ := σ) id) := by
  apply Quietly.get_bind
  intro e
  dsimp only
  split
  · exact .of_pure ()
  · split
    · exact .of_throw _
    · next spec _ =>
      apply (Quietly.of_ask (QuietCall.installClass spec)).bind
      intro _
      exact .of_modify fun e ↦ .of_trace rfl rfl rfl rfl rfl rfl

theorem quietly_installAll (ids : List ClassId) : Quietly (installAll (σ := σ) ids) := by
  induction ids with
  | nil => exact .of_pure ()
  | cons id rest ih => exact (quietly_installOne id).bind fun _ ↦ ih

theorem quietly_performSimple {op : Operation} (h : op.isQuiet = true) :
    Quietly (performSimple (σ := σ) op) := by
  cases op with
  | start => exact .of_pure _
  | addBeforeHook name =>
    apply Quietly.bind _ fun _ ↦ .of_pure _
    exact .of_act_modify fun _ ↦ .of_trace rfl rfl rfl rfl rfl rfl
  | addAfterHook name =>
    apply Quietly.bind _ fun _ ↦ .of_pure _
    exact .of_act_modify fun _ ↦ .of_trace rfl rfl rfl rfl rfl rfl
  | addInitializer name =>
    intro e
    rw [performSimple_addInitializer]
    split <;> exact .aside (.of_trace rfl rfl rfl rfl rfl rfl)
  | clearException => exact quietly_clearException.bind fun _ ↦ .of_pure _
  | getProperty target key =>
    exact (Quietly.of_ask (.getProperty target key)).bind fun _ ↦ .of_pure _
  | setProperty target key value =>
    exact (Quietly.of_ask (.setProperty target key value)).bind fun _ ↦ .of_pure _
  | createClass name parent constructor =>
    intro e
    rw [performSimple_createClass]
    split <;> exact .aside (.of_trace rfl rfl rfl rfl rfl rfl)
  | defineFinalizer id tag =>
    intro e
    rw [performSimple_defineFinalizer]
    split <;> exact .aside (.of_trace rfl rfl rfl rfl rfl rfl)
  | installClass id =>
    apply Quietly.bind _ fun _ ↦ .of_pure _
    exact .get_bind fun _ ↦ quietly_installAll _
  | setListener mode =>
    apply Quietly.bind _ fun _ ↦ .of_pure _
    exact .of_act_modify fun _ ↦ .of_trace rfl rfl rfl rfl rfl rfl
  | nodeEvent native event =>
    intro e
    rw [performSimple_nodeEvent]
    split
    · exact .refl e
    · exact .aside ⟨rfl, rfl, rfl, rfl, rfl, _, rfl, rfl⟩
  | _ => cases h

end Engine

end ScriptBridge
