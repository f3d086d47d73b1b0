import ScriptBridge.Engine.Operation
import ScriptBridge.Proofs.Registry.Edges

/-!
# Running attempts

Equations for what attempts do when they run, first for the combinators and for calls to the
backend, then for each operation on wrappers. They are stated by cases on what the operation looks
at, so that later proofs never open the operation itself.
-/

namespace ScriptBridge

/-- The failure says that a script object is gone. -/
def Failure.isGone : Failure → Bool
  | .unknownHandle _ => true
  | _ => false

namespace Engine

variable {σ α β : Type} {e : Engine σ}

/-! ## Combinators -/

theorem run_pure (a : α) (e : Engine σ) : (pure a : Attempt σ α) e = (.ok a, e) :=
  rfl

theorem run_throw (failure : Failure) (e : Engine σ) :
    (throw failure : Attempt σ α) e = (.error failure, e) :=
  rfl

theorem run_get (e : Engine σ) : (get : Attempt σ (Engine σ)) e = (.ok e, e) :=
  rfl

theorem run_modify (f : Engine σ → Engine σ) (e : Engine σ) :
    (modify f : Attempt σ Unit) e = (.ok (), f e) :=
  rfl

theorem run_surely (action : Action σ α) (e : Engine σ) :
    surely action e = (.ok (action e).1, (action e).2) :=
  rfl

theorem run_bind (x : Attempt σ α) (f : α → Attempt σ β) (e : Engine σ) :
    (x >>= f) e = match x e with
      | (.ok a, e') => f a e'
      | (.error failure, e') => (.error failure, e') := by
  simp only [bind, ExceptT.bind, ExceptT.mk, StateT.bind]
  rcases x e with ⟨_ | _, _⟩ <;> rfl

theorem run_map (f : α → β) (x : Attempt σ α) (e : Engine σ) :
    (f <$> x) e = ((x e).1.map f, (x e).2) := by
  simp only [Functor.map, ExceptT.map, ExceptT.mk, StateT.bind, bind]
  rcases x e with ⟨_ | _, _⟩ <;> rfl

/-- Replacing the result. -/
theorem run_return (x : Attempt σ α) (b : β) (e : Engine σ) :
    (x >>= fun _ ↦ pure b) e = ((x e).1.map fun _ ↦ b, (x e).2) := by
  rw [run_bind]
  rcases x e with ⟨_ | _, _⟩ <;> rfl

theorem map_eq_error_iff {f : α → β} {x : Except Failure α} {failure : Failure} :
    x.map f = .error failure ↔ x = .error failure := by
  cases x <;> simp [Except.map]

theorem act_bind (x : Action σ α) (f : α → Action σ β) (e : Engine σ) :
    (x >>= f) e = f (x e).1 (x e).2 :=
  rfl

theorem act_get (e : Engine σ) : (get : Action σ (Engine σ)) e = (e, e) :=
  rfl

theorem act_modify (f : Engine σ → Engine σ) (e : Engine σ) :
    (modify f : Action σ Unit) e = ((), f e) :=
  rfl

/-! ## Calls -/

theorem ask?_none (h : e.backend = none) (call : Call) (f : σ → Outcome σ α) :
    ask? call f e = (none, e) := by
  simp only [ask?, h]

theorem ask?_some {s : σ} (h : e.backend = some s) (call : Call) (f : σ → Outcome σ α) :
    ask? call f e = (some (f s).result, e.heard call (f s)) := by
  simp only [ask?, h]

theorem ask_eq (call : Call) (f : σ → Outcome σ (Except Failure α)) (e : Engine σ) :
    ask call f e = (answer (ask? call f e).1, (ask? call f e).2) :=
  rfl

theorem ask_none (h : e.backend = none) (call : Call) (f : σ → Outcome σ (Except Failure α)) :
    ask call f e = (.error .notInitialized, e) := by
  rw [ask_eq, ask?_none h]
  rfl

theorem ask_some {s : σ} (h : e.backend = some s) (call : Call)
    (f : σ → Outcome σ (Except Failure α)) :
    ask call f e = ((f s).result, e.heard call (f s)) := by
  rw [ask_eq, ask?_some h]
  rfl

section Heard

variable (e : Engine σ) (call : Call) (o : Outcome σ α)

@[simp]
theorem registry_heard : (e.heard call o).registry = e.registry :=
  rfl

@[simp]
theorem trace_heard : (e.heard call o).trace =
    e.trace ++ .call call :: o.events.map Notice.event :=
  rfl

end Heard

/-- No call of a backend reaches the registry. -/
@[simp]
theorem registry_ask? (call : Call) (f : σ → Outcome σ α) (e : Engine σ) :
    (ask? call f e).2.registry = e.registry := by
  cases h : e.backend with
  | none => rw [ask?_none h]
  | some s => rw [ask?_some h, registry_heard]

@[simp]
theorem registry_ask (call : Call) (f : σ → Outcome σ (Except Failure α)) (e : Engine σ) :
    (ask call f e).2.registry = e.registry := by
  rw [ask_eq, registry_ask?]

/-- What is around the wrappers is left as it was, whether there is a backend included. -/
structure Frame (e e' : Engine σ) : Prop where
  global : e'.global = e.global
  isValid : e'.isValid = e.isValid
  inCleanup : e'.inCleanup = e.inCleanup
  backend : e'.backend.isSome = e.backend.isSome

theorem Frame.refl (e : Engine σ) : Frame e e := ⟨rfl, rfl, rfl, rfl⟩

theorem Frame.trans {e e' e'' : Engine σ} (first : Frame e e') (second : Frame e' e'') :
    Frame e e'' :=
  ⟨second.global.trans first.global, second.isValid.trans first.isValid,
    second.inCleanup.trans first.inCleanup, second.backend.trans first.backend⟩

theorem Frame.withRegistry {e e' : Engine σ} (h : Frame e e') (r : Registry) :
    Frame e { e' with registry := r } :=
  ⟨h.global, h.isValid, h.inCleanup, h.backend⟩

theorem Frame.heard {s : σ} (hs : e.backend = some s) (call : Call) (o : Outcome σ α) :
    Frame e (e.heard call o) :=
  ⟨rfl, rfl, rfl, by rw [hs]; rfl⟩

theorem frame_ask? (call : Call) (f : σ → Outcome σ α) (e : Engine σ) :
    Frame e (ask? call f e).2 := by
  cases hs : e.backend with
  | none => rw [ask?_none hs]; exact .refl e
  | some s => rw [ask?_some hs]; exact .heard hs call (f s)

/-! ## Calls between two engines -/

/-- What has happened from one engine to a later one includes only calls with a property. -/
def Makes (P : Call → Prop) (e e' : Engine σ) : Prop :=
  ∃ events, e'.trace = e.trace ++ events ∧ ∀ call ∈ callsOf events, P call

/-- The calls made from one engine to a later one, in order. -/
def callsSince (e e' : Engine σ) : List Call := callsOf (e'.trace.drop e.trace.length)

theorem callsSince_eq {e e' : Engine σ} {events : List Event}
    (h : e'.trace = e.trace ++ events) : callsSince e e' = callsOf events := by
  rw [callsSince, h, List.drop_left]

theorem callsSince_of_trace {e e' : Engine σ} (h : e'.trace = e.trace) : callsSince e e' = [] := by
  rw [callsSince, h, List.drop_length, callsOf_nil]

namespace Makes

variable {P Q : Call → Prop} {e e' e'' : Engine σ}

theorem of_trace (h : e'.trace = e.trace) : Makes P e e' :=
  ⟨[], by rw [h, List.append_nil], by simp⟩

theorem refl (e : Engine σ) : Makes P e e := of_trace rfl

theorem trans (first : Makes P e e') (second : Makes P e' e'') : Makes P e e'' := by
  obtain ⟨events, htrace, hcalls⟩ := first
  obtain ⟨later, htrace', hcalls'⟩ := second
  have hboth : e''.trace = e.trace ++ (events ++ later) := calc
    e''.trace = e'.trace ++ later := htrace'
    _ = e.trace ++ events ++ later := by rw [htrace]
    _ = e.trace ++ (events ++ later) := List.append_assoc _ _ _
  refine ⟨events ++ later, hboth, ?_⟩
  intro call hmem
  rw [callsOf_append, List.mem_append] at hmem
  exact hmem.elim (hcalls call) (hcalls' call)

theorem mono (h : Makes P e e') (hPQ : ∀ call, P call → Q call) : Makes Q e e' := by
  obtain ⟨events, htrace, hcalls⟩ := h
  exact ⟨events, htrace, fun call hmem ↦ hPQ call (hcalls call hmem)⟩

theorem heard {call : Call} (h : P call) (o : Outcome σ α) : Makes P e (e.heard call o) :=
  ⟨_, rfl, by simpa using h⟩

theorem ask? {call : Call} (h : P call) (f : σ → Outcome σ α) (e : Engine σ) :
    Makes P e (ask? call f e).2 := by
  cases hs : e.backend with
  | none => rw [ask?_none hs]; exact refl e
  | some s => rw [ask?_some hs]; exact heard h (f s)

/-- Every call made has the property. -/
theorem of_mem_callsSince (h : Makes P e e') {call : Call} (hmem : call ∈ callsSince e e') :
    P call := by
  obtain ⟨events, htrace, hcalls⟩ := h
  rw [callsSince_eq htrace] at hmem
  exact hcalls call hmem

end Makes

/-! ## Operations on wrappers -/

/-- The wrapper that a native object has. -/
def current? (e : Engine σ) (native : NativeId) : Option (WrapperId × Wrapper) := do
  let id ← e.registry.find? native
  let w ← e.registry.get? id
  some (id, w)

theorem current?_congr {e e' : Engine σ} (h : e'.registry = e.registry) (native : NativeId) :
    e'.current? native = e.current? native := by
  simp only [current?, h]

theorem current?_eq_some_iff {native : NativeId} {id : WrapperId} {w : Wrapper} :
    e.current? native = some (id, w) ↔
      e.registry.find? native = some id ∧ e.registry.get? id = some w := by
  simp only [current?, Option.bind_eq_bind, Option.bind_eq_some_iff, Option.some.injEq,
    Prod.mk.injEq]
  constructor
  · rintro ⟨id, hfind, w, hget, rfl, rfl⟩
    exact ⟨hfind, hget⟩
  · rintro ⟨hfind, hget⟩
    exact ⟨id, hfind, w, hget, rfl, rfl⟩

theorem wrapperOf_eq (native : NativeId) (e : Engine σ) : wrapperOf native e =
    match e.current? native with
    | none => (.error (.unknownNative native), e)
    | some (id, w) => (.ok (id, w.handle), e) := by
  simp only [wrapperOf, current?, run_bind, run_get]
  cases e.registry.find? native with
  | none => rfl
  | some id => cases h : e.registry.get? id <;> simp [h, run_pure, run_throw]

variable [Backend σ]

theorem rootObject_eq (native : NativeId) (e : Engine σ) : rootObject native e =
    match e.current? native with
    | none => (.error (.unknownNative native), e)
    | some (id, w) =>
      let counted := { e with registry := (e.registry.root id).2 }
      if w.roots = 0 then ask (.root w.handle) (Backend.root w.handle) counted
      else (.ok (), counted) := by
  simp only [rootObject, run_bind, wrapperOf_eq]
  cases h : e.current? native with
  | none => rfl
  | some found =>
    obtain ⟨id, w⟩ := found
    have hcount := Registry.root_fst (current?_eq_some_iff.mp h).2
    simp only [run_get, run_modify, hcount, Option.some.injEq, Wrapper.roots_addRoot_eq_one_iff]
    split <;> rfl

theorem unrootObject_eq (native : NativeId) (e : Engine σ) : unrootObject native e =
    match e.current? native with
    | none => (.error (.unknownNative native), e)
    | some (id, w) =>
      let counted := { e with registry := (e.registry.unroot id).2 }
      if w.roots = 0 then (.ok (), e)
      else if w.roots = 1 then ask (.unroot w.handle) (Backend.unroot w.handle) counted
      else (.ok (), counted) := by
  simp only [unrootObject, run_bind, wrapperOf_eq]
  cases h : e.current? native with
  | none => rfl
  | some found =>
    obtain ⟨id, w⟩ := found
    have hget := (current?_eq_some_iff.mp h).2
    have hcount := Registry.unroot_fst hget
    simp only [run_get, hget, Option.any_some, Wrapper.isRooted, decide_eq_true_eq]
    by_cases hzero : w.roots = 0
    · simp only [hzero, Nat.lt_irrefl, if_false, if_true]
      rfl
    · have hlast : w.roots - 1 = 0 ↔ w.roots = 1 := by omega
      simp only [Nat.pos_of_ne_zero hzero, hzero, if_true, if_false, run_bind, run_modify, hcount,
        Option.some.injEq, hlast]
      split <;> rfl

theorem setPrivateData_eq (native : NativeId) (payload : Payload) (e : Engine σ) :
    setPrivateData native payload e =
      match e.current? native with
      | none => (.error (.unknownNative native), e)
      | some (id, w) =>
        let asked := ask (.setPrivateData w.handle payload.finalizer.isSome)
          (Backend.setPrivateData w.handle payload) e
        match asked.1 with
        | .ok _ => (.ok (), { asked.2 with registry := asked.2.registry.markPrivateData id })
        | .error failure => (.error failure, asked.2) := by
  simp only [setPrivateData, run_bind, wrapperOf_eq]
  rcases e.current? native with _ | ⟨id, w⟩
  · rfl
  · simp only [run_modify]
    rcases ask (.setPrivateData w.handle payload.finalizer.isSome)
      (Backend.setPrivateData w.handle payload) e with ⟨_ | _, _⟩ <;> rfl

omit [Backend σ] in
theorem endpoints?_eq (owner target : NativeId) (e : Engine σ) : e.endpoints? owner target =
    match e.current? owner, e.current? target with
    | some (o, ow), some (t, tw) => some ⟨o, ow.handle, t, tw.handle⟩
    | _, _ => none := by
  simp only [endpoints?, current?]
  cases ho : e.registry.find? owner <;> cases ht : e.registry.find? target <;> try rfl
  · next id => cases hw : e.registry.get? id <;> simp [hw]
  · next id other =>
    cases hw : e.registry.get? id <;> cases hv : e.registry.get? other <;> simp [hw, hv]

theorem retain_eq (owner target : NativeId) (e : Engine σ) : retain owner target e =
    match e.endpoints? owner target with
    | none => (.ok (), e)
    | some ends =>
      let asked := ask (.attachChild ends.ownerHandle ends.targetHandle)
        (Backend.attachChild ends.ownerHandle ends.targetHandle) (clearException e).2
      match asked.1 with
      | .ok _ => (.ok (), { asked.2 with
          registry := (asked.2.registry.attach ends.owner ends.target).2 })
      | .error failure =>
        if failure.isGone then (.ok (), asked.2) else (.error failure, asked.2) := by
  simp only [retain, run_bind, run_get]
  cases e.endpoints? owner target with
  | none => rfl
  | some ends =>
    simp only [run_bind, run_surely, ask_eq]
    rcases ask? (.attachChild ends.ownerHandle ends.targetHandle)
      (Backend.attachChild ends.ownerHandle ends.targetHandle) (clearException e).2 with ⟨o, e'⟩
    rcases answer o with failure | _
    · cases failure <;> rfl
    · rfl

theorem unretain_eq (owner target : NativeId) (e : Engine σ) : unretain owner target e =
    match e.endpoints? owner target with
    | none => (.ok (), e)
    | some ends =>
      let asked := ask (.detachChild ends.ownerHandle ends.targetHandle)
        (Backend.detachChild ends.ownerHandle ends.targetHandle) (clearException e).2
      let detached : Engine σ :=
        { asked.2 with registry := (asked.2.registry.detach ends.owner ends.target).2 }
      match asked.1 with
      | .ok _ => (.ok (), detached)
      | .error failure =>
        if failure.isGone then (.ok (), detached) else (.error failure, asked.2) := by
  simp only [unretain, run_bind, run_get]
  cases e.endpoints? owner target with
  | none => rfl
  | some ends =>
    simp only [run_bind, run_surely, ask_eq]
    rcases ask? (.detachChild ends.ownerHandle ends.targetHandle)
      (Backend.detachChild ends.ownerHandle ends.targetHandle) (clearException e).2 with ⟨o, e'⟩
    rcases answer o with failure | _
    · cases failure <;> rfl
    · rfl

/-! ## Wrapping -/

theorem settleRoot_true (handle : Handle) (e : Engine σ) : settleRoot handle true e =
    (if e.backend.isNone then .error .notInitialized else .ok (), e) := by
  simp only [settleRoot, requireBackend, if_true, run_bind, run_get]
  split <;> rfl

theorem settleRoot_false (handle : Handle) (e : Engine σ) :
    settleRoot handle false e = ask (.unroot handle) (Backend.unroot handle) e :=
  rfl

@[simp]
theorem registry_settleRoot (handle : Handle) (rooted : Bool) (e : Engine σ) :
    (settleRoot handle rooted e).2.registry = e.registry := by
  cases rooted with
  | true => rw [settleRoot_true]
  | false => rw [settleRoot_false, registry_ask]

/-- What is dismissed is the present wrapper of the native object. -/
theorem dismissPrevious_eq (native : NativeId) (e : Engine σ) : dismissPrevious native e =
    match e.current? native with
    | none => ((), e)
    | some (id, w) =>
      ((), (ask? (.release w.handle) (Backend.release w.handle)
        { e with registry := (e.registry.remove id).2 }).2) := by
  simp only [dismissPrevious, current?, act_bind, act_get]
  cases hfind : e.registry.find? native with
  | none => rfl
  | some id =>
    have hfst := Registry.remove_fst e.registry id
    cases hget : e.registry.get? id with
    | none =>
      simp only [act_bind, act_get, act_modify, Registry.remove_of_unknown hget, hget,
        Option.bind_eq_bind, Option.bind_some, Option.bind_none]
      rfl
    | some w =>
      rw [hget] at hfst
      simp only [act_bind, act_get, act_modify, hfst, hget, Option.bind_eq_bind, Option.bind_some]
      rfl

theorem wrapNative_eq (native : NativeId) (handle : Handle) (rooted : Bool) (e : Engine σ) :
    wrapNative native handle rooted e =
      match e.wrappedAs? native handle with
      | some id => (.ok id, e)
      | none =>
        let settled := settleRoot handle rooted e
        match settled.1 with
        | .error failure => (.error failure, settled.2)
        | .ok _ =>
          let dismissed := (dismissPrevious native settled.2).2
          (.ok ⟨dismissed.registry.next⟩, { dismissed with
            registry := (dismissed.registry.insert native handle rooted).2 }) := by
  simp only [wrapNative, run_bind, run_get]
  cases e.wrappedAs? native handle with
  | some id => rfl
  | none =>
    simp only [run_bind, run_surely]
    rcases settleRoot handle rooted e with ⟨_ | _, _⟩ <;> rfl

theorem createObject_eq (native : NativeId) (e : Engine σ) : createObject native e =
    let asked := ask .createObject Backend.createObject e
    match asked.1 with
    | .error failure => (.error failure, asked.2)
    | .ok handle => wrapNative native handle true asked.2 := by
  simp only [createObject, run_bind]
  rcases ask .createObject Backend.createObject e with ⟨_ | _, _⟩ <;> rfl

/-! ## Values -/

theorem releaseValue_eq (value : Value) (e : Engine σ) : releaseValue value e =
    match value.asObject? with
    | none => ((), e)
    | some handle =>
      if e.owns handle then ((), e)
      else ((), (ask? (.release handle) (Backend.release handle) e).2) := by
  simp only [releaseValue]
  cases value.asObject? with
  | none => rfl
  | some handle =>
    exact apply_ite (fun run : Action σ Unit ↦ run e) (e.owns handle = true) (pure ()) _

/-! ## Operations that ask no backend -/

/-- A name that is queued is refused, any other one goes to the end of the queue. -/
theorem performSimple_addInitializer (name : String) (e : Engine σ) :
    performSimple (.addInitializer name) e =
      if name ∈ e.queue then (.error .duplicateInitializer, e)
      else (.ok .unit, { e with queue := e.queue ++ [name] }) := by
  rw [performSimple, run_return]
  simp only [addInitializer, run_bind, run_get, List.contains_iff_mem]
  split <;> rfl

omit [Backend σ] in
theorem createClass_eq (name : String) (parent : Option ClassId)
    (constructor : Option NativeConstructor) (e : Engine σ) :
    createClass name parent constructor e =
      match e.catalog.create name parent constructor with
      | .ok (id, catalog) => (.ok id, { e with catalog := catalog })
      | .error failure => (.error failure, e) := by
  simp only [createClass, run_bind, run_get]
  cases e.catalog.create name parent constructor <;> rfl

theorem performSimple_createClass (name : String) (parent : Option ClassId)
    (constructor : Option NativeConstructor) (e : Engine σ) :
    performSimple (.createClass name parent constructor) e =
      match e.catalog.create name parent constructor with
      | .ok (id, catalog) => (.ok (.class id), { e with catalog := catalog })
      | .error failure => (.error failure, e) := by
  rw [performSimple, run_map, createClass_eq]
  cases e.catalog.create name parent constructor <;> rfl

theorem performSimple_defineFinalizer (id : ClassId) (tag : String) (e : Engine σ) :
    performSimple (.defineFinalizer id tag) e =
      match e.catalog.defineFinalizer id tag with
      | .ok catalog => (.ok .unit, { e with catalog := catalog })
      | .error failure => (.error failure, e) := by
  simp only [performSimple, defineFinalizer, run_bind, run_get]
  cases e.catalog.defineFinalizer id tag <;> rfl

/-- A listener counts the events that it is handed. -/
theorem performSimple_nodeEvent (native : NativeId) (event : NodeEvent) (e : Engine σ) :
    performSimple (.nodeEvent native event) e =
      match e.listener with
      | none => (.error .noListener, e)
      | some listener =>
        let count := listener.calls + 1
        (.ok (.flag (listener.mode.answer event count)), { e with
          listener := some { listener with calls := count }
          trace := e.trace ++ [.node listener.mode native event count] }) := by
  simp only [performSimple, run_map, receiveNodeEvent, run_bind, run_get]
  cases e.listener <;> rfl

end Engine

end ScriptBridge
