import ScriptBridge.Backend

/-!
# Reconciling the registry after a collection

When a backend asks for its weak references to be updated, the wrappers whose script object is gone
have to leave the registry. The pass first visits the mapped wrappers and decides which are doomed,
and only then removes them, so that no removal disturbs the visit. An unrooted wrapper is doomed if
the backend says that its object is gone; a rooted one is left alone, except during cleanup, when
its root is torn down and it is doomed as well.
-/

namespace ScriptBridge.Reconcile

variable {σ : Type} [Backend σ]

/-- A wrapper that has to go, with the handle to give back. -/
abbrev Doomed := WrapperId × Handle

/-- What a visit has found so far. -/
structure Visited (σ : Type) where
  doomed : List Doomed
  state : σ
  events : List Event

/-- Decides about one mapped wrapper. -/
def visit (registry : Registry) (inCleanup : Bool) (v : Visited σ) (id : WrapperId) :
    Visited σ :=
  match registry.get? id with
  | none => v
  | some w =>
    if w.isRooted then
      if inCleanup then
        let o := Backend.tearDown w.handle v.state
        ⟨v.doomed ++ [(id, w.handle)], o.state,
          v.events ++ .call (.tearDown w.handle) :: o.events.map Notice.event⟩
      else v
    else
      let o := Backend.queryDead w.handle v.state
      ⟨if o.result then v.doomed ++ [(id, w.handle)] else v.doomed, o.state,
        v.events ++ .call (.queryDead w.handle) :: o.events.map Notice.event⟩

/-- A registry on its way through the removals. -/
structure Sweep (σ : Type) where
  registry : Registry
  state : σ
  events : List Event

/-- Removes one doomed wrapper and gives its handle back. -/
def dismiss (s : Sweep σ) (d : Doomed) : Sweep σ :=
  let o := Backend.forget d.2 s.state
  ⟨((s.registry.clearRoots d.1).remove d.1).2, o.state,
    s.events ++ .call (.forget d.2) :: o.events.map Notice.event⟩

/-- The pass, visiting mapped wrappers in the given order. -/
def passIn (order : List (NativeId × WrapperId)) (registry : Registry) (inCleanup : Bool)
    (state : σ) : Sweep σ :=
  let v := (order.map Prod.snd).foldl (visit registry inCleanup) ⟨[], state, []⟩
  v.doomed.foldl dismiss ⟨registry, v.state, v.events⟩

/-- The pass, visiting wrappers by ascending native object. -/
def pass (registry : Registry) (inCleanup : Bool) (state : σ) : Sweep σ :=
  passIn registry.nativeEntries registry inCleanup state

/-- The log line of a collection phase. -/
def phaseEvent (registry : Registry) : Phase → Event
  | .begin => .log .debug ("GC begin: native map " ++ toString registry.nativeCount ++
      ", all objects " ++ toString registry.size)
  | .finish => .log .debug ("GC end: native map " ++ toString registry.nativeCount ++
      ", all objects " ++ toString registry.size)

/-- The end of an operation that reported collections. -/
structure Ending (σ α : Type) where
  result : α
  registry : Registry
  state : σ
  events : List Event

/-- Runs a report, reconciling the registry wherever the backend asks for it. `trace` are the
events so far. -/
def run {α : Type} (inCleanup : Bool) : Report σ α → Registry → List Event → Ending σ α
  | .done o, registry, trace =>
    ⟨o.result, registry, o.state, trace ++ o.events.map Notice.event⟩
  | .events es next, registry, trace =>
    run inCleanup next registry (trace ++ es.map Notice.event)
  | .phase p next, registry, trace =>
    run inCleanup next registry (trace ++ [phaseEvent registry p])
  | .update state resume, registry, trace =>
    let s := pass registry inCleanup state
    run inCleanup (resume s.state) s.registry (trace ++ s.events)

end ScriptBridge.Reconcile
