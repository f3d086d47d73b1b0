import ScriptBridge.Engine.Reconcile

/-!
# The script engine as the bridge holds it

An engine owns a backend, the registry of wrappers, the catalog of classes and the lifecycle around
them. Its operations are state transformers; one that fails still leaves the state it had reached.
Every call to the backend goes through `ask?`, which notes the call and what it caused.
-/

namespace ScriptBridge

/-- A node listener, which counts its calls. -/
structure Listener where
  mode : ListenerMode
  calls : Nat
  deriving DecidableEq, Repr

/-- A script engine over a backend with states in `σ`. -/
structure Engine (σ : Type) where
  registry : Registry
  catalog : Catalog
  global : Option Handle
  config : Config
  isValid : Bool
  inCleanup : Bool
  /-- Whether the module initializers were run. -/
  started : Bool
  listener : Option Listener
  beforeHooks : List String
  afterHooks : List String
  /-- The module initializers for the next start, by name. -/
  queue : List String
  backend : Option σ
  /-- What has happened, in order. -/
  trace : List Event

/-- An operation that always gives a result. -/
abbrev Action (σ : Type) := StateM (Engine σ)

/-- An operation that may fail. -/
abbrev Attempt (σ : Type) := ExceptT Failure (Action σ)

namespace Engine

variable {σ : Type}

/-- An action as an attempt that does not fail. -/
def surely {α : Type} (action : Action σ α) : Attempt σ α := ExceptT.lift action

/-- Notes an event. -/
def emit (event : Event) : Action σ Unit :=
  modify fun e ↦ { e with trace := e.trace ++ [event] }

/-- Gives the events so far and begins a new trace. -/
def takeTrace : Action σ (List Event) :=
  modifyGet fun e ↦ (e.trace, { e with trace := [] })

/-- The engine after its backend has carried out a call. -/
def heard {α : Type} (e : Engine σ) (call : Call) (o : Outcome σ α) : Engine σ :=
  { e with
    backend := some o.state
    trace := e.trace ++ .call call :: o.events.map Notice.event }

/-- Calls the backend, if there is one. -/
def ask? {α : Type} (call : Call) (f : σ → Outcome σ α) : Action σ (Option α) := fun e ↦
  match e.backend with
  | none => (none, e)
  | some state => (some (f state).result, e.heard call (f state))

/-- The result of a call that may fail; without a backend the engine is not initialized. -/
def answer {α : Type} : Option (Except Failure α) → Except Failure α
  | some result => result
  | none => .error .notInitialized

/-- Calls the backend, failing without one. -/
def ask {α : Type} (call : Call) (f : σ → Outcome σ (Except Failure α)) : Attempt σ α :=
  ExceptT.mk do return answer (← ask? call f)

/-- The end of a report that a call has begun. -/
def follow [Backend σ] {α : Type} (e : Engine σ) (call : Call) (report : Report σ α) :
    Reconcile.Ending σ α :=
  Reconcile.run e.inCleanup report e.registry (e.trace ++ [.call call])

/-- The engine after a report has ended. -/
def reconciled {α : Type} (e : Engine σ) (ending : Reconcile.Ending σ α) : Engine σ :=
  { e with
    backend := some ending.state
    registry := ending.registry
    trace := ending.events }

/-- Makes a call that may report collections, and reconciles the registry with them. -/
def askReporting? [Backend σ] {α : Type} (call : Call) (f : σ → Report σ α) :
    Action σ (Option α) := fun e ↦
  match e.backend with
  | none => (none, e)
  | some state =>
    (some (e.follow call (f state)).result, e.reconciled (e.follow call (f state)))

/-- An engine around a backend. If the backend has no global object it is shut down at once. Also
gives what happened on the way. -/
def create [Backend σ] (state : σ) (config : Config) :
    Except Failure (Engine σ) × List Event :=
  let o := Backend.globalObject state
  let trace := .call .globalObject :: o.events.map Notice.event
  match o.result with
  | .ok global =>
    (.ok { registry := .empty
           catalog := .empty
           global := some global
           config := config
           isValid := true
           inCleanup := false
           started := false
           listener := none
           beforeHooks := []
           afterHooks := []
           queue := []
           backend := some o.state
           trace := [] }, trace)
  | .error failure =>
    (.error (.setup failure.message),
      trace ++ .call .shutdown :: (Backend.shutdown o.state).events.map Notice.event)

/-- Whether an exception is pending. -/
def hasPendingException [Backend σ] (e : Engine σ) : Bool := e.backend.any Backend.hasPending

end Engine

end ScriptBridge
