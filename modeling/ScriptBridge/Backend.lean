import ScriptBridge.Class.Catalog
import ScriptBridge.Event

/-!
# Backends

A backend is an embedded script engine as the bridge drives it. Its operations are functions on
its state; each gives a result, the state it leaves behind, also when it fails, and the events it
caused.

Two operations report collections while they run. Instead of a result they give a `Report`: the
events and collection phases on the way, the points at which native code must update its weak
references, and at last the result. At such a point the backend hands out its state, and resumes
with whatever state the update leaves. A backend may report any number of collections, but nothing
of the bridge's own bookkeeping can reach it.
-/

namespace ScriptBridge

/-- What an operation leaves behind. -/
structure Outcome (σ α : Type) where
  result : α
  state : σ
  events : List Notice

/-- The phases of a collection that are reported. -/
inductive Phase where
  | begin
  | finish
  deriving DecidableEq, Repr

/-- The course of an operation that may report collections. -/
inductive Report (σ α : Type) where
  | done (outcome : Outcome σ α)
  | events (events : List Notice) (next : Report σ α)
  | phase (phase : Phase) (next : Report σ α)
  /-- Native code updates its weak references against the state. -/
  | update (state : σ) (resume : σ → Report σ α)

namespace Report

/-- A collection cycle: the two phases around one update. -/
def cycle {σ α : Type} (state : σ) (next : σ → Report σ α) : Report σ α :=
  .phase .begin (.update state fun s ↦ .phase .finish (next s))

/-- Runs a report for a caller who ignores collections. -/
def ignoring {σ α : Type} : Report σ α → Outcome σ α
  | .done outcome => outcome
  | .events es next =>
    let outcome := next.ignoring
    { outcome with events := es ++ outcome.events }
  | .phase _ next => next.ignoring
  | .update state resume => (resume state).ignoring

end Report

/-- A native payload for a script object, and the tag under which its end is reported. -/
structure Payload where
  text : String
  finalizer : Option String
  deriving DecidableEq, Repr

/-- What the bridge needs from an embedded script engine, with states in `σ`.

Handles given out are rooted: they keep their script object alive until `unroot` or `release`. -/
class Backend (σ : Type) where
  /-- Compiles and runs a source in the global scope. An exception that is not caught is left
  pending. -/
  evaluate : Script.Source → String → σ → Report σ (Except Failure Value)
  hasPending : σ → Bool
  /-- Takes the pending exception and diagnoses it. -/
  takePending : σ → Outcome σ (Option ScriptException)
  /-- Runs a full collection. -/
  collect : σ → Report σ Unit
  globalObject : σ → Outcome σ (Except Failure Handle)
  createObject : σ → Outcome σ (Except Failure Handle)
  getProperty : Handle → String → σ → Outcome σ (Except Failure Value)
  setProperty : Handle → String → Value → σ → Outcome σ (Except Failure Unit)
  root : Handle → σ → Outcome σ (Except Failure Unit)
  unroot : Handle → σ → Outcome σ (Except Failure Unit)
  /-- Forgets a handle. Unknown handles are ignored. -/
  release : Handle → σ → Outcome σ Unit
  /-- Makes an owner keep a child alive inside the script heap. -/
  attachChild : Handle → Handle → σ → Outcome σ (Except Failure Unit)
  detachChild : Handle → Handle → σ → Outcome σ (Except Failure Unit)
  /-- Attaches a payload, which is finalized when its object is gone. -/
  setPrivateData : Handle → Payload → σ → Outcome σ (Except Failure Unit)
  /-- Makes the constructor of a class visible on the global object. -/
  installClass : ClassSpec → σ → Outcome σ (Except Failure Unit)
  /-- Releases every handle and ends the script engine. -/
  shutdown : σ → Outcome σ Unit
  /-- During an update: whether the script object behind a handle is gone. -/
  queryDead : Handle → σ → Outcome σ Bool
  /-- During an update: drops the root of a handle. -/
  tearDown : Handle → σ → Outcome σ Unit
  /-- During an update: forgets a handle. -/
  forget : Handle → σ → Outcome σ Unit

end ScriptBridge
