import ScriptBridge.Engine.Lifecycle

/-!
# A slot for one engine

A host builds its engine when it is first asked for one and keeps it until it is told to destroy
it. If the factory fails, the slot stays empty and the next request tries again.
-/

namespace ScriptBridge

/-- What a factory makes: an engine or a failure, the events on the way, and its own next state. -/
structure Made (φ σ : Type) where
  result : Except Failure (Engine σ)
  events : List Event
  factory : φ

/-- A slot for one engine, with a factory whose states are in `φ`. -/
structure Host (φ σ : Type) where
  engine : Option (Engine σ)
  factory : φ

namespace Host

variable {φ σ : Type}

/-- An empty slot. -/
def empty (factory : φ) : Host φ σ := ⟨none, factory⟩

/-- Fills the slot if it is empty. Gives a failure of the factory, and what happened. -/
def getInstance (make : φ → Made φ σ) (host : Host φ σ) :
    Except Failure Unit × List Event × Host φ σ :=
  match host.engine with
  | some _ => (.ok (), [], host)
  | none =>
    let made := make host.factory
    match made.result with
    | .ok engine => (.ok (), made.events, ⟨some engine, made.factory⟩)
    | .error failure =>
      (.error failure,
        made.events ++
          [.log .error ("Script engine initialization failed: " ++ failure.message)],
        ⟨none, made.factory⟩)

def hasInstance (host : Host φ σ) : Bool := host.engine.isSome

/-- Cleans the engine up and empties the slot. Gives what happened. -/
def destroyInstance [Backend σ] (host : Host φ σ) : List Event × Host φ σ :=
  match host.engine with
  | none => ([], host)
  | some engine => ((Engine.cleanup engine).2.trace, ⟨none, host.factory⟩)

end Host

end ScriptBridge
