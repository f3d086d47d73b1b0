import ScriptBridge.Host
import ScriptBridge.Session.Step

/-!
# Sessions with a host

The host makes an engine when a step needs one. A step on the engine is noted with everything that
happened since the last entry, so the making of the engine shows in it.
-/

namespace ScriptBridge.Session

/-- A step of a session with a host. -/
inductive HostStep (ξ : Type) where
  | getInstance
  | hasInstance
  | peek
  | destroy
  | on (step : Step ξ)

/-- The answer to a step with a host. -/
inductive HostAnswer where
  | plain (shown : Shown)
  | attempt (result : Except Failure Shown)
  | entry (entry : Entry)

/-- An entry of the record of a host. -/
structure HostEntry where
  answer : HostAnswer
  events : List Event
  hasInstance : Bool

variable {φ σ ξ : Type} [Stage σ ξ]

/-- Takes a step with a host. -/
def HostStep.take (make : φ → Made φ σ) (host : Host φ σ) :
    HostStep ξ → HostAnswer × List Event × Host φ σ
  | .getInstance =>
    let (result, events, host) := host.getInstance make
    (.attempt (result.map fun () ↦ .flag (host.engine.any Engine.isValid)), events, host)
  | .hasInstance => (.plain (.flag host.hasInstance), [], host)
  | .peek =>
    (.plain (match host.engine with | some e => .flag e.isValid | none => .nothing), [], host)
  | .destroy =>
    let (events, host) := host.destroyInstance
    (.plain .nothing, events, host)
  | .on step =>
    let (result, events, host) := host.getInstance make
    match result, host.engine with
    | .error failure, _ => (.attempt (.error failure), events, host)
    | .ok (), none => (.attempt (.error .notInitialized), events, host)
    | .ok (), some engine =>
      let (entry, engine) := step.note engine
      (.entry { entry with events := events ++ entry.events }, [],
        { host with engine := some engine })

/-- Takes steps with a host, one after the other. -/
def takeAllHosted (make : φ → Made φ σ) (host : Host φ σ) :
    List (HostStep ξ) → List HostEntry × Host φ σ
  | [] => ([], host)
  | step :: rest =>
    let (answer, events, host) := step.take make host
    let entry : HostEntry := ⟨answer, events, host.hasInstance⟩
    let (entries, host) := takeAllHosted make host rest
    (entry :: entries, host)

/-- A session with a host, and what happened when it was dropped. -/
def conductHosted (make : φ → Made φ σ) (factory : φ) (steps : List (HostStep ξ)) :
    List HostEntry × List Event :=
  let (entries, host) := takeAllHosted make (.empty factory) steps
  (entries, host.destroyInstance.1)

/-- How a factory makes an engine for rehearsals. -/
structure RehearsalRecipe where
  /-- The factory itself fails. -/
  failure : Option Failure
  /-- The backend refuses its global object. -/
  globalFailure : Option Failure
  config : Config

/-- An engine for rehearsals in the default configuration. -/
def RehearsalRecipe.plain : RehearsalRecipe := ⟨none, none, .default⟩

/-- Makes engines for rehearsals by recipes, and plain ones when the recipes have run out. -/
def makeRehearsal : List RehearsalRecipe → Made (List RehearsalRecipe) Rehearsal
  | [] => fromRecipe .plain []
  | recipe :: rest => fromRecipe recipe rest
where
  /-- Makes an engine by one recipe. -/
  fromRecipe (recipe : RehearsalRecipe) (rest : List RehearsalRecipe) :
      Made (List RehearsalRecipe) Rehearsal :=
    match recipe.failure with
    | some failure => ⟨.error failure, [.factory], rest⟩
    | none =>
      let (result, events) := Engine.create (Rehearsal.create recipe.globalFailure) recipe.config
      ⟨result, .factory :: events, rest⟩

end ScriptBridge.Session
