import ScriptBridge.Engine.Basic

/-!
# Offering classes to scripts

Installing a class first installs its ancestors, from the root downwards, passing over those that
are installed already. The first refusal of the backend ends the installation; what was installed
by then stays installed.
-/

namespace ScriptBridge.Engine

variable {σ : Type} [Backend σ]

/-- Adds a class to the catalog. -/
def createClass (name : String) (parent : Option ClassId) (constructor : Option NativeConstructor) :
    Attempt σ ClassId := do
  match (← get).catalog.create name parent constructor with
  | .ok (id, catalog) =>
    modify ({ · with catalog := catalog })
    return id
  | .error failure => throw failure

/-- Replaces the finalizer of a class. -/
def defineFinalizer (id : ClassId) (tag : String) : Attempt σ Unit := do
  match (← get).catalog.defineFinalizer id tag with
  | .ok catalog => modify ({ · with catalog := catalog })
  | .error failure => throw failure

/-- Installs one class unless it is installed. -/
def installOne (id : ClassId) : Attempt σ Unit := do
  let catalog := (← get).catalog
  if catalog.isInstalled id then return
  match catalog.spec? id with
  | none => throw (.unknownClass id)
  | some spec =>
    ask (.installClass spec.name spec.parent spec.constructor.isSome spec.finalizer.isSome)
      (Backend.installClass spec)
    modify fun e ↦ { e with catalog := e.catalog.markInstalled id }

/-- Installs classes one after the other. -/
def installAll : List ClassId → Attempt σ Unit
  | [] => return
  | id :: rest => do
    installOne id
    installAll rest

/-- Makes a class visible to scripts, after its ancestors. -/
def installClass (id : ClassId) : Attempt σ Unit := do
  installAll ((← get).catalog.lineage id)

end ScriptBridge.Engine
