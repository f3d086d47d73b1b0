import ScriptBridge.Engine.Objects

/-!
# The end of an engine

Cleanup runs once. Between the hooks it gives back the global object, forgets the classes, lets a
last collection tear down the rooted wrappers, releases whatever wrappers survived that, and shuts
the backend down.
-/

namespace ScriptBridge.Engine

variable {σ : Type} [Backend σ]

/-- Adds a hook to run before the next cleanup. -/
def addBeforeHook (name : String) : Action σ Unit :=
  modify fun e ↦ { e with beforeHooks := e.beforeHooks ++ [name] }

/-- Adds a hook to run after the next cleanup. -/
def addAfterHook (name : String) : Action σ Unit :=
  modify fun e ↦ { e with afterHooks := e.afterHooks ++ [name] }

/-- Queues a module initializer for the next start. -/
def addInitializer (name : String) : Attempt σ Unit := do
  if (← get).queue.contains name then throw .duplicateInitializer
  modify fun e ↦ { e with queue := e.queue ++ [name] }

/-- Runs the hooks that wait for a cleanup to begin. -/
def runBeforeHooks : Action σ Unit :=
  modify fun e ↦
    { e with trace := e.trace ++ e.beforeHooks.map .beforeCleanup, beforeHooks := [] }

/-- Runs the hooks that wait for a cleanup to end. -/
def runAfterHooks : Action σ Unit :=
  modify fun e ↦
    { e with trace := e.trace ++ e.afterHooks.map .afterCleanup, afterHooks := [] }

/-- Gives back the global object. -/
def releaseGlobal : Action σ Unit := do
  match (← get).global with
  | none => return
  | some global =>
    modify ({ · with global := none })
    let _ ← ask? (.release global) (Backend.release global)

/-- Gives back the handles of wrappers that are no longer registered. -/
def releaseAll : List Wrapper → Action σ Unit
  | [] => return
  | w :: rest => do
    let _ ← ask? (.release w.handle) (Backend.release w.handle)
    releaseAll rest

/-- The last weak pass; the wrappers that survive it are released as well. -/
def cleanupObjects : Action σ Unit := do
  collectGarbage
  let (leftovers, registry) := (← get).registry.drain
  modify ({ · with registry := registry })
  releaseAll leftovers

/-- Ends the backend. -/
def shutdownBackend : Action σ Unit := do
  let _ ← ask? .shutdown Backend.shutdown
  modify ({ · with backend := none })

/-- Tears the engine down, if it is valid. -/
def cleanup : Action σ Unit := do
  if (← get).isValid then
    modify ({ · with inCleanup := true })
    runBeforeHooks
    releaseGlobal
    modify fun e ↦ { e with catalog := e.catalog.clear }
    cleanupObjects
    shutdownBackend
    modify ({ · with isValid := false, started := false, listener := none, queue := [] })
    runAfterHooks
    modify ({ · with inCleanup := false })

end ScriptBridge.Engine
