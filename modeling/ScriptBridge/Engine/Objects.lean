import ScriptBridge.Engine.Execution

/-!
# Wrappers, roots and ownership edges

These operations keep the registry and the script heap in step: a root count that leaves or
reaches zero roots or unroots the handle, and an edge between wrappers is also an edge between
their script objects.
-/

namespace ScriptBridge.Engine

variable {σ : Type} [Backend σ]

/-- Runs a full collection and reconciles the registry. -/
def collectGarbage : Action σ Unit := do
  let _ ← askReporting? .collect Backend.collect

/-- The wrappers and handles at the two ends of an edge. -/
structure Endpoints where
  owner : WrapperId
  ownerHandle : Handle
  target : WrapperId
  targetHandle : Handle

def endpoints? (e : Engine σ) (owner target : NativeId) : Option Endpoints := do
  let o ← e.registry.find? owner
  let t ← e.registry.find? target
  let ow ← e.registry.get? o
  let tw ← e.registry.get? t
  pure ⟨o, ow.handle, t, tw.handle⟩

/-- Lets a native object keep another one alive. Objects without wrapper are ignored, and so is a
script object that is gone. -/
def retain (owner target : NativeId) : Attempt σ Unit := do
  match (← get).endpoints? owner target with
  | none => return
  | some ends =>
    let _ ← surely clearException
    match answer (← surely (ask? (.attachChild ends.ownerHandle ends.targetHandle)
        (Backend.attachChild ends.ownerHandle ends.targetHandle))) with
    | .ok () => modify fun e ↦ { e with registry := (e.registry.attach ends.owner ends.target).2 }
    | .error (.unknownHandle _) => return
    | .error failure => throw failure

/-- Undoes `retain`. -/
def unretain (owner target : NativeId) : Attempt σ Unit := do
  match (← get).endpoints? owner target with
  | none => return
  | some ends =>
    let _ ← surely clearException
    match answer (← surely (ask? (.detachChild ends.ownerHandle ends.targetHandle)
        (Backend.detachChild ends.ownerHandle ends.targetHandle))) with
    | .ok () | .error (.unknownHandle _) =>
      modify fun e ↦ { e with registry := (e.registry.detach ends.owner ends.target).2 }
    | .error failure => throw failure

/-- The wrapper of a native object, if it has the given handle. -/
def wrappedAs? (e : Engine σ) (native : NativeId) (handle : Handle) : Option WrapperId := do
  let id ← e.registry.find? native
  if (e.registry.get? id).map Wrapper.handle = some handle then some id else none

/-- Makes sure that there is a backend. -/
def requireBackend : Attempt σ Unit := do
  if (← get).backend.isNone then throw .notInitialized

/-- Takes the root of a handle away, unless it is to stay rooted. -/
def settleRoot (handle : Handle) (rooted : Bool) : Attempt σ Unit :=
  if rooted then requireBackend else ask (.unroot handle) (Backend.unroot handle)

/-- Removes the wrapper that a native object had before, giving back its handle. -/
def dismissPrevious (native : NativeId) : Action σ Unit := do
  match (← get).registry.find? native with
  | none => return
  | some id =>
    let (removed, registry) := (← get).registry.remove id
    modify ({ · with registry := registry })
    match removed with
    | none => return
    | some w => let _ ← ask? (.release w.handle) (Backend.release w.handle)

/-- Records a wrapper. -/
def register (native : NativeId) (handle : Handle) (rooted : Bool) : Action σ WrapperId :=
  modifyGet fun e ↦
    let (id, registry) := e.registry.insert native handle rooted
    (id, { e with registry := registry })

/-- Registers a script object for a native object, taking over the handle. Wrapping again with the
same handle changes nothing; another handle replaces the wrapper. -/
def wrapNative (native : NativeId) (handle : Handle) (rooted : Bool) : Attempt σ WrapperId := do
  match (← get).wrappedAs? native handle with
  | some id => return id
  | none =>
    settleRoot handle rooted
    surely (dismissPrevious native)
    surely (register native handle rooted)

/-- Creates a plain script object for a native object, rooted. -/
def createObject (native : NativeId) : Attempt σ WrapperId := do
  let handle ← ask .createObject Backend.createObject
  wrapNative native handle true

/-- The wrapper of a native object and its handle. -/
def wrapperOf (native : NativeId) : Attempt σ (WrapperId × Handle) := do
  let registry := (← get).registry
  match registry.find? native with
  | none => throw (.unknownNative native)
  | some id =>
    match registry.get? id with
    | none => throw (.unknownNative native)
    | some w => return (id, w.handle)

/-- Adds a root. The first one roots the handle. -/
def rootObject (native : NativeId) : Attempt σ Unit := do
  let (id, handle) ← wrapperOf native
  let (count, registry) := (← get).registry.root id
  modify ({ · with registry := registry })
  if count = some 1 then ask (.root handle) (Backend.root handle)

/-- Takes a root away, if there is one. The last one unroots the handle. -/
def unrootObject (native : NativeId) : Attempt σ Unit := do
  let (id, handle) ← wrapperOf native
  let registry := (← get).registry
  if (registry.get? id).any Wrapper.isRooted then
    let (count, registry) := registry.unroot id
    modify ({ · with registry := registry })
    if count = some 0 then ask (.unroot handle) (Backend.unroot handle)

/-- Attaches a payload to the script object of a native object. -/
def setPrivateData (native : NativeId) (payload : Payload) : Attempt σ Unit := do
  let (id, handle) ← wrapperOf native
  ask (.setPrivateData handle payload.finalizer.isSome) (Backend.setPrivateData handle payload)
  modify fun e ↦ { e with registry := e.registry.markPrivateData id }

/-- Whether a native object has a rooted wrapper. -/
def isRooted (e : Engine σ) (native : NativeId) : Bool :=
  ((e.registry.find? native).bind e.registry.get?).any Wrapper.isRooted

/-- The native object behind a handle. -/
def unwrapNative? (e : Engine σ) (handle : Handle) : Option NativeId :=
  ((e.registry.findByHandle? handle).bind e.registry.get?).map Wrapper.native

/-- The handle of a native object. -/
def objectHandle? (e : Engine σ) (native : NativeId) : Option Handle :=
  ((e.registry.find? native).bind e.registry.get?).map Wrapper.handle

/-- The native objects that a native object keeps alive. -/
def childrenOf (e : Engine σ) (native : NativeId) : List NativeId :=
  match (e.registry.find? native).bind e.registry.get? with
  | none => []
  | some w => (w.children.toList.filterMap e.registry.get?).map Wrapper.native

end ScriptBridge.Engine
