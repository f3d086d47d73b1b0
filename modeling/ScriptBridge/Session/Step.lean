import ScriptBridge.Rehearsal
import ScriptBridge.Session.Repertoire

/-!
# Steps of a session

A session asks an engine one thing after the other and notes for each the answer, what happened
meanwhile, and the engine's vital figures afterwards. Besides the operations of the engine there
are questions that change nothing, calls made directly to the backend, and requests that only one
kind of backend understands.
-/

namespace ScriptBridge.Session

/-- A question that changes nothing. -/
inductive Query where
  | info
  | isRooted (native : NativeId)
  | unwrap (handle : Handle)
  | find (native : NativeId)
  | handleOf (native : NativeId)
  | childrenOf (native : NativeId)
  | wrapper (native : NativeId)
  | dump
  | isInstalled (id : ClassId)
  | findClass (name : String)

/-- A call made directly to the backend. -/
inductive Direct where
  | globalObject
  | createObject
  | root (handle : Handle)
  | unroot (handle : Handle)
  | attachChild (owner child : Handle)
  | detachChild (owner child : Handle)
  | setPrivateData (handle : Handle) (payload : Payload)
  | release (handle : Handle)
  | collect
  | shutdown
  | evaluate (source : Script.Source) (file : String)

/-- The state of an engine at a glance. -/
structure Info where
  isValid : Bool
  inCleanup : Bool
  global : Option Handle
  started : Bool
  hasBackend : Bool
  hasListener : Bool
  pending : Bool
  initializers : Nat
  config : Config

/-- What an answer shows. -/
inductive Shown where
  | nothing
  | flag (b : Bool)
  | index (n : Nat)
  | value (v : Value)
  | exception (e : ScriptException)
  | natives (ns : List NativeId)
  | wrapper (id : WrapperId) (w : Wrapper)
  | entries (es : List (NativeId × WrapperId))
  | info (i : Info)
  | heap (items : List (Handle × Rehearsal.Item))
  | noBackend

/-- The answer to a step: plain, or the outcome of something that may fail. -/
inductive Answer where
  | plain (shown : Shown)
  | attempt (result : Except Failure Shown)

/-- The vital figures of an engine. -/
structure Status where
  nativeEntries : Nat
  wrappers : Nat
  classes : Nat
  initializers : Nat
  isValid : Bool
  pending : Bool
  /-- The number of live handles, for backends that count them. -/
  handles : Option Nat

/-- An entry of the record. -/
structure Entry where
  answer : Answer
  events : List Event
  status : Status

/-- A step of a session, with the requests of one kind of backend in `ξ`. -/
inductive Step (ξ : Type) where
  | operate (operation : Operation)
  | query (query : Query)
  | direct (direct : Direct)
  | backend (request : ξ)
  /-- A request to the backend right before an operation, without an answer of its own. -/
  | prepared (request : ξ) (operation : Operation)

/-- A backend that sessions know how to deal with. -/
class Stage (σ : Type) (ξ : outParam Type) extends Backend σ where
  /-- Grants a request that only this kind of backend understands. -/
  grant : ξ → σ → Shown × σ
  /-- The number of live handles, if the backend counts them. -/
  handleCount : σ → Option Nat

/-- A possible index. -/
def Shown.ofIndex? : Option Nat → Shown
  | some n => .index n
  | none => .nothing

/-- What a reply shows. -/
def Shown.ofReply : Reply → Shown
  | .unit => .nothing
  | .flag b => .flag b
  | .value (some v) => .value v
  | .value none => .nothing
  | .wrapper id => .index id.index
  | .class id => .index id.index
  | .exception (some e) => .exception e
  | .exception none => .nothing

/-- Operations that cannot fail are answered plainly. -/
def isPlain : Operation → Bool
  | .cleanup | .addBeforeHook _ | .addAfterHook _ | .clearException | .releaseValue _
  | .collectGarbage | .setListener _ => true
  | _ => false

variable {σ ξ : Type} [Stage σ ξ]

def infoOf (e : Engine σ) : Info where
  isValid := e.isValid
  inCleanup := e.inCleanup
  global := e.global
  started := e.started
  hasBackend := e.backend.isSome
  hasListener := e.listener.isSome
  pending := e.hasPendingException
  initializers := e.queue.length
  config := e.config

def statusOf (e : Engine σ) : Status where
  nativeEntries := e.registry.nativeCount
  wrappers := e.registry.size
  classes := e.catalog.size
  initializers := e.queue.length
  isValid := e.isValid
  pending := e.hasPendingException
  handles := e.backend.bind Stage.handleCount

/-- The answer to a question. -/
def ask (e : Engine σ) : Query → Shown
  | .info => .info (infoOf e)
  | .isRooted native => .flag (e.isRooted native)
  | .unwrap handle => .ofIndex? ((e.unwrapNative? handle).map NativeId.address)
  | .find native => .ofIndex? ((e.registry.find? native).map WrapperId.index)
  | .handleOf native => .ofIndex? ((e.objectHandle? native).map Handle.index)
  | .childrenOf native =>
    .natives ((e.childrenOf native).mergeSort fun a b ↦ a.address ≤ b.address)
  | .wrapper native =>
    match e.registry.find? native with
    | none => .nothing
    | some id => match e.registry.get? id with
      | none => .nothing
      | some w => .wrapper id w
  | .dump => .entries e.registry.nativeEntries
  | .isInstalled id => .flag (e.catalog.isInstalled id)
  | .findClass name => .ofIndex? ((e.catalog.find? name).map ClassId.index)

/-- The answer to a direct call, which is missing without a backend. -/
def answered {α : Type} (answer : α → Answer) : Option α → Answer
  | some a => answer a
  | none => .plain .noBackend

def attempted {α : Type} (shown : α → Shown) (result : Except Failure α) : Answer :=
  .attempt (result.map shown)

def ofHandle (h : Handle) : Shown := .index h.index

/-- Makes a direct call. Collections that it reports are ignored. -/
def callDirect : Direct → Action σ Answer
  | .globalObject =>
    return answered (attempted ofHandle) (← Engine.ask? .globalObject Backend.globalObject)
  | .createObject =>
    return answered (attempted ofHandle) (← Engine.ask? .createObject Backend.createObject)
  | .root h =>
    return answered (attempted fun _ ↦ .nothing) (← Engine.ask? (.root h) (Backend.root h))
  | .unroot h =>
    return answered (attempted fun _ ↦ .nothing) (← Engine.ask? (.unroot h) (Backend.unroot h))
  | .attachChild o c =>
    return answered (attempted fun _ ↦ .nothing)
      (← Engine.ask? (.attachChild o c) (Backend.attachChild o c))
  | .detachChild o c =>
    return answered (attempted fun _ ↦ .nothing)
      (← Engine.ask? (.detachChild o c) (Backend.detachChild o c))
  | .setPrivateData h p =>
    return answered (attempted fun _ ↦ .nothing)
      (← Engine.ask? (.setPrivateData h p.finalizer.isSome) (Backend.setPrivateData h p))
  | .release h =>
    return answered (fun _ ↦ .plain .nothing) (← Engine.ask? (.release h) (Backend.release h))
  | .collect =>
    return answered (fun _ ↦ .plain .nothing)
      (← Engine.ask? .collect fun s ↦ (Backend.collect s).ignoring)
  | .shutdown =>
    return answered (fun _ ↦ .plain .nothing) (← Engine.ask? .shutdown Backend.shutdown)
  | .evaluate source file =>
    return answered (attempted .value)
      (← Engine.ask? (.evaluate source file) fun s ↦ (Backend.evaluate source file s).ignoring)

/-- Grants a request to the backend. -/
def grant (request : ξ) : Action σ Shown := fun e ↦
  match e.backend with
  | none => (.noBackend, e)
  | some s =>
    let (shown, s) := Stage.grant request s
    (shown, { e with backend := some s })

/-- Performs an operation. One whose starts nest too deep leaves the engine as it was. -/
def performOperation (operation : Operation) : Action σ Answer := fun e ↦
  match Engine.perform repertoire startDepth operation e with
  | none => (.plain .nothing, e)
  | some (reply, e) =>
    let shown := reply.map Shown.ofReply
    (match isPlain operation, shown with
      | true, .ok shown => .plain shown
      | _, shown => .attempt shown, e)

/-- Takes a step. -/
def Step.take : Step ξ → Action σ Answer
  | .operate op => performOperation op
  | .query q => do return .plain (ask (← get) q)
  | .direct d => callDirect d
  | .backend request => do return .plain (← grant request)
  | .prepared request op => do
    let _ ← grant request
    performOperation op

/-- Takes a step and notes it. -/
def Step.note (step : Step ξ) : Action σ Entry := do
  let answer ← step.take
  let events ← Engine.takeTrace
  return ⟨answer, events, statusOf (← get)⟩

/-- Takes steps, one after the other. -/
def takeAll : List (Step ξ) → Action σ (List Entry)
  | [] => return []
  | step :: rest => do
    let entry ← step.note
    return entry :: (← takeAll rest)

/-- The record of a session. -/
structure Record where
  /-- The entry of the creation. -/
  created : Entry
  entries : List Entry
  /-- What happened when the engine was dropped. -/
  dropped : List Event

/-- A session with an engine just made: the steps, and then the end of the engine. -/
def conduct (made : Except Failure (Engine σ) × List Event) (steps : List (Step ξ)) :
    Except (Failure × List Event) Record :=
  match made with
  | (.error failure, events) => .error (failure, events)
  | (.ok engine, events) =>
    let created : Entry := ⟨.plain .nothing, events, statusOf engine⟩
    let (entries, engine) := takeAll steps engine
    .ok ⟨created, entries, (Engine.cleanup engine).2.trace⟩

end ScriptBridge.Session
