import ScriptBridge.Engine.Classes
import ScriptBridge.Engine.Lifecycle
import ScriptBridge.Engine.Nodes

/-!
# Operations as data, and module initializers

What can be asked of an engine is an `Operation`, and what comes back a `Reply`. A module
initializer is known to the engine by its name; what it does is a `Routine`, a tree of operations
in which every reply decides how it goes on. Since a routine may start the engine again, a run is
told how deep starts may nest, and has no outcome if they nest deeper.
-/

namespace ScriptBridge

/-- A request to an engine. -/
inductive Operation where
  | start
  | cleanup
  | addBeforeHook (name : String)
  | addAfterHook (name : String)
  | addInitializer (name : String)
  | executeBuffer (bytes : List UInt8) (file : Option String)
  | executeSource (source : Script.Source) (file : Option String)
  | clearException
  | getProperty (target : Handle) (key : String)
  | setProperty (target : Handle) (key : String) (value : Value)
  | releaseValue (value : Value)
  | createClass (name : String) (parent : Option ClassId) (constructor : Option NativeConstructor)
  | defineFinalizer (id : ClassId) (tag : String)
  | installClass (id : ClassId)
  | collectGarbage
  | retain (owner target : NativeId)
  | unretain (owner target : NativeId)
  | wrapNative (native : NativeId) (handle : Handle) (rooted : Bool)
  | createObject (native : NativeId)
  | rootObject (native : NativeId)
  | unrootObject (native : NativeId)
  | setPrivateData (native : NativeId) (payload : Payload)
  | setListener (mode : ListenerMode)
  | nodeEvent (native : NativeId) (event : NodeEvent)

/-- What an operation gives back. -/
inductive Reply where
  | unit
  | flag (b : Bool)
  | value (v : Option Value)
  | wrapper (id : WrapperId)
  | class (id : ClassId)
  | exception (e : Option ScriptException)

/-- What a module initializer does. -/
inductive Routine where
  | finish (result : Except Failure Unit)
  | step (operation : Operation) (next : Except Failure Reply → Routine)

/-- The routines of module initializers, by name and for the global object they are given. -/
abbrev Repertoire := String → Handle → Routine

namespace Engine

variable {σ : Type} [Backend σ]

/-- A run that has no outcome if starts nest too deep. -/
abbrev Run (σ : Type) := StateT (Engine σ) Option

/-- Any operation other than a start. -/
def performSimple : Operation → Attempt σ Reply
  | .start => return .unit
  | .cleanup => do surely cleanup; return .unit
  | .addBeforeHook name => do surely (addBeforeHook name); return .unit
  | .addAfterHook name => do surely (addAfterHook name); return .unit
  | .addInitializer name => do addInitializer name; return .unit
  | .executeBuffer bytes file => .value <$> executeBuffer bytes file
  | .executeSource source file => .value <$> executeSource source file
  | .clearException => do return .exception (← surely clearException)
  | .getProperty target key => do return .value (some (← getProperty target key))
  | .setProperty target key value => do setProperty target key value; return .unit
  | .releaseValue value => do surely (releaseValue value); return .unit
  | .createClass name parent constructor => .class <$> createClass name parent constructor
  | .defineFinalizer id tag => do defineFinalizer id tag; return .unit
  | .installClass id => do installClass id; return .unit
  | .collectGarbage => do surely collectGarbage; return .unit
  | .retain owner target => do retain owner target; return .unit
  | .unretain owner target => do unretain owner target; return .unit
  | .wrapNative native handle rooted => .wrapper <$> wrapNative native handle rooted
  | .createObject native => .wrapper <$> createObject native
  | .rootObject native => do rootObject native; return .unit
  | .unrootObject native => do unrootObject native; return .unit
  | .setPrivateData native payload => do setPrivateData native payload; return .unit
  | .setListener mode => do surely (setListener mode); return .unit
  | .nodeEvent native event => .flag <$> receiveNodeEvent native event

/-- Runs a routine, performing its operations by `perform`. -/
def runRoutine (perform : Operation → Run σ (Except Failure Reply)) :
    Routine → Run σ (Except Failure Unit)
  | .finish result => pure result
  | .step operation next => do
    let reply ← perform operation
    runRoutine perform (next reply)

/-- Runs initializers in order, up to the first that fails. `index` is the position of the first
one. -/
def runInitializers (perform : Operation → Run σ (Except Failure Reply)) (repertoire : Repertoire)
    (global : Handle) : Nat → List String → Run σ (Except Failure Unit)
  | _, [] => pure (.ok ())
  | index, name :: rest => do
    modify fun e ↦ { e with trace := e.trace ++ [.initializer name global] }
    match ← runRoutine perform (repertoire name global) with
    | .ok () => runInitializers perform repertoire global (index + 1) rest
    | .error source =>
      modify fun e ↦ { e with trace := e.trace ++ [.log .error
        ("Module initializer #" ++ toString index ++ " failed: " ++ source.message)] }
      pure (.error (.initializer index source))

/-- Runs the queued initializers. The queue is emptied first, whether or not they all succeed. -/
def startWith (perform : Operation → Run σ (Except Failure Reply)) (repertoire : Repertoire) :
    Run σ (Except Failure Unit) := do
  let e ← get
  match e.isValid, e.global with
  | true, some global =>
    set { e with started := true, queue := [] }
    runInitializers perform repertoire global 0 e.queue
  | _, _ => pure (.error .notInitialized)

/-- Performs an operation in which starts may nest as deep as given. -/
def perform (repertoire : Repertoire) : Nat → Operation → Run σ (Except Failure Reply)
  | 0, .start => fun _ ↦ none
  | depth + 1, .start => do
    let result ← startWith (perform repertoire depth) repertoire
    pure (result.map fun () ↦ .unit)
  | _, operation => fun e ↦ some (performSimple operation e)

end Engine

end ScriptBridge
