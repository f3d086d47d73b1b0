import ScriptBridge.Registry.Basic
import ScriptBridge.Script.Syntax
import ScriptBridge.Value.Basic

/-!
# What an engine can be seen doing

Everything that happens between an engine, its backend and native code is an `Event`. An engine
keeps its events in order of occurrence; among them is every call it makes to its backend, so
statements about what an engine asks for are statements about its events. What a backend adds by
itself is a `Notice`, which is never a call.
-/

namespace ScriptBridge

/-- A call that the bridge makes to a backend. -/
inductive Call where
  | evaluate (source : Script.Source) (file : String)
  | takePending
  | collect
  | globalObject
  | createObject
  | getProperty (target : Handle) (key : String)
  | setProperty (target : Handle) (key : String) (value : Value)
  | root (handle : Handle)
  | unroot (handle : Handle)
  | release (handle : Handle)
  | attachChild (owner child : Handle)
  | detachChild (owner child : Handle)
  | setPrivateData (handle : Handle) (finalized : Bool)
  | installClass (name : String) (parent : Option String) (constructed finalized : Bool)
  | shutdown
  /-- During a weak pass: asks whether the script object is gone. -/
  | queryDead (handle : Handle)
  /-- During a weak pass: drops the root of a handle. -/
  | tearDown (handle : Handle)
  /-- During a weak pass: gives a handle back. -/
  | forget (handle : Handle)

/-- The weight of a log line. -/
inductive Level where
  | error
  | warn
  | debug
  deriving DecidableEq, Repr

/-- What happens to the node behind a native object. -/
inductive NodeEvent where
  | enter
  | exit
  | enterTransitionDidFinish
  | exitTransitionDidStart
  | cleanup
  deriving DecidableEq, Repr

/-- How a node listener decides. -/
inductive ListenerMode where
  | always
  | never
  /-- Agrees to everything but a cleanup. -/
  | notCleanup
  /-- Agrees at every other call, beginning with the second. -/
  | everySecond
  deriving DecidableEq, Repr

/-- The calls on the weak view of a backend during one update, by kind. -/
structure Visit where
  queried : List Handle
  tornDown : List Handle
  released : List Handle
  /-- The payloads finalized meanwhile, by tag and text. -/
  finalized : List (String × String)
  /-- No question and no tear-down came after a release. -/
  decidedFirst : Bool
  deriving DecidableEq, Repr

/-- What a backend does by itself. None of it is a call by the bridge. -/
inductive Notice where
  | log (level : Level) (text : String)
  /-- A native constructor was called. -/
  | construct (className : String) (arguments : List Value)
  /-- A payload was handed to its finalizer. -/
  | finalized (tag payload : String)
  /-- A weak update summed up. -/
  | visit (visit : Visit)

/-- Something that happened. -/
inductive Event where
  | log (level : Level) (text : String)
  /-- A module initializer began to run. -/
  | initializer (name : String) (global : Handle)
  | beforeCleanup (name : String)
  | afterCleanup (name : String)
  /-- A node listener was asked, for the so-many-th time. -/
  | node (mode : ListenerMode) (native : NativeId) (event : NodeEvent) (count : Nat)
  /-- A native constructor was called. -/
  | construct (className : String) (arguments : List Value)
  /-- A payload was handed to its finalizer. -/
  | finalized (tag payload : String)
  | call (call : Call)
  /-- A backend summed up a weak update. -/
  | visit (visit : Visit)
  /-- A host asked its factory for an engine. -/
  | factory

/-- What a backend does, among all that happens. -/
def Notice.event : Notice → Event
  | .log level text => .log level text
  | .construct name arguments => .construct name arguments
  | .finalized tag payload => .finalized tag payload
  | .visit v => .visit v

/-- The call that an event is. -/
def Event.call? : Event → Option Call
  | .call c => some c
  | _ => none

theorem Notice.call?_event (notice : Notice) : notice.event.call? = none := by
  cases notice <;> rfl

/-- The calls among events, in order. -/
def callsOf (events : List Event) : List Call := events.filterMap Event.call?

@[simp]
theorem callsOf_nil : callsOf [] = [] :=
  rfl

@[simp]
theorem callsOf_append (l m : List Event) : callsOf (l ++ m) = callsOf l ++ callsOf m :=
  List.filterMap_append

@[simp]
theorem callsOf_call (c : Call) (l : List Event) : callsOf (.call c :: l) = c :: callsOf l :=
  rfl

/-- Whatever a backend does, the only calls are those made to it. -/
@[simp]
theorem callsOf_notices (notices : List Notice) : callsOf (notices.map Notice.event) = [] := by
  rw [callsOf, List.filterMap_map, List.filterMap_eq_nil_iff]
  intro notice _
  exact notice.call?_event

end ScriptBridge
