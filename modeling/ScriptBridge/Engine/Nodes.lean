import ScriptBridge.Engine.Basic

/-!
# Node events

Events of scene nodes go to a single listener, whose answer goes back to the sender.
-/

namespace ScriptBridge

/-- The name of a node event. -/
def NodeEvent.name : NodeEvent → String
  | .enter => "Enter"
  | .exit => "Exit"
  | .enterTransitionDidFinish => "EnterTransitionDidFinish"
  | .exitTransitionDidStart => "ExitTransitionDidStart"
  | .cleanup => "Cleanup"

/-- The answer to an event when it is the so-many-th. -/
def ListenerMode.answer : ListenerMode → NodeEvent → Nat → Bool
  | .always, _, _ => true
  | .never, _, _ => false
  | .notCleanup, event, _ => event != .cleanup
  | .everySecond, _, count => count % 2 == 0

namespace Engine

variable {σ : Type}

/-- Installs a listener, which replaces any other. -/
def setListener (mode : ListenerMode) : Action σ Unit :=
  modify ({ · with listener := some ⟨mode, 0⟩ })

/-- Hands an event to the listener. -/
def receiveNodeEvent (native : NativeId) (event : NodeEvent) : Attempt σ Bool := do
  match (← get).listener with
  | none => throw .noListener
  | some listener =>
    let count := listener.calls + 1
    modify ({ · with listener := some { listener with calls := count } })
    surely (emit (.node listener.mode native event count))
    return listener.mode.answer event count

end Engine

end ScriptBridge
