import ScriptBridge.Script.Service
import ScriptBridge.Session.Hosting

/-!
# Sessions with a script machine

A script machine understands no requests beyond the operations of a backend, and counts its
handles. Engines over it are made from a configuration alone.
-/

namespace ScriptBridge.Session

instance : Stage Script.Machine Empty where
  grant request _ := nomatch request
  handleCount m := some m.slots.size

/-- Makes an engine over a script machine. -/
def createScripting (config : Config) : Except Failure (Engine Script.Machine) × List Event :=
  match Script.Machine.create config with
  | .error failure => (.error failure, [])
  | .ok machine => Engine.create machine config

/-- Makes engines over script machines, all in one configuration. -/
def makeScripting (config : Config) : Made Config Script.Machine :=
  let (result, events) := createScripting config
  ⟨result, events, config⟩

end ScriptBridge.Session
