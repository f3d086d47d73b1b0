import ScriptBridge.Config.Basic
import ScriptBridge.Text.Blank
import ScriptBridge.Text.Natural

/-!
# Settings from the environment

Two settings can be overridden by environment variables. A variable counts if its text, without
the blanks around it, is a decimal number below the limit of sizes, possibly after one plus sign;
any other text is as good as an unset variable.
-/

namespace ScriptBridge.Config

/-- The size that the text of a variable stands for. -/
def sizeOfVariable? (text : String) : Option Nat :=
  Text.naturalBelow? sizeLimit (Text.trim text.toList)

/-- The variables that override settings. -/
structure Environment where
  gcThreshold : Option String
  memoryLimit : Option String
  deriving DecidableEq, Repr

/-- The configuration with the overrides of the environment. -/
def withEnvironment (config : Config) (env : Environment) : Config :=
  { config with
    gcThreshold := (env.gcThreshold.bind sizeOfVariable?).getD config.gcThreshold
    memoryLimit := (env.memoryLimit.bind sizeOfVariable?).getD config.memoryLimit }

end ScriptBridge.Config
