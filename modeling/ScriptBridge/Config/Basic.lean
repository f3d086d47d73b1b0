/-!
# Engine configuration

The settings a script engine is created with. Each of them has a default, so whoever configures an
engine names only what should differ.
-/

namespace ScriptBridge

/-- What a file is called that has no name. -/
def noFileName : String := "(no filename)"

/-- The settings of a script engine. -/
structure Config where
  /-- The limit of the script heap in bytes, zero for none. -/
  memoryLimit : Nat
  /-- The volume of allocations that triggers a collection. -/
  gcThreshold : Nat
  maxStackSize : Nat
  /-- The file name of scripts that are executed without one. -/
  defaultFileName : String
  /-- Whether scripts are evaluated in strict mode. -/
  strict : Bool
  deriving DecidableEq, Repr

namespace Config

/-- The settings that nobody changed. -/
protected def default : Config where
  memoryLimit := 0
  gcThreshold := 256 * 1024
  maxStackSize := 5000000
  defaultFileName := noFileName
  strict := false

instance : Inhabited Config := ⟨Config.default⟩

/-- Sizes are below this bound, since they fit into 64 bits. -/
def sizeLimit : Nat := 0x10000000000000000

end Config

end ScriptBridge
