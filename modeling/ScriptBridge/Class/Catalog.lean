import ScriptBridge.Failure
import ScriptBridge.Value.Basic

/-!
# Classes offered to scripts

A class has a name, possibly a parent and a native constructor, and may get a finalizer. The
catalog numbers classes in the order of their creation and never uses a number twice; what a
backend needs in order to install a class is its specification.
-/

namespace ScriptBridge

/-- Builds the payload of an instance from the arguments of a construction; an instance may be
built without payload. -/
abbrev NativeConstructor := List Value → Except Failure (Option String)

/-- What a backend needs to install a class. -/
structure ClassSpec where
  name : String
  /-- The name of the parent class. -/
  parent : Option String
  constructor : Option NativeConstructor
  /-- The tag under which payloads of collected instances are reported. -/
  finalizer : Option String

/-- The diagnostic text of a specification. -/
def ClassSpec.debug (spec : ClassSpec) : String :=
  let parent := match spec.parent with
    | some name => "Some(" ++ Text.debugQuoted name ++ ")"
    | none => "None"
  "ClassSpec \x7b name: " ++ Text.debugQuoted spec.name ++ ", parent: " ++ parent ++
    ", constructor: " ++ (if spec.constructor.isSome then "true" else "false") ++
    ", finalizer: " ++ (if spec.finalizer.isSome then "true" else "false") ++ " \x7d"

/-- A class of the catalog. -/
structure ClassEntry where
  spec : ClassSpec
  parent : Option ClassId
  installed : Bool

/-- The classes of an engine. -/
structure Catalog where
  classes : Std.ExtTreeMap ClassId ClassEntry
  /-- The number of the next class. -/
  next : Nat

namespace Catalog

def empty : Catalog := ⟨∅, 0⟩

instance : Inhabited Catalog := ⟨empty⟩

def get? (c : Catalog) (id : ClassId) : Option ClassEntry := c.classes[id]?

/-- Adds a class. The parent, if there is one, has to be known. -/
def create (c : Catalog) (name : String) (parent : Option ClassId)
    (constructor : Option NativeConstructor) : Except Failure (ClassId × Catalog) := do
  let parentName ← match parent with
    | none => pure none
    | some p => match c.get? p with
      | some entry => pure (some entry.spec.name)
      | none => throw (.unknownClass p)
  let entry : ClassEntry :=
    { spec := { name, parent := parentName, constructor, finalizer := none }
      parent, installed := false }
  let id : ClassId := ⟨c.next⟩
  pure (id, ⟨c.classes.insert id entry, c.next + 1⟩)

/-- Replaces the finalizer of a class. -/
def defineFinalizer (c : Catalog) (id : ClassId) (tag : String) : Except Failure Catalog :=
  if c.classes.contains id then
    .ok { c with classes := c.classes.modify id fun entry ↦
      { entry with spec := { entry.spec with finalizer := some tag } } }
  else .error (.unknownClass id)

def spec? (c : Catalog) (id : ClassId) : Option ClassSpec := (c.get? id).map ClassEntry.spec

def parent? (c : Catalog) (id : ClassId) : Option ClassId := (c.get? id).bind ClassEntry.parent

/-- The earliest class of a name. -/
def find? (c : Catalog) (name : String) : Option ClassId :=
  (c.classes.toList.find? fun (_, entry) ↦ entry.spec.name == name).map Prod.fst

def isInstalled (c : Catalog) (id : ClassId) : Bool := (c.get? id).any ClassEntry.installed

def markInstalled (c : Catalog) (id : ClassId) : Catalog :=
  { c with classes := c.classes.modify id ({ · with installed := true }) }

/-- The ancestors of a class, the nearest first, at most so many. -/
def ancestors (c : Catalog) : Nat → ClassId → List ClassId
  | 0, _ => []
  | fuel + 1, id =>
    match c.parent? id with
    | none => []
    | some parent => parent :: c.ancestors fuel parent

/-- The class and its ancestors, the root first. A parent is older than its child, so its number is
smaller and bounds the length of the walk. -/
def lineage (c : Catalog) (id : ClassId) : List ClassId :=
  (id :: c.ancestors id.index id).reverse

def size (c : Catalog) : Nat := c.classes.size

def isEmpty (c : Catalog) : Bool := c.classes.isEmpty

/-- Forgets every class. Their numbers are not used again. -/
def clear (c : Catalog) : Catalog := { c with classes := ∅ }

end Catalog

end ScriptBridge
