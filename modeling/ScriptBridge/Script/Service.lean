import ScriptBridge.Config.Basic
import ScriptBridge.Script.Compilation
import ScriptBridge.Script.Evaluation
import ScriptBridge.Script.Reader

/-!
# The script machine as a backend

Every operation of the bridge first finds the objects behind its handles, then works on the script
heap, and at last removes what nothing refers to any longer. An operation that throws leaves the
exception pending. What an owner keeps alive for the bridge hangs on a holder object under a
property of the owner, one entry for each handle; a payload hangs on a carrier in the same manner.
A collection is reported once native code is back in control, however often scripts asked for one.
-/

namespace ScriptBridge.Script

/-- The key under which an object refers to the holder of its children. -/
def childrenKey : String := "__jsbChildren"

/-- The key of a child in a holder. -/
def childKey (child : Handle) : String := "h" ++ toString child.index

/-- The least memory, in bytes, that a machine can be created in. -/
def leastMemory : Nat := 100000

/-- The smallest stack, in bytes, that a machine can be created on. -/
def leastStack : Nat := 1000

namespace Machine

variable {α : Type}

/-- A machine for a configuration. A limit of zero is no limit. -/
def create (config : Config) : Except Failure Machine :=
  if 0 < config.memoryLimit && config.memoryLimit < leastMemory then
    .error (.setup "Allocation failed while creating object")
  else if 0 < config.maxStackSize && config.maxStackSize < leastStack then
    .error (.setup Failure.exceptionPending.message)
  else .ok (Realm.machine config.strict)

/-- Ends an operation: what nothing refers to is removed, and what has happened is handed over. -/
def conclude (result : α) (m : Machine) : Outcome Machine α :=
  let settled := m.settle []
  ⟨result, { settled with trace := [] }, settled.trace⟩

/-- An operation that needs an open machine. -/
def whileOpen (run : Machine → Except Failure α × Machine) (m : Machine) :
    Outcome Machine (Except Failure α) :=
  if m.isOpen then
    let (result, m) := run m
    m.conclude result
  else ⟨.error .notInitialized, m, []⟩

/-- Runs an interpretation for native code. -/
def interpret (action : Interp (Except Failure α)) (m : Machine) : Except Failure α × Machine :=
  match action.run m with
  | (some result, m) => (result, m)
  | (none, m) => (.error .exceptionPending, m)

/-- An operation on the object behind a handle, which must not be gone. -/
def onLive (h : Handle) (run : ObjectId → Interp (Except Failure α)) (m : Machine) :
    Except Failure α × Machine :=
  match m.resolveLive h with
  | .error failure => (.error failure, m)
  | .ok id => interpret (Interp.holding [.object id] (run id)) m

def createObject (m : Machine) : Except Failure Handle × Machine :=
  let (id, m) := m.allocate (.empty .ordinary (some Realm.objectPrototype))
  m.handOut id

def getProperty (target : Handle) (key : String) : Machine → Except Failure Value × Machine :=
  onLive target fun id ↦ do Interp.handOver Interp.invoke (← Interp.read Interp.invoke id key)

def setProperty (target : Handle) (key : String) (value : Value) :
    Machine → Except Failure Unit × Machine :=
  onLive target fun id ↦ do
    match ← Interp.view (ofValue value) with
    | .error failure => return .error failure
    | .ok d => return .ok (← Interp.assignOrThrow Interp.invoke id key d)

/-- Roots a handle again, unless it is rooted already. -/
def root (h : Handle) (m : Machine) : Except Failure Unit × Machine :=
  match m.resolveLive h with
  | .error failure => (.error failure, m)
  | .ok id => (.ok (), { m with slots := m.slots.insert h ⟨id, true⟩ })

/-- Drops the root of a handle. -/
def dropRoot (h : Handle) (m : Machine) : Machine :=
  { m with slots := m.slots.modify h ({ · with isRooted := false }) }

def unroot (h : Handle) (m : Machine) : Except Failure Unit × Machine :=
  if m.slots.contains h then (.ok (), m.dropRoot h) else (.error (.unknownHandle h), m)

/-- Forgets a handle. That of the global object is not given out again. -/
def release (h : Handle) (m : Machine) : Machine :=
  let m := if m.globalHandle = some h then { m with globalHandle := none } else m
  if m.isOpen then m.retire [h] else m

/-- The holder of the children of an object, if it has one. -/
def holder? (owner : ObjectId) : Interp (Except Failure (Option ObjectId)) := do
  match (← Interp.read Interp.invoke owner childrenKey).optionalObject with
  | .ok holder => return .ok holder
  | .error why => return .error (.engine why)

/-- Makes an object keep another one alive on behalf of a handle. -/
def attachTo (owner : ObjectId) (key : String) (child : ObjectId) :
    Interp (Except Failure Unit) := do
  match ← holder? owner with
  | .error failure => return .error failure
  | .ok (some holder) =>
    Interp.holding [.object holder] do
      return .ok (← Interp.assignOrThrow Interp.invoke holder key (.object child))
  | .ok none =>
    let holder ← Interp.allocate (.empty .ordinary (some Realm.objectPrototype))
    Interp.holding [.object holder] do
      Interp.defineOrThrow Interp.invoke owner childrenKey
        { value := some (.object holder), configurable := some true }
      return .ok (← Interp.assignOrThrow Interp.invoke holder key (.object child))

def attachChild (owner child : Handle) (m : Machine) : Except Failure Unit × Machine :=
  match m.resolveLive owner, m.resolveLive child with
  | .error failure, _ | .ok _, .error failure => (.error failure, m)
  | .ok ownerId, .ok childId =>
    interpret (Interp.holding [.object ownerId, .object childId]
      (attachTo ownerId (childKey child) childId)) m

/-- Undoes `attachTo`. -/
def detachFrom (owner : ObjectId) (key : String) : Interp (Except Failure Unit) := do
  match ← holder? owner with
  | .error failure => return .error failure
  | .ok none => return .ok ()
  | .ok (some holder) =>
    if ← Interp.delete holder key then return .ok () else Interp.raiseFault .notDeletable

/-- An owner that is gone keeps nothing alive. -/
def detachChild (owner child : Handle) (m : Machine) : Except Failure Unit × Machine :=
  match m.resolve owner with
  | .error failure => (.error failure, m)
  | .ok none => (.ok (), m)
  | .ok (some id) =>
    interpret (Interp.holding [.object id] (detachFrom id (childKey child))) m

def setPrivateData (h : Handle) (payload : Payload) : Machine → Except Failure Unit × Machine :=
  onLive h fun id ↦ return .ok (← Interp.attachPayload Interp.invoke id payload)

/-- The prototype that instances of a parent class have. -/
def parentPrototype (parent : String) : Interp (Except Failure ObjectId) := do
  match (← Interp.readGlobal Interp.invoke parent).optionalObject with
  | .error why => return .error (.engine why)
  | .ok none => return .error (.engine ("parent class " ++ parent ++ " is not installed"))
  | .ok (some constructor) =>
    match (← Interp.read Interp.invoke constructor "prototype").requiredObject with
    | .error why => return .error (.engine why)
    | .ok prototype => return .ok prototype

/-- Makes the constructor of a class, and puts it on the global object. -/
def offerClass (spec : ClassSpec) (prototype : ObjectId) : Interp Unit := do
  let native : NativeClass := ⟨spec.name, spec.constructor, spec.finalizer⟩
  let constructor ← Interp.allocate (Realm.functionObject (.native native) 0 spec.name)
  Interp.holding [.object constructor] do
    Interp.defineOrThrow Interp.invoke constructor "prototype"
      { value := some (.object prototype) }
    Interp.defineOrThrow Interp.invoke prototype "constructor"
      { value := some (.object constructor), writable := some true, configurable := some true }
    Interp.assignOrThrow Interp.invoke Realm.globalObject spec.name (.object constructor)

/-- Makes a class: a prototype, behind which stands that of the parent class, and a constructor. -/
def makeClass (spec : ClassSpec) : Interp (Except Failure Unit) := do
  let prototype ← Interp.allocate (.empty .ordinary (some Realm.objectPrototype))
  Interp.holding [.object prototype] do
    match spec.parent with
    | none => return .ok (← offerClass spec prototype)
    | some parent =>
      match ← parentPrototype parent with
      | .error failure => return .error failure
      | .ok inherited =>
        Interp.update prototype ({ · with prototype := some inherited })
        return .ok (← offerClass spec prototype)

def installClass (spec : ClassSpec) : Machine → Except Failure Unit × Machine :=
  interpret (makeClass spec)

/-- What is wrong with a source before it is compiled. -/
def defect? (source : Source) (file : String) : Option SourceDefect :=
  let hasNul := match source with
    | .text s => s.contains '\x00'
    | .program _ => false
  if hasNul then some .nulInSource
  else if file.contains '\x00' then some .nulInFileName
  else none

/-- Reads and runs a source, and hands the result over. -/
def runSource (source : Source) (file : String) : Interp (Except Failure Value) := do
  match source.read with
  | .error mistake => Interp.raiseMistake file mistake
  | .ok program => Interp.handOver Interp.invoke (← Interp.runProgram file program)

/-- Runs a source in an open machine. -/
def run (source : Source) (file : String) (m : Machine) : Outcome Machine (Except Failure Value) :=
  let (result, m) := interpret (runSource source file) m
  { m with retained := .undefined }.conclude result

/-- Reports the collections that scripts have asked for as one. -/
def reportRequests (result : α) (m : Machine) : Report Machine α :=
  if m.requests = 0 then .done ⟨result, m, []⟩
  else Report.cycle { m with requests := 0 } fun m ↦ .done ⟨result, m, []⟩

def evaluate (source : Source) (file : String) (m : Machine) :
    Report Machine (Except Failure Value) :=
  match defect? source file with
  | some defect => .done ⟨.error (.invalidSource defect), m, []⟩
  | none =>
    if m.isOpen then
      let o := m.run source file
      .events o.events (reportRequests o.result o.state)
    else .done ⟨.error .notInitialized, m, []⟩

theorem evaluate_eq_run {source : Source} {file : String} {m : Machine} (hopen : m.isOpen = true)
    (hdefect : defect? source file = none) :
    m.evaluate source file = .events (m.run source file).events
      (reportRequests (m.run source file).result (m.run source file).state) := by
  rw [evaluate, hdefect]
  exact if_pos hopen

/-- A source is refused without more ado if it has a defect or the machine is not open. -/
theorem evaluate_eq_done {source : Source} {file : String} {m : Machine}
    (h : ¬ (m.isOpen = true ∧ defect? source file = none)) :
    ∃ failure, m.evaluate source file = .done ⟨.error failure, m, []⟩ := by
  rw [evaluate]
  cases hdefect : defect? source file with
  | some defect => exact ⟨_, rfl⟩
  | none => exact ⟨_, if_neg fun hopen ↦ h ⟨hopen, hdefect⟩⟩

/-- Takes the pending exception and describes it. -/
def takePending (m : Machine) : Outcome Machine (Option ScriptException) :=
  match m.pending with
  | none => ⟨none, m, []⟩
  | some thrown =>
    let (result, m) := (Interp.diagnose Interp.invoke thrown).run { m with pending := none }
    m.conclude result

def collect (m : Machine) : Report Machine Unit :=
  if m.isOpen then
    let o := { m.sweep with requests := 0 }.conclude ()
    .events o.events (Report.cycle o.state fun m ↦ .done ⟨(), m, []⟩)
  else .done ⟨(), m, []⟩

/-- Ends the machine. Every object goes. -/
def shutdown (m : Machine) : Outcome Machine Unit :=
  if m.isOpen then
    let emptied := m.heap.keys.foldl free m
    ⟨(), { emptied with
      slots := ∅
      globalHandle := none
      requests := 0
      pending := none
      retained := .undefined
      pins := []
      jobs := []
      trace := []
      isOpen := false }, emptied.trace⟩
  else ⟨(), m, []⟩

/-- The object behind a handle is gone, or the handle is unknown. -/
def isDead (h : Handle) (m : Machine) : Bool :=
  match m.resolve h with
  | .ok (some _) => false
  | _ => true

end Machine

instance : Backend Machine where
  evaluate := Machine.evaluate
  hasPending m := m.isOpen && m.pending.isSome
  takePending := Machine.takePending
  collect := Machine.collect
  globalObject m := ⟨match m.globalHandle with
    | some h => .ok h
    | none => .error .notInitialized, m, []⟩
  createObject := Machine.whileOpen Machine.createObject
  getProperty target key := Machine.whileOpen (Machine.getProperty target key)
  setProperty target key value := Machine.whileOpen (Machine.setProperty target key value)
  root h := Machine.whileOpen (Machine.root h)
  unroot h := Machine.whileOpen (Machine.unroot h)
  release h m := (m.release h).conclude ()
  attachChild owner child := Machine.whileOpen (Machine.attachChild owner child)
  detachChild owner child := Machine.whileOpen (Machine.detachChild owner child)
  setPrivateData h payload := Machine.whileOpen (Machine.setPrivateData h payload)
  installClass spec := Machine.whileOpen (Machine.installClass spec)
  shutdown := Machine.shutdown
  queryDead h m := ⟨m.isDead h, m, []⟩
  tearDown h m := (m.dropRoot h).conclude ()
  forget h m := (m.retire [h]).conclude ()

end ScriptBridge.Script
