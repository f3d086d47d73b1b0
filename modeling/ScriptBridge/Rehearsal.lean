import ScriptBridge.Backend

/-!
# A backend for rehearsals

A rehearsal holds objects without scripts. What an evaluation does, which calls fail, and which
objects the next collection finds dead is laid down beforehand, so that the bridge can be led into
any situation. A collection sums up how the bridge used the weak view.
-/

namespace ScriptBridge

/-- The operations of a rehearsal that can be made to fail. -/
inductive Rehearsal.Method where
  | evaluate
  | globalObject
  | createObject
  | getProperty
  | setProperty
  | root
  | unroot
  | attachChild
  | detachChild
  | setPrivateData
  | installClass
  deriving DecidableEq, Repr

/-- What an evaluation is to do. -/
structure Rehearsal.Plan where
  /-- Reports a collection first. -/
  collects : Bool
  /-- Leaves this exception pending. -/
  pending : Option ScriptException
  result : Except Failure Value

/-- An object of a rehearsal. -/
structure Rehearsal.Item where
  rooted : Bool
  properties : Std.ExtTreeMap String Value
  payload : Option Payload

/-- The state of a rehearsal. -/
structure Rehearsal where
  items : Std.ExtTreeMap Handle Rehearsal.Item
  next : Nat
  /-- Objects that a collection finds dead unless they are rooted. -/
  collectable : List Handle
  pending : Option ScriptException
  /-- Failures still to come, for the next call of their operation. -/
  failures : List (Rehearsal.Method × Failure)
  plans : List Rehearsal.Plan
  isShutDown : Bool
  /-- The objects that the collection under way found dead. -/
  dead : List Handle
  visit : Visit

namespace Rehearsal

/-- An evaluation that does nothing. -/
def Plan.idle : Plan := ⟨false, none, .ok .undefined⟩

/-- A new object is rooted and empty. -/
def Item.fresh : Item := ⟨true, ∅, none⟩

/-- An update during which nothing has happened. -/
def noVisit : Visit := ⟨[], [], [], [], true⟩

def globalHandle : Handle := ⟨0⟩

/-- A rehearsal with nothing but the global object. The failure, if there is one, is for the first
call that asks for it. -/
def create (globalFailure : Option Failure) : Rehearsal where
  items := (∅ : Std.ExtTreeMap Handle Item).insert globalHandle .fresh
  next := 1
  collectable := []
  pending := none
  failures := (globalFailure.map fun failure ↦ (Method.globalObject, failure)).toList
  plans := []
  isShutDown := false
  dead := []
  visit := noVisit

/-- Removes the first failure laid down for an operation. -/
def takeFailure (method : Method) : List (Method × Failure) →
    Option Failure × List (Method × Failure)
  | [] => (none, [])
  | (m, failure) :: rest =>
    if m = method then (some failure, rest)
    else
      let (found, left) := takeFailure method rest
      (found, (m, failure) :: left)

/-- Runs an operation unless a failure was laid down for it. -/
def unlessFailing {α : Type} (method : Method) (run : Rehearsal → Except Failure α × Rehearsal)
    (r : Rehearsal) : Outcome Rehearsal (Except Failure α) :=
  let (failure, failures) := takeFailure method r.failures
  let r := { r with failures := failures }
  match failure with
  | some failure => ⟨.error failure, r, []⟩
  | none =>
    let (result, r) := run r
    ⟨result, r, []⟩

/-- Runs an operation on a rehearsal that was not shut down. -/
def whileOpen {α : Type} (run : Rehearsal → Except Failure α × Rehearsal) (r : Rehearsal) :
    Except Failure α × Rehearsal :=
  if r.isShutDown then (.error .notInitialized, r) else run r

/-- Runs an operation on an object that has to be there. -/
def onItem {α : Type} (handle : Handle) (run : Item → α × Item) :
    Rehearsal → Except Failure α × Rehearsal :=
  whileOpen fun r ↦
    match r.items[handle]? with
    | none => (.error (.unknownHandle handle), r)
    | some item =>
      let (result, item) := run item
      (.ok result, { r with items := r.items.insert handle item })

/-- The handles that a collection finds dead. -/
def deadHandles (r : Rehearsal) : List Handle :=
  r.collectable.filter fun h ↦ (r.items[h]?).any (!·.rooted)

/-- A collection, and how to go on after it. -/
def reportCycle {α : Type} (r : Rehearsal) (next : Rehearsal → Report Rehearsal α) :
    Report Rehearsal α :=
  .phase .begin
    (.update { r with dead := r.deadHandles, visit := noVisit } fun r ↦
      .events [.visit r.visit]
        (.phase .finish (next { r with dead := [], visit := noVisit })))

/-- Follows a plan to its end. -/
def follow (plan : Plan) (r : Rehearsal) : Report Rehearsal (Except Failure Value) :=
  let finish (r : Rehearsal) : Report Rehearsal (Except Failure Value) :=
    .done ⟨plan.result, { r with pending := plan.pending.or r.pending }, []⟩
  if plan.collects then reportCycle r finish else finish r

/-- Evaluates by the next plan, whatever the source. -/
def evaluate (r : Rehearsal) : Report Rehearsal (Except Failure Value) :=
  let (failure, failures) := takeFailure .evaluate r.failures
  let r := { r with failures := failures }
  match failure with
  | some failure => .done ⟨.error failure, r, []⟩
  | none =>
    if r.isShutDown then .done ⟨.error .notInitialized, r, []⟩
    else match r.plans with
      | [] => follow .idle r
      | plan :: rest => follow plan { r with plans := rest }

/-- The reports of the finalizers of payloads. -/
def finalizedBy (payload : Option Payload) : List (String × String) :=
  match payload with
  | some ⟨text, some tag⟩ => [(tag, text)]
  | _ => []

/-- Whether an object is gone. One that the collection found dead leaves now. -/
def queryDead (handle : Handle) (r : Rehearsal) : Outcome Rehearsal Bool :=
  let asked : Visit :=
    { r.visit with
      queried := r.visit.queried ++ [handle]
      decidedFirst := r.visit.decidedFirst && r.visit.released.isEmpty }
  if r.dead.contains handle then
    let finalized := finalizedBy ((r.items[handle]?).bind Item.payload)
    ⟨true, { r with
      items := r.items.erase handle
      visit := { asked with finalized := asked.finalized ++ finalized } }, []⟩
  else ⟨!r.items.contains handle, { r with visit := asked }, []⟩

def tearDown (handle : Handle) (r : Rehearsal) : Outcome Rehearsal Unit :=
  ⟨(), { r with
    items := r.items.modify handle ({ · with rooted := false })
    visit := { r.visit with
      tornDown := r.visit.tornDown ++ [handle]
      decidedFirst := r.visit.decidedFirst && r.visit.released.isEmpty } }, []⟩

def forget (handle : Handle) (r : Rehearsal) : Outcome Rehearsal Unit :=
  ⟨(), { r with
    items := r.items.erase handle
    visit := { r.visit with released := r.visit.released ++ [handle] } }, []⟩

/-- Ends the rehearsal. The payloads that are left are finalized, once. -/
def shutdown (r : Rehearsal) : Outcome Rehearsal Unit :=
  if r.isShutDown then ⟨(), r, []⟩
  else
    let finalized := r.items.toList.flatMap fun (_, item) ↦ finalizedBy item.payload
    ⟨(), { r with items := ∅, isShutDown := true },
      finalized.map fun (tag, text) ↦ .finalized tag text⟩

instance : Backend Rehearsal where
  evaluate _ _ := evaluate
  hasPending r := r.pending.isSome
  takePending r := ⟨r.pending, { r with pending := none }, []⟩
  collect r := if r.isShutDown then .done ⟨(), r, []⟩ else reportCycle r fun r ↦ .done ⟨(), r, []⟩
  globalObject := unlessFailing .globalObject fun r ↦ (.ok globalHandle, r)
  createObject := unlessFailing .createObject (whileOpen fun r ↦
    let handle : Handle := ⟨r.next⟩
    (.ok handle, { r with items := r.items.insert handle .fresh, next := r.next + 1 }))
  getProperty target key := unlessFailing .getProperty (onItem target fun item ↦
    ((item.properties[key]?).getD .undefined, item))
  setProperty target key value := unlessFailing .setProperty (onItem target fun item ↦
    ((), { item with properties := item.properties.insert key value }))
  root handle := unlessFailing .root (onItem handle fun item ↦ ((), { item with rooted := true }))
  unroot handle :=
    unlessFailing .unroot (onItem handle fun item ↦ ((), { item with rooted := false }))
  release handle r := ⟨(), { r with items := r.items.erase handle }, []⟩
  attachChild owner _ := unlessFailing .attachChild (onItem owner fun item ↦ ((), item))
  detachChild owner _ := unlessFailing .detachChild (onItem owner fun item ↦ ((), item))
  setPrivateData handle payload := unlessFailing .setPrivateData (onItem handle fun item ↦
    ((), { item with payload := some payload }))
  installClass _ := unlessFailing .installClass (whileOpen fun r ↦ (.ok (), r))
  shutdown := shutdown
  queryDead := queryDead
  tearDown := tearDown
  forget := forget

/-- Lets a collection find objects dead. -/
def addCollectable (handles : List Handle) (r : Rehearsal) : Rehearsal :=
  { r with collectable := r.collectable ++ handles }

/-- Lays down a failure for the next call of an operation. -/
def addFailure (method : Method) (failure : Failure) (r : Rehearsal) : Rehearsal :=
  { r with failures := r.failures ++ [(method, failure)] }

/-- Lays down what an evaluation is to do. -/
def addPlan (plan : Plan) (r : Rehearsal) : Rehearsal := { r with plans := r.plans ++ [plan] }

/-- Drops an object. Tells whether it was there. -/
def drop (handle : Handle) (r : Rehearsal) : Bool × Rehearsal :=
  (r.items.contains handle, { r with items := r.items.erase handle })

end Rehearsal

end ScriptBridge
