import ScriptBridge.Script.Object

/-!
# The script machine

The state of a script engine: its heap, the handles given to native code, and whatever else keeps
objects alive. Interpreting a script transforms that state; an interpretation that gives no result
has left an exception pending. All state changes of scripts are made of the few steps defined here
and of those of `Script.Memory`.
-/

namespace ScriptBridge.Script

/-- A handle of native code. It tells whether its object is gone, and keeps it alive only while it
is rooted. -/
structure Slot where
  target : ObjectId
  isRooted : Bool
  deriving DecidableEq, Repr

/-- Where a function or a script stands in its file, and how far it has come. -/
structure Place where
  file : String
  /-- The line on which the function or the script begins. -/
  firstLine : Nat
  /-- The line of the statement that is being executed. -/
  current : Nat
  /-- The line noted last, which is the one that a stack text shows. It is noted where an expression
  statement begins, before the arguments of a call are evaluated, and between the operands of an
  operator. -/
  line : Nat
  deriving DecidableEq, Repr

/-- A place at its beginning. -/
def Place.start (file : String) (line : Nat) : Place := ⟨file, line, line, line⟩

/-- A function at work, or a script. -/
structure Frame where
  /-- The function; a script has none. -/
  callee : Option ObjectId
  /-- Where it stands; native functions stand nowhere. -/
  place : Option Place
  deriving DecidableEq, Repr

/-- The key under which an object refers to the carrier of its payload. -/
def payloadKey : String := "__jsbPrivate"

/-- What the machine was entrusted with. Nothing depends on it; it is there to tell what becomes of
payloads. -/
structure Ledger where
  /-- The carriers that were made, with their payloads. -/
  made : List (ObjectId × Payload)
  /-- The objects that were given a carrier, each with the carrier. -/
  given : List (ObjectId × ObjectId)
  /-- Whether the property that leads to carriers was ever named other than to attach a payload. -/
  isTouched : Bool

/-- The state of a script engine. -/
structure Machine where
  heap : Std.ExtTreeMap ObjectId Object
  /-- The place of the next object. -/
  nextObject : Nat
  nextSymbol : Nat
  slots : Std.ExtTreeMap Handle Slot
  /-- The index of the next handle. -/
  nextHandle : Nat
  /-- The handles that were ever given out, in order. Nothing depends on them. -/
  issued : List Handle
  globalHandle : Option Handle
  /-- How many collections scripts have asked for since one was reported, as far as counted. -/
  requests : Nat
  /-- How many collections scripts have ever asked for. Nothing depends on it. -/
  forced : Nat
  /-- Whether scripts are strict: a refused assignment or deletion throws. -/
  isStrict : Bool
  /-- The objects that the machine itself holds on to. -/
  anchors : List ObjectId
  pending : Option Datum
  /-- The exceptions that native code has passed over, in order. Nothing depends on them. -/
  overlooked : List Datum
  /-- The value of the statement last executed. -/
  retained : Datum
  /-- Values in use by the evaluation under way. -/
  pins : List Datum
  /-- What jobs hold that wait to be run. -/
  jobs : List Datum
  frames : List Frame
  /-- What has happened in the operation under way. -/
  trace : List Notice
  ledger : Ledger
  isOpen : Bool

/-- As many requests for a collection are counted, and no more. -/
def mostRequests : Nat := UInt32.size - 1

/-- Counts one more request. -/
def countRequest (n : Nat) : Nat := min (n + 1) mostRequests

/-- An interpretation. Without a result, an exception is pending. -/
abbrev Interp := OptionT (StateM Machine)

/-- Calls a function with a receiver and arguments, and with the function that `new` was applied to
in case of a construction. -/
abbrev Invoke := ObjectId → Datum → List Datum → Option ObjectId → Interp Datum

namespace Machine

/-- The object at a place. Places without object count as empty. -/
def object (m : Machine) (id : ObjectId) : Object := (m.heap[id]?).getD (.empty .ordinary none)

/-- Puts an object at a new place. -/
def allocate (o : Object) (m : Machine) : ObjectId × Machine :=
  (⟨m.nextObject⟩,
    { m with heap := m.heap.insert ⟨m.nextObject⟩ o, nextObject := m.nextObject + 1 })

/-- Changes the object at a place. -/
def update (id : ObjectId) (f : Object → Object) (m : Machine) : Machine :=
  { m with heap := m.heap.modify id f }

/-- Gives out a handle for an object, rooted. -/
def issue (id : ObjectId) (m : Machine) : Handle × Machine :=
  (⟨m.nextHandle⟩,
    { m with
      slots := m.slots.insert ⟨m.nextHandle⟩ ⟨id, true⟩
      nextHandle := m.nextHandle + 1
      issued := m.issued ++ [⟨m.nextHandle⟩] })

@[simp]
theorem slots_issue (m : Machine) (id : ObjectId) :
    (m.issue id).2.slots = m.slots.insert (m.issue id).1 ⟨id, true⟩ :=
  rfl

/-- Notes that native code passes over the pending exception. -/
def overlook (m : Machine) : Machine := { m with overlooked := m.overlooked ++ m.pending.toList }

/-- Forgets handles. -/
def retire (handles : List Handle) (m : Machine) : Machine :=
  { m with slots := handles.foldl (fun slots h ↦ slots.erase h) m.slots }

end Machine

namespace Interp

variable {α : Type}

/-- Looks at the machine. -/
def view (f : Machine → α) : Interp α := do return f (← get)

/-- The object at a place. -/
def object (id : ObjectId) : Interp Object := view (·.object id)

def allocate (o : Object) : Interp ObjectId := modifyGet (Machine.allocate o)

def update (id : ObjectId) (f : Object → Object) : Interp Unit := modify (Machine.update id f)

/-- Leaves an exception pending. -/
def raise (thrown : Datum) : Interp α := do
  modify fun m ↦ { m with pending := some thrown }
  failure

/-- Notes that the property of a key is named. -/
def touch (key : String) : Interp Unit :=
  modify fun m ↦
    if key = payloadKey then { m with ledger := { m.ledger with isTouched := true } } else m

/-- Notes an event. -/
def emit (event : Notice) : Interp Unit :=
  modify fun m ↦ { m with trace := m.trace ++ [event] }

/-- Tries something. If it throws, the exception stays pending. -/
def trying (action : Interp α) : Interp (Option α) := OptionT.mk do return some (← action.run)

/-- Tries something on behalf of native code, which passes over an exception: it stays pending. -/
def passingOver (action : Interp α) : Interp (Option α) := OptionT.mk fun m ↦
  let (result, after) := action.run m
  (some result, if result.isSome then after else after.overlook)

/-- Takes the pending exception away. -/
def takePending : Interp (Option Datum) :=
  modifyGet fun m ↦ (m.pending, { m with pending := none })

/-- Keeps values alive while something is done. -/
def holding (values : List Datum) (action : Interp α) : Interp α := OptionT.mk fun m ↦
  let (result, after) := action.run { m with pins := values ++ m.pins }
  (result, { after with pins := m.pins })

/-- Does something within a frame. -/
def inFrame (frame : Frame) (action : Interp α) : Interp α := OptionT.mk fun m ↦
  let (result, after) := action.run { m with frames := frame :: m.frames }
  (result, { after with frames := m.frames })

/-- Changes the place of the frame on top. -/
def updatePlace (f : Place → Place) : Interp Unit :=
  modify fun m ↦
    match m.frames with
    | [] => m
    | frame :: rest => { m with frames := { frame with place := frame.place.map f } :: rest }

/-- Enters a statement of the frame on top, given by its distance from the first line. -/
def enterLine (distance : Nat) : Interp Unit :=
  updatePlace fun place ↦ { place with current := place.firstLine + distance }

/-- Notes the line of the statement that is being executed. -/
def noteLine : Interp Unit := updatePlace fun place ↦ { place with line := place.current }

end Interp

end ScriptBridge.Script
