import ScriptBridge.Script.Fault
import ScriptBridge.Text.Natural

/-!
# Access to properties

Reading follows the prototype chain. Getters are script code, so reading is given a way to call
functions. A primitive value is read as if it were the object that wraps it.
-/

namespace ScriptBridge.Script

/-- The index that a key spells: a decimal number without superfluous zeros, below the greatest
length of an array. -/
def arrayIndex? (key : String) : Option Nat := do
  let n ← Text.digitsBelow? 0xffffffff 0 key.toList
  if key = toString n then some n else none

namespace Object

/-- The length of an array. -/
def length (o : Object) : Nat :=
  match o.own? "length" with
  | some ⟨.data value, _⟩ => ((value.number?.map Float.toUInt64).map UInt64.toNat).getD 0
  | _ => 0

/-- The keys that loops meet: indices in ascending order, then the others by age. -/
def enumerableKeys (o : Object) : List String :=
  let keys := (o.properties.filter fun (_, p) ↦ p.flags.enumerable).map Prod.fst
  let indices := (keys.filterMap arrayIndex?).mergeSort (· ≤ ·)
  indices.map toString ++ keys.filter fun k ↦ (arrayIndex? k).isNone

end Object

namespace Machine

/-- An object and its prototypes, in at most so many steps. -/
def chainWithin (m : Machine) : Nat → ObjectId → List ObjectId
  | 0, _ => []
  | steps + 1, id =>
    id :: match (m.object id).prototype with
      | none => []
      | some parent => m.chainWithin steps parent

/-- An object and its prototypes. No chain holds an object twice. -/
def chain (m : Machine) (id : ObjectId) : List ObjectId := m.chainWithin m.heap.size id

/-- The property of a key, own or inherited, and the object whose own it is. -/
def find? (m : Machine) (id : ObjectId) (key : String) : Option (ObjectId × Property) :=
  (m.chain id).findSome? fun owner ↦ ((m.object owner).own? key).map (owner, ·)

end Machine

namespace Interp

/-- Makes the prototype for instances of a function, which knows the function as its
constructor. -/
def makeDeferred (owner : ObjectId) (key : String) (flags : Flags) : Interp Datum := do
  let made ← allocate ((Object.empty .ordinary (some Realm.objectPrototype)).withData
    "constructor" (.object owner) .hidden)
  update owner (·.put key ⟨.data (.object made), flags⟩)
  return .object made

/-- Makes the value of an own property if it has been put off. -/
def settleProperty (id : ObjectId) (key : String) : Interp Unit := do
  match (← object id).own? key with
  | some ⟨.deferred, flags⟩ => let _ ← makeDeferred id key flags
  | _ => pure ()

/-- Reads a property of an object on behalf of a receiver. -/
def readFor (invoke : Invoke) (id : ObjectId) (receiver : Datum) (key : String) :
    Interp Datum := do
  touch key
  match ← view (·.find? id key) with
  | none => return .undefined
  | some (owner, p) =>
    match p.content with
    | .data value => return value
    | .accessor (some getter) _ => invoke getter receiver [] none
    | .accessor none _ => return .undefined
    | .deferred => makeDeferred owner key p.flags

/-- Reads a property of an object. -/
def read (invoke : Invoke) (id : ObjectId) (key : String) : Interp Datum :=
  readFor invoke id (.object id) key

/-- The unit of a text that a key stands for, or its length. -/
def unitOf? (units : Text.Units) (key : String) : Option Datum :=
  if key = "length" then some (.natural units.length)
  else ((arrayIndex? key).bind fun i ↦ units[i]?).map fun unit ↦ .string [unit]

/-- Reads a property of any value. What is raised if there is nothing to read from tells of the key
or not. -/
def readOf (invoke : Invoke) (target : Datum) (key : String) (shownKey : Option String) :
    Interp Datum :=
  match target with
  | .object id => read invoke id key
  | .undefined => raiseFault (.readOf shownKey "undefined")
  | .null => raiseFault (.readOf shownKey "null")
  | primitive =>
    match primitive with
    | .string units =>
      match unitOf? units key with
      | some unit => return unit
      | none => readFor invoke PrimitiveType.string.prototype target key
    | _ =>
      match primitive.primitiveType? with
      | some type => readFor invoke type.prototype target key
      | none => return .undefined

/-- The object that a value is, or one that wraps it. -/
def toObject (d : Datum) : Interp ObjectId := do
  match d, d.primitiveType? with
  | .object id, _ => return id
  | _, some type => allocate (Realm.wrapperObject type.prototype d)
  | _, none => raiseFault .notConvertible

end Interp

end ScriptBridge.Script
