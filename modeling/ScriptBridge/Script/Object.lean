import ScriptBridge.Backend
import ScriptBridge.Script.Datum

/-!
# Objects of the script heap

An object has a kind, a prototype and its own properties in the order of their creation. What an
object refers to is a list, so that the collector and statements about reachability share one
notion.
-/

namespace ScriptBridge.Script

/-- What a property holds. -/
inductive Content where
  | data (value : Datum)
  | accessor (getter setter : Option ObjectId)
  /-- The prototype that instances of a function are to have, made when it is first looked at. -/
  | deferred
  deriving DecidableEq

/-- The permissions of a property. -/
structure Flags where
  writable : Bool
  enumerable : Bool
  configurable : Bool
  deriving DecidableEq, Repr

namespace Flags

/-- The flags of a property made by assignment. -/
def plain : Flags := ⟨true, true, true⟩

/-- Those of a property that loops do not meet. -/
def hidden : Flags := ⟨true, false, true⟩

/-- Those of a property that can be redefined or deleted but not assigned. -/
def fixed : Flags := ⟨false, false, true⟩

/-- Those of a property that loops meet but nothing changes. -/
def shown : Flags := ⟨false, true, false⟩

/-- Those of a property that stays as it is. -/
def sealed : Flags := ⟨false, false, false⟩

/-- Those of a global name that a script declares. -/
def declared : Flags := ⟨true, true, false⟩

/-- Those of a property that can be assigned but not deleted. -/
def permanent : Flags := ⟨true, false, false⟩

end Flags

/-- An own property. -/
structure Property where
  content : Content
  flags : Flags
  deriving DecidableEq

/-- The types of primitive values that scripts can wrap into objects. -/
inductive PrimitiveType where
  | string
  | number
  | boolean
  | symbol
  | bigint
  deriving DecidableEq, Repr

/-- The functions that every script finds. -/
inductive Intrinsic where
  /-- Takes anything and does nothing. -/
  | ignore
  | objectConstructor
  | objectKeys
  | objectGetPrototypeOf
  | objectFreeze
  | objectDefineProperty
  | objectToString
  | objectValueOf
  | prototypeGetter
  | prototypeSetter
  | functionConstructor
  | functionToString
  | arrayConstructor
  | arrayJoin
  | arrayToString
  | errorConstructor (prototype : ObjectId)
  | errorToString
  | primitiveConstructor (type : PrimitiveType)
  | primitiveToString (type : PrimitiveType)
  | primitiveValueOf (type : PrimitiveType)
  | symbolDescription
  | promiseConstructor
  | promiseReject
  | promiseThen
  | promiseCatch
  | reflectApply
  | log
  | forceCollection
  deriving DecidableEq, Repr

/-- A class whose constructor is native. -/
structure NativeClass where
  name : String
  constructor : Option NativeConstructor
  /-- The tag for payloads of instances that are gone. -/
  finalizer : Option String

/-- A function written in a script. -/
structure Routine where
  file : String
  /-- The line on which it begins. -/
  line : Nat
  source : String
  form : FunctionForm
  body : Program

/-- What happens when a function is called. -/
inductive Callable where
  | intrinsic (which : Intrinsic)
  | code (routine : Routine)
  /-- A class written in a script: its constructor is that of the class it extends. -/
  | derived (file : String) (line : Nat) (base : String)
  | native (spec : NativeClass)

/-- What an object is. -/
inductive Kind where
  | ordinary
  | array
  | error
  /-- A primitive value made an object. -/
  | wrapper (value : Datum)
  | function (callable : Callable)
  /-- A promise, with the reason if it was rejected. -/
  | promise (reason : Option Datum)
  /-- Holds a native payload for another object. -/
  | carrier (payload : Payload)

/-- An object of the script heap. -/
structure Object where
  kind : Kind
  prototype : Option ObjectId
  extensible : Bool
  /-- The own properties, in the order of their creation. -/
  properties : List (String × Property)
  /-- The class name that texts of the object and of those that inherit from it show. -/
  tag : Option String := none

/-- The objects that a content refers to. -/
def Content.references : Content → List ObjectId
  | .data value => value.references
  | .accessor getter setter => getter.toList ++ setter.toList
  | .deferred => []

/-- The objects that a kind refers to. -/
def Kind.references : Kind → List ObjectId
  | .wrapper value | .promise (some value) => value.references
  | .function (.intrinsic (.errorConstructor prototype)) => [prototype]
  | _ => []

namespace Object

/-- An object without properties. -/
def empty (kind : Kind) (prototype : Option ObjectId) : Object := ⟨kind, prototype, true, [], none⟩

/-- The own property of a key. -/
def own? (o : Object) (key : String) : Option Property := o.properties.lookup key

/-- Replaces the property of a key, or adds it behind the others. -/
def putEntry (key : String) (p : Property) : List (String × Property) → List (String × Property)
  | [] => [(key, p)]
  | (k, q) :: rest => if k = key then (k, p) :: rest else (k, q) :: putEntry key p rest

/-- Replaces the property of a key, or adds it behind the others. -/
def put (o : Object) (key : String) (p : Property) : Object :=
  { o with properties := putEntry key p o.properties }

/-- Adds a data property. -/
def withData (o : Object) (key : String) (value : Datum) (flags : Flags) : Object :=
  o.put key ⟨.data value, flags⟩

/-- Removes the property of a key. -/
def erase (o : Object) (key : String) : Object :=
  { o with properties := o.properties.filter fun (k, _) ↦ k != key }

theorem lookup_putEntry_self (key : String) (p : Property) (entries : List (String × Property)) :
    (putEntry key p entries).lookup key = some p := by
  induction entries with
  | nil => simp [putEntry]
  | cons entry rest ih =>
    obtain ⟨k, q⟩ := entry
    by_cases h : k = key
    · simp [putEntry, h]
    · have hk : (key == k) = false := by simpa using Ne.symm h
      simp [putEntry, h, List.lookup_cons, hk, ih]

theorem lookup_putEntry_of_ne {key other : String} (h : other ≠ key) (p : Property)
    (entries : List (String × Property)) :
    (putEntry key p entries).lookup other = entries.lookup other := by
  have ho : (other == key) = false := by simpa using h
  induction entries with
  | nil => simp [putEntry, List.lookup_cons, ho]
  | cons entry rest ih =>
    obtain ⟨k, q⟩ := entry
    by_cases hk : k = key
    · simp [putEntry, hk, List.lookup_cons, ho]
    · simp only [putEntry, hk, if_false, List.lookup_cons, ih]

@[simp]
theorem own?_put_self (o : Object) (key : String) (p : Property) :
    (o.put key p).own? key = some p :=
  lookup_putEntry_self key p o.properties

/-- Putting a property touches no other. -/
theorem own?_put_of_ne (o : Object) {key other : String} (h : other ≠ key) (p : Property) :
    (o.put key p).own? other = o.own? other :=
  lookup_putEntry_of_ne h p o.properties

/-- The objects that an object refers to. -/
def references (o : Object) : List ObjectId :=
  o.prototype.toList ++ o.kind.references ++
    o.properties.flatMap fun (_, p) ↦ p.content.references

/-- The payload that is to be finalized when the object is gone. -/
def payload? (o : Object) : Option Payload :=
  match o.kind with
  | .carrier payload => some payload
  | _ => none

def callable? (o : Object) : Option Callable :=
  match o.kind with
  | .function callable => some callable
  | _ => none

def isArray (o : Object) : Bool :=
  match o.kind with
  | .array => true
  | _ => false

def isError (o : Object) : Bool :=
  match o.kind with
  | .error => true
  | _ => false

end Object

/-- The function can be used with `new`, even if it then refuses. -/
def Callable.isConstructor : Callable → Bool
  | .intrinsic which =>
    match which with
    | .objectConstructor | .functionConstructor | .arrayConstructor | .errorConstructor _
    | .primitiveConstructor _ | .promiseConstructor => true
    | _ => false
  | .code routine => routine.form == .standalone
  | .derived _ _ _ | .native _ => true

end ScriptBridge.Script
