import ScriptBridge.Script.Definition

/-!
# Assignment and deletion of properties

An assignment follows the prototype chain: a setter there is called, and a property there that is
read-only bars it. Otherwise it changes or makes an own property of the receiver. It can be refused
without an error; what becomes of a refusal is up to the caller, since native code and strict
scripts take it for an error and other scripts pass over it. Deletion concerns own properties only.
-/

namespace ScriptBridge.Script.Interp

/-- Makes a property of a receiver by assignment, if that is possible. -/
def assignNew (receiver : Datum) (key : String) (value : Datum) : Interp (Option Fault) := do
  match receiver with
  | .object id =>
    let o ← object id
    if !o.extensible then return some .notExtensible
    if o.barsElement key then return some (.readOnly "length")
    update id (·.grow key ⟨.data value, .plain⟩)
    return none
  | _ => return some .notObject

/-- Assigns to the data property that an object has for a key, on behalf of a receiver. -/
def assignData (invoke : Invoke) (owner : ObjectId) (p : Property) (receiver : Datum) (key : String)
    (value : Datum) : Interp (Option Fault) := do
  let isOwn := receiver = .object owner
  if isOwn && (← object owner).isArray && key = "length" then assignLength invoke owner value
  else if !p.flags.writable then return some (.readOnly key)
  else if isOwn then
    update owner (·.put key ⟨.data value, p.flags⟩)
    return none
  else assignNew receiver key value

/-- Assigns a property on behalf of a receiver, looked for from an object on. Gives the reason if
the assignment is refused. -/
def assignFrom (invoke : Invoke) (start : ObjectId) (receiver : Datum) (key : String)
    (value : Datum) : Interp (Option Fault) := do
  touch key
  match ← view (·.find? start key) with
  | none => assignNew receiver key value
  | some (owner, p) =>
    match p.content with
    | .accessor _ (some setter) =>
      let _ ← invoke setter receiver [value] none
      return none
    | .accessor _ none => return some .noSetter
    | .deferred =>
      settleProperty owner key
      assignData invoke owner p receiver key value
    | .data _ => assignData invoke owner p receiver key value

/-- Assigns a property of an object. -/
def assign (invoke : Invoke) (id : ObjectId) (key : String) (value : Datum) :
    Interp (Option Fault) :=
  assignFrom invoke id (.object id) key value

/-- Assigns a property of an object, where a refusal is an error. -/
def assignOrThrow (invoke : Invoke) (id : ObjectId) (key : String) (value : Datum) :
    Interp Unit := do
  match ← assign invoke id key value with
  | none => return
  | some fault => raiseFault fault

/-- Assigns a property of any value. -/
def assignOf (invoke : Invoke) (target : Datum) (key : String) (value : Datum) :
    Interp (Option Fault) :=
  match target with
  | .object id => assign invoke id key value
  | .undefined => raiseFault (.assignmentTo key "undefined")
  | .null => raiseFault (.assignmentTo key "null")
  | primitive =>
    match primitive.primitiveType? with
    | some type => assignFrom invoke type.prototype primitive key value
    | none => return some .notObject

/-- Deletes an own property. Tells whether it is gone. -/
def delete (id : ObjectId) (key : String) : Interp Bool := do
  touch key
  match (← object id).own? key with
  | none => return true
  | some p =>
    if p.flags.configurable then
      update id (·.erase key)
      return true
    else return false

/-- Changes the prototype of an object. The prototype of all others never has one. -/
def setPrototype (id : ObjectId) (prototype : Option ObjectId) : Interp Unit := do
  let o ← object id
  if o.prototype = prototype then return
  if id = Realm.objectPrototype then raiseFault .fixedPrototype
  if !o.extensible then raiseFault .notExtensible
  match prototype with
  | some p => if (← view (·.chain p)).contains id then raiseFault .cyclicPrototype
  | none => pure ()
  update id ({ · with prototype })

end ScriptBridge.Script.Interp
