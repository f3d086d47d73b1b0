import ScriptBridge.Script.Coercion

/-!
# Definition of properties

A definition says what becomes of an own property, as far as it says anything: what it leaves open
stays as it is, or is undefined or false if the property is new. A property that is not configurable
admits only changes that nobody could notice or that its flags allow. The length of an array is a
property of its own kind: cutting it drops elements, and elements beyond it move it.
-/

namespace ScriptBridge.Script

/-- What a definition says about a property. -/
structure Descriptor where
  value : Option Datum := none
  writable : Option Bool := none
  getter : Option (Option ObjectId) := none
  setter : Option (Option ObjectId) := none
  enumerable : Option Bool := none
  configurable : Option Bool := none

namespace Descriptor

/-- It speaks of a getter or a setter. -/
def isAccessor (d : Descriptor) : Bool := d.getter.isSome || d.setter.isSome

/-- It speaks of a value. -/
def isData (d : Descriptor) : Bool := d.value.isSome || d.writable.isSome

/-- The content of a new property. -/
def content (d : Descriptor) : Content :=
  if d.isAccessor then .accessor (d.getter.getD none) (d.setter.getD none)
  else .data (d.value.getD .undefined)

/-- The flags of a new property. -/
def flags (d : Descriptor) : Flags where
  writable := !d.isAccessor && d.writable.getD false
  enumerable := d.enumerable.getD false
  configurable := d.configurable.getD false

end Descriptor

def Content.isAccessor : Content → Bool
  | .accessor _ _ => true
  | _ => false

namespace Property

/-- The flags of a property leave room for a definition. -/
def admits (p : Property) (d : Descriptor) : Bool :=
  p.flags.configurable ||
    (d.configurable != some true && d.enumerable.all (· == p.flags.enumerable) &&
      (!(d.isAccessor || d.isData) ||
        (d.isAccessor == p.content.isAccessor &&
          (p.content.isAccessor || p.flags.writable || d.writable != some true))))

/-- The content after a definition. Without result the property must stay as it is. -/
def contentAfter? (p : Property) (d : Descriptor) : Option Content :=
  if d.isAccessor then
    match p.content with
    | .accessor getter setter =>
      if p.flags.configurable ||
          (d.getter.all (· == getter) && d.setter.all (· == setter)) then
        some (.accessor (d.getter.getD getter) (d.setter.getD setter))
      else none
    | _ => some d.content
  else
    match p.content, d.value with
    | .data old, some value =>
      if p.flags.configurable || p.flags.writable || old.isSame value then some (.data value)
      else none
    | _, some value => some (.data value)
    | .accessor _ _, none => some (if d.isData then .data .undefined else p.content)
    | content, none => some content

/-- The flags after a definition. -/
def flagsAfter (p : Property) (d : Descriptor) : Flags where
  writable :=
    if d.isAccessor then false
    else d.writable.getD (p.flags.writable && !p.content.isAccessor)
  enumerable := d.enumerable.getD p.flags.enumerable
  configurable := d.configurable.getD p.flags.configurable

/-- The property after a definition, if it leaves room for that. -/
def redefined? (p : Property) (d : Descriptor) : Option Property := do
  if !p.admits d then none
  return ⟨← p.contentAfter? d, p.flagsAfter d⟩

/-- Keeps a property as it is from now on. -/
def frozen (p : Property) : Property :=
  ⟨p.content, ⟨false, p.flags.enumerable, false⟩⟩

end Property

namespace Object

/-- The length may change. -/
def hasOpenLength (o : Object) : Bool := (o.own? "length").any (·.flags.writable)

/-- The least length from the given one on that an array can be cut to: elements that cannot be
deleted stay. -/
def leastLength (o : Object) (n : Nat) : Nat :=
  o.properties.foldl (fun n (key, p) ↦
    match arrayIndex? key with
    | some i => if !p.flags.configurable && n ≤ i then i + 1 else n
    | none => n) n

/-- Sets the length, which drops the elements from there on. -/
def withLength (o : Object) (n : Nat) : Object :=
  let kept := o.properties.filter fun (key, _) ↦ (arrayIndex? key).all (· < n)
  { o with properties := kept.map fun (key, p) ↦
      if key = "length" then (key, { p with content := .data (.natural n) }) else (key, p) }

/-- Adds a property. An array grows so that its length is beyond every element. -/
def grow (o : Object) (key : String) (p : Property) : Object :=
  let o := o.put key p
  if o.isArray then
    match arrayIndex? key with
    | some i => if o.length ≤ i then o.withLength (i + 1) else o
    | none => o
  else o

/-- Keeps the length as it is from now on. -/
def fixLength (o : Object) : Object :=
  match o.own? "length" with
  | some p => o.put "length" { p with flags := { p.flags with writable := false } }
  | none => o

/-- A new element would have to move a length that is fixed. -/
def barsElement (o : Object) (key : String) : Bool :=
  o.isArray && !o.hasOpenLength && (arrayIndex? key).any (o.length ≤ ·)

/-- Keeps everything as it is from now on. -/
def frozen (o : Object) : Object :=
  { o with
    extensible := false
    properties := o.properties.map fun (key, p) ↦ (key, p.frozen) }

end Object

namespace Interp

/-- Assigns the length of an array. Gives the reason if it does not become what was asked for. -/
def assignLength (invoke : Invoke) (id : ObjectId) (value : Datum) : Interp (Option Fault) := do
  let n ← toLength invoke value
  let o ← object id
  if !o.hasOpenLength then return some (.readOnly "length")
  let least := o.leastLength n
  update id (·.withLength least)
  return if n < least then some .lastingElement else none

/-- Defines a property that is not there yet. An empty array that is not extensible refuses for that
reason, others for their fixed length. -/
def defineNew (id : ObjectId) (key : String) (d : Descriptor) : Interp (Option Fault) := do
  let o ← object id
  let isNext := o.length = 0 && arrayIndex? key = some 0 && !d.isAccessor
  if o.barsElement key && !(isNext && !o.extensible) then return some (.readOnly "length")
  if !o.extensible then return some .notExtensible
  update id (·.grow key ⟨d.content, d.flags⟩)
  return none

/-- Defines the length of an array. -/
def defineLength (invoke : Invoke) (id : ObjectId) (d : Descriptor) : Interp (Option Fault) := do
  let fault ← match d.value with
    | some value => assignLength invoke id value
    | none => pure none
  if d.writable = some false then update id Object.fixLength
  return fault

/-- Defines an own property. Gives the reason if that is refused. -/
def define (invoke : Invoke) (id : ObjectId) (key : String) (d : Descriptor) :
    Interp (Option Fault) := do
  match (← object id).own? key with
  | none => defineNew id key d
  | some p =>
    if !p.admits d then return some .notConfigurable
    if (← object id).isArray && key = "length" && d.isData then defineLength invoke id d
    else
      settleProperty id key
      match (((← object id).own? key).getD p).redefined? d with
      | none => return some .notConfigurable
      | some after =>
        update id (·.put key after)
        return none

/-- Defines an own property, where a refusal is an error. -/
def defineOrThrow (invoke : Invoke) (id : ObjectId) (key : String) (d : Descriptor) :
    Interp Unit := do
  match ← define invoke id key d with
  | none => return
  | some fault => raiseFault fault

/-- What a field of a description says, if it is there, own or inherited. -/
def field? (invoke : Invoke) (description : ObjectId) (key : String) :
    Interp (Option Datum) := do
  if (← view (·.find? description key)).isSome then some <$> read invoke description key
  else return none

/-- What a field of a description says about a function. -/
def functionField? (invoke : Invoke) (description : ObjectId) (key : String) (fault : Fault) :
    Interp (Option (Option ObjectId)) := do
  match ← field? invoke description key with
  | none => return none
  | some .undefined => return some none
  | some d =>
    match ← function? d with
    | some id => return some (some id)
    | none => raiseFault fault

/-- The descriptor that an object describes. -/
def toDescriptor (invoke : Invoke) (description : ObjectId) : Interp Descriptor := do
  let enumerable ← field? invoke description "enumerable"
  let configurable ← field? invoke description "configurable"
  let value ← field? invoke description "value"
  holding value.toList do
    let writable ← field? invoke description "writable"
    let getter ← functionField? invoke description "get" .notGetter
    holding (getter.join.map Datum.object).toList do
      let setter ← functionField? invoke description "set" .notSetter
      let d : Descriptor :=
        ⟨value, writable.map Datum.isTruthy, getter, setter, enumerable.map Datum.isTruthy,
          configurable.map Datum.isTruthy⟩
      if d.isAccessor && d.isData then raiseFault .mixedDescriptor
      return d

/-- Freezes an object. -/
def freeze (id : ObjectId) : Interp Unit := do
  settleProperty id "prototype"
  update id Object.frozen

end Interp

end ScriptBridge.Script
