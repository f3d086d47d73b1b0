import ScriptBridge.Script.Conversion

/-!
# Arrays

An array is an object whose elements are the properties with an index for a key. Whatever has a
length can be read like one.
-/

namespace ScriptBridge.Script.Interp

/-- Makes an array of elements. -/
def allocateArray (prototype : ObjectId) (elements : List Datum) : Interp ObjectId := do
  let o := (Object.empty .array (some prototype)).withData
    "length" (.natural elements.length) .permanent
  let entries := elements.mapIdx fun i d ↦ (toString i, (⟨.data d, .plain⟩ : Property))
  allocate { o with properties := o.properties ++ entries }

/-- A new array. -/
def newArray (elements : List Datum) : Interp Datum :=
  Datum.object <$> allocateArray Realm.arrayPrototype elements

/-- The greatest whole number that counts elements. -/
def greatestLength : Float := 9007199254740991

/-- How many elements something has. -/
def lengthOf (invoke : Invoke) (id : ObjectId) : Interp Nat := do
  let x ← toNumber invoke (← read invoke id "length")
  if x.isNaN || x ≤ 0 then return 0
  return (if x < greatestLength then x else greatestLength).toUInt64.toNat

/-- The elements at the given indices. -/
def elementsAt (invoke : Invoke) (id : ObjectId) : List Nat → Interp (List Datum)
  | [] => return []
  | i :: rest => do
    let d ← read invoke id (toString i)
    return d :: (← holding [d] (elementsAt invoke id rest))

/-- The most arguments that a call can have. -/
def mostArguments : Nat := 65534

/-- The elements of an array, which become the arguments of a call. -/
def argumentsOf (invoke : Invoke) (id : ObjectId) : Interp (List Datum) := do
  let n ← lengthOf invoke id
  if mostArguments < n then raiseFault .tooManyArguments
  elementsAt invoke id (List.range n)

/-- The texts of the elements at the given indices, where undefined and null count as empty. -/
def elementTexts (invoke : Invoke) (id : ObjectId) : List Nat → Interp (List Text.Units)
  | [] => return []
  | i :: rest => do
    let d ← read invoke id (toString i)
    let units ← if d.isNullish then pure [] else holding [d] (toText invoke d)
    return units :: (← elementTexts invoke id rest)

/-- The units that a text may have. -/
def longestText : Nat := 1073741823

/-- The texts of the elements with a separator between them. -/
def joinElements (invoke : Invoke) (id : ObjectId) (separator : Datum) : Interp Text.Units := do
  let n ← lengthOf invoke id
  let separator ← if separator = .undefined then pure (.ofString ",") else toText invoke separator
  if longestText < (n - 1) * separator.length then raiseFault .textTooLong
  return separator.intercalate (← elementTexts invoke id (List.range n))

/-- The prototype for an instance made by `new`, or the usual one. -/
def prototypeFor (invoke : Invoke) (newTarget : Option ObjectId) (usual : ObjectId) :
    Interp ObjectId := do
  match newTarget with
  | none => return usual
  | some target =>
    match ← read invoke target "prototype" with
    | .object id => return id
    | _ => return usual

/-- Makes an array. A single number is its length, all else are its elements. -/
def makeArray (invoke : Invoke) (newTarget : Option ObjectId) (arguments : List Datum) :
    Interp Datum := do
  let prototype ← prototypeFor invoke newTarget Realm.arrayPrototype
  match arguments with
  | [length] =>
    if length.number?.isSome then
      let id ← allocateArray prototype []
      if let some fault ← holding [.object id] (assignLength invoke id length) then
        raiseFault fault
      return .object id
    else return .object (← allocateArray prototype arguments)
  | _ => return .object (← allocateArray prototype arguments)

end ScriptBridge.Script.Interp
