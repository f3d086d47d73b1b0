import ScriptBridge.Failure
import ScriptBridge.Script.Assignment

/-!
# Values on their way across the bridge

A datum that leaves the script heap becomes a value. An object is given a new handle, even if there
is one for it already, until the indices of handles are used up. Symbols and big integers become
texts; a text in which a surrogate stands alone cannot leave. The description of a symbol is a
property that scripts may have redefined, so it is read first. In the other direction every value
has a datum, unless its handle is unknown or its object is gone.
-/

namespace ScriptBridge.Script

/-- Why a text cannot leave: the place is that of a surrogate that stands alone. -/
def loneSurrogate (place : Nat) : String :=
  "Conversion from string failed: invalid utf-8 sequence of 1 bytes from index " ++ toString place

/-- The name of the type of a datum other than an object. -/
def Datum.typeName : Datum → String
  | .undefined => "undefined"
  | .null => "null"
  | .boolean _ => "bool"
  | .integer _ => "int"
  | .double _ => "float"
  | .string _ => "string"
  | .symbol _ _ => "symbol"
  | .bigint _ => "big_int"
  | .object _ => "object"

/-- The name of the type of an object. -/
def Object.typeName (o : Object) : String :=
  match o.kind with
  | .array => "array"
  | .function callable => if callable.isConstructor then "constructor" else "function"
  | .error => "exception"
  | .promise _ => "promise"
  | .ordinary | .wrapper _ | .carrier _ => "object"

/-- The object that a datum is, where undefined and null stand for none. -/
def Datum.optionalObject : Datum → Except String (Option ObjectId)
  | .object id => .ok (some id)
  | .undefined | .null => .ok none
  | d => .error ("Error converting from js '" ++ d.typeName ++ "' into type 'object'")

/-- The object that a datum is. -/
def Datum.requiredObject : Datum → Except String ObjectId
  | .object id => .ok id
  | d => .error ("Error converting from js '" ++ d.typeName ++ "' into type 'object'")

namespace Datum

/-- The text of a string. -/
def units? : Datum → Option Text.Units
  | .string units => some units
  | _ => none

end Datum

namespace Interp

/-- A datum as it is seen by native code: the description of a symbol is read on its behalf, and if
that is no text or cannot be read, there is none. -/
def described (invoke : Invoke) (d : Datum) : Interp Datum := do
  match d with
  | .symbol number _ =>
    let description ← passingOver (readFor invoke PrimitiveType.symbol.prototype d "description")
    return .symbol number (description.bind Datum.units?)
  | _ => return d

end Interp

namespace Machine

/-- As many handles are given out, and no more. -/
def mostHandles : Nat := UInt32.size - 1

/-- Why another handle is not given out. -/
def noHandleLeft : Failure := .engine "object handle space exhausted"

/-- Gives out a handle for an object, if there are any left. -/
def handOut (id : ObjectId) (m : Machine) : Except Failure Handle × Machine :=
  if m.nextHandle < mostHandles then
    let (handle, m) := m.issue id
    (.ok handle, m)
  else (.error noHandleLeft, m)

/-- The value of a datum that leaves the script heap. -/
def toValue (d : Datum) (m : Machine) : Except Failure Value × Machine :=
  match d with
  | .undefined => (.ok .undefined, m)
  | .null => (.ok .null, m)
  | .boolean b => (.ok (.boolean b), m)
  | .integer n => (.ok (.number (Float.ofInt n.toInt)), m)
  | .double x => (.ok (.number x), m)
  | .string units =>
    match units.decode with
    | .ok s => (.ok (.string s), m)
    | .error place => (.error (.engine (loneSurrogate place)), m)
  | .symbol _ description =>
    (.ok (.string ("Symbol(" ++ ((description.getD []).toString?).getD "" ++ ")")), m)
  | .bigint n => (.ok (.string (toString n)), m)
  | .object id =>
    let (handle, m) := m.handOut id
    (handle.map .object, m)

/-- The object behind a handle. A rooted handle keeps it alive; otherwise it may be gone. -/
def resolve (h : Handle) (m : Machine) : Except Failure (Option ObjectId) :=
  match m.slots[h]? with
  | none => .error (.unknownHandle h)
  | some slot =>
    .ok (if slot.isRooted || m.heap.contains slot.target then some slot.target else none)

/-- The object behind a handle, which must not be gone. -/
def resolveLive (h : Handle) (m : Machine) : Except Failure ObjectId :=
  match m.resolve h with
  | .ok (some id) => .ok id
  | .ok none => .error (.unknownHandle h)
  | .error failure => .error failure

/-- The datum of a value that enters the script heap. Negative zero loses its sign. -/
def ofValue (value : Value) (m : Machine) : Except Failure Datum :=
  match value with
  | .undefined => .ok .undefined
  | .null => .ok .null
  | .boolean b => .ok (.boolean b)
  | .number x => .ok (.ofFloat (if x == 0 then 0 else x))
  | .string s => .ok (.text s)
  | .object h => (m.resolveLive h).map .object

end Machine

namespace Interp

/-- The value of a datum that goes to native code. -/
def handOver (invoke : Invoke) (d : Datum) : Interp (Except Failure Value) := do
  modifyGet (Machine.toValue (← described invoke d))

/-- The values of data that go to native code one after the other, up to the first that cannot. -/
def handOverAll (invoke : Invoke) : List Datum → Interp (List Value × Option Failure)
  | [] => return ([], none)
  | d :: rest => do
    match ← handOver invoke d with
    | .error failure => return ([], some failure)
    | .ok value =>
      let (values, failure) ← handOverAll invoke rest
      return (value :: values, failure)

end Interp

end ScriptBridge.Script
