import ScriptBridge.Script.Machine

/-!
# Memory

An object is gone as soon as nothing refers to it: neither another object, nor a root. That leaves
rings of objects that refer to each other; those go when a collection finds them out of reach of
the roots. When an object that carries a payload goes, the payload is finalized, if it asked for
that.
-/

namespace ScriptBridge.Script

/-- A set of objects. -/
abbrev ObjectSet := Std.ExtTreeSet ObjectId

namespace Machine

/-- The objects of rooted handles. -/
def rooted (m : Machine) : List ObjectId :=
  (m.slots.toList.filter fun (_, slot) ↦ slot.isRooted).map fun (_, slot) ↦ slot.target

/-- The values that the evaluation under way, jobs and a pending exception keep alive. -/
def held (m : Machine) : List Datum := m.retained :: (m.pending.toList ++ m.pins ++ m.jobs)

/-- The objects that are kept alive by something other than an object. -/
def roots (m : Machine) : List ObjectId :=
  m.anchors ++ m.rooted ++ m.held.flatMap Datum.references

/-- The events that tell of the end of an object. -/
def endOf (o : Object) : List Notice :=
  match o.payload? with
  | some ⟨text, some tag⟩ => [.finalized tag text]
  | _ => []

/-- Removes an object. -/
def free (m : Machine) (id : ObjectId) : Machine :=
  { m with
    heap := m.heap.erase id
    trace := m.trace ++ ((m.heap[id]?).map endOf).getD [] }

/-- The objects to which a root or an object refers, and those that are kept besides. -/
def referenced (kept : List ObjectId) (m : Machine) : ObjectSet :=
  m.heap.foldl (fun set _ o ↦ set.insertMany o.references)
    ((∅ : ObjectSet).insertMany (kept ++ m.roots))

/-- The objects to which nothing refers. -/
def unreferenced (kept : List ObjectId) (m : Machine) : List ObjectId :=
  let set := m.referenced kept
  m.heap.keys.filter fun id ↦ !set.contains id

/-- Removes unreferenced objects in at most so many rounds. -/
def settleWithin (kept : List ObjectId) : Nat → Machine → Machine
  | 0, m => m
  | rounds + 1, m =>
    match m.unreferenced kept with
    | [] => m
    | ids => settleWithin kept rounds (ids.foldl free m)

/-- Removes unreferenced objects until there are none. Each round removes one at least, so that
there are no more rounds than objects. -/
def settle (kept : List ObjectId) (m : Machine) : Machine := settleWithin kept m.heap.size m

/-- Adds objects to a set. Gives those that were not in it. -/
def addAll : List ObjectId → ObjectSet → List ObjectId × ObjectSet
  | [], set => ([], set)
  | id :: rest, set =>
    if set.contains id then addAll rest set
    else
      let (added, set) := addAll rest (set.insert id)
      (id :: added, set)

/-- Adds the objects that can be reached from the newest ones of a set in at most so many steps. -/
def spread (m : Machine) : Nat → List ObjectId → ObjectSet → ObjectSet
  | 0, _, set => set
  | steps + 1, newest, set =>
    match addAll (newest.flatMap fun id ↦ (m.object id).references) set with
    | ([], set) => set
    | (added, set) => m.spread steps added set

/-- The objects that can be reached from the roots. No path needs more steps than there are
objects. -/
def reachable (m : Machine) : ObjectSet :=
  let (newest, set) := addAll m.roots ∅
  m.spread m.heap.size newest set

/-- Removes every object that cannot be reached. -/
def sweep (m : Machine) : Machine :=
  let set := m.reachable
  (m.heap.keys.filter fun id ↦ !set.contains id).foldl free m

/-- A collection that a script asks for. It is to be reported later. -/
def force (m : Machine) : Machine :=
  let swept := m.sweep
  { swept with requests := countRequest swept.requests, forced := swept.forced + 1 }

end Machine

namespace Interp

/-- Does something, and then removes what nothing refers to any longer. The result is kept. -/
def settling (action : Interp Datum) : Interp Datum := OptionT.mk fun m ↦
  let (result, after) := action.run m
  (result, after.settle (result.toList.flatMap Datum.references))

end Interp

end ScriptBridge.Script
