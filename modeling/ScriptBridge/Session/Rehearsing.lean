import ScriptBridge.Session.Step

/-!
# Sessions with a rehearsal

What a session may lay down for a rehearsal, and how it looks at the objects.
-/

namespace ScriptBridge.Session

/-- A request to a rehearsal. -/
inductive RehearsalRequest where
  | collectable (handles : List Handle)
  | pending (exception : ScriptException)
  /-- Lays down a failure; operations that cannot fail are not to be named. -/
  | failNext (method : Option Rehearsal.Method) (failure : Failure)
  | nextPlan (plan : Rehearsal.Plan)
  /-- Replaces all plans by this one. -/
  | onlyPlan (plan : Rehearsal.Plan)
  | forget (handle : Handle)
  | heap

instance : Stage Rehearsal RehearsalRequest where
  grant request r :=
    match request with
    | .collectable handles => (.nothing, r.addCollectable handles)
    | .pending exception => (.nothing, { r with pending := some exception })
    | .failNext (some method) failure => (.nothing, r.addFailure method failure)
    | .failNext none _ => (.nothing, r)
    | .nextPlan plan => (.nothing, r.addPlan plan)
    | .onlyPlan plan => (.nothing, { r with plans := [plan] })
    | .forget handle =>
      let (wasThere, r) := r.drop handle
      (.flag wasThere, r)
    | .heap => (.heap r.items.toList, r)
  handleCount _ := none

end ScriptBridge.Session
