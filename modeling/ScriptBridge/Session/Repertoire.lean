import ScriptBridge.Engine.Operation

/-!
# The callbacks of a session

Native code takes part in a session through module initializers, known by name, and through class
constructors of a few kinds.
-/

namespace ScriptBridge.Session

/-- A routine of one operation, which fails if the operation does. -/
def once (operation : Operation) : Routine :=
  .step operation fun reply ↦ .finish (reply.map fun _ ↦ ())

/-- The initializers. `alpha` and `beta` leave a trace of their order on the global object, `fail`
and `throw` fail, `enqueue` and `again` register initializers, `cleanup` and `restart` interfere
with the lifecycle, and `object` creates a wrapper. -/
def repertoire : Repertoire
  | "alpha", global => once (.setProperty global "alpha" (.number 1))
  | "beta", global =>
    .step (.getProperty global "alpha") fun reply ↦
      match reply with
      | .error failure => .finish (.error failure)
      | .ok reply =>
        let seen := match reply with
          | .value (some v) => v.strictEquals (.number 1)
          | _ => false
        once (.setProperty global "beta" (.string (if seen then "after alpha" else "before alpha")))
  | "fail", _ => .finish (.error (.engine "module refused to load"))
  | "throw", _ =>
    once (.executeBuffer "throw new Error('module boom')".toUTF8.toList (some "mod.js"))
  | "enqueue", _ => once (.addInitializer "alpha")
  | "again", _ => once (.addInitializer "again")
  | "cleanup", _ => once .cleanup
  | "restart", _ => once .start
  | "object", _ => once (.createObject ⟨0x99⟩)
  | _, _ => .finish (.ok ())

/-- How deep starts nest in a session: `restart` is the only initializer that starts, and no
initializer registers it. -/
def startDepth : Nat := 4

/-- The kinds of native constructors. -/
inductive ConstructorMode where
  /-- Gives a payload that shows the call. -/
  | payload
  | fail (failure : Failure)
  /-- Fails without arguments, and otherwise gives no payload. -/
  | failIfEmpty (failure : Failure)
  | nothing

/-- The constructor of a mode for the class of a name. -/
def ConstructorMode.build (name : String) : ConstructorMode → NativeConstructor
  | .payload, args => .ok (some (name ++ "(" ++ ",".intercalate (args.map Value.display) ++ ")"))
  | .fail failure, _ => .error failure
  | .failIfEmpty failure, args => if args.isEmpty then .error failure else .ok none
  | .nothing, _ => .ok none

end ScriptBridge.Session
