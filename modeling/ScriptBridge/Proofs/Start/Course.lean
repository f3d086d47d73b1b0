import ScriptBridge.Proofs.Engine.Surroundings
import ScriptBridge.Proofs.Start.Account

/-!
# Courses

A start hands the engine to its initializers, and these may ask anything of it, also to start again.
A course takes such a run apart into steps: it has the engine, the chronicle so far, the starts
under way, and what the innermost of them is about to do. An initializer may run as any routine that
its behaviour admits, and it need not run the same way twice. All engines on a course are reachable,
so what holds of reachable engines holds in the midst of a start as well.
-/

namespace ScriptBridge

open Chronicle

/-- A start under way. -/
structure Underway where
  number : Nat
  /-- The global object, which it gives to its initializers. -/
  global : Handle
  /-- The position of the initializer that it has come to. -/
  position : Nat
  /-- What it has yet to invoke. -/
  rest : List Registration
  /-- How the routine goes on that asked for the start. -/
  next : Except Failure Reply → Routine

/-- How far a start has come whose initializer is running. -/
def Underway.within (u : Underway) : Nat × Progress := (u.number, .within u.position u.rest)

/-- What goes on. -/
inductive Doing where
  | running (routine : Routine)
  /-- The innermost start turns to its next initializer. -/
  | choosing

/-- The routines that an initializer may run as for the global object it is given. -/
abbrev Behaviour := String → Handle → Routine → Prop

/-- Initializers that run as a repertoire says. -/
def Repertoire.behaviour (repertoire : Repertoire) : Behaviour := fun name global routine ↦
  routine = repertoire name global

namespace Engine

variable {σ : Type}

/-- What an operation other than a start adds to the chronicle. -/
def marks (e : Engine σ) (h : List Mark) : Operation → Except Failure Reply → List Mark
  | .addInitializer name, .ok _ => [.registered ⟨(accepted h).length, name⟩]
  | .cleanup, _ => if e.isValid then [.tornDown] else []
  | _, _ => []

/-- The engine when a start has taken its queue. -/
def taken (e : Engine σ) : Engine σ := { e with started := true, queue := [] }

/-- The engine after one more event. -/
def noted (e : Engine σ) (event : Event) : Engine σ := { e with trace := e.trace ++ [event] }

@[simp]
theorem isValid_taken (e : Engine σ) : e.taken.isValid = e.isValid :=
  rfl

@[simp]
theorem isValid_noted (e : Engine σ) (event : Event) : (e.noted event).isValid = e.isValid :=
  rfl

/-- What a start logs about an initializer that failed. -/
def refusal (position : Nat) (source : Failure) : Event :=
  .log .error ("Module initializer #" ++ toString position ++ " failed: " ++ source.message)

end Engine

/-- An engine in use. At the bottom of all starts is the routine of a client. -/
structure Course (σ : Type) where
  engine : Engine σ
  chronicle : List Mark
  /-- The starts under way, the innermost first. -/
  starts : List Underway
  doing : Doing

namespace Course

open Engine

variable {σ : Type} [Backend σ]

/-- One step of a course. -/
inductive Step (may : Behaviour) : Course σ → Course σ → Prop
  | operate {e : Engine σ} {h : List Mark} {starts : List Underway} {op : Operation}
    {next : Except Failure Reply → Routine} (hop : op ≠ .start) :
    Step may ⟨e, h, starts, .running (.step op next)⟩
      ⟨(performSimple op e).2, h ++ marks e h op (performSimple op e).1, starts,
        .running (next (performSimple op e).1)⟩
  /-- An engine that is torn down is not started. -/
  | refuse {e : Engine σ} {h : List Mark} {starts : List Underway}
    {next : Except Failure Reply → Routine} (hdead : e.isValid = false ∨ e.global = none) :
    Step may ⟨e, h, starts, .running (.step .start next)⟩
      ⟨e, h, starts, .running (next (.error .notInitialized))⟩
  /-- A start takes all that waits. -/
  | begin {e : Engine σ} {h : List Mark} {starts : List Underway}
    {next : Except Failure Reply → Routine} {global : Handle} (hvalid : e.isValid = true)
    (hglobal : e.global = some global) :
    Step may ⟨e, h, starts, .running (.step .start next)⟩
      ⟨e.taken, h ++ [.began (takings h).length (waiting h)],
        ⟨(takings h).length, global, 0, waiting h, next⟩ :: starts, .choosing⟩
  | invoke {e : Engine σ} {h : List Mark} {number position : Nat} {global : Handle}
    {r : Registration} {rest : List Registration} {next : Except Failure Reply → Routine}
    {starts : List Underway} {routine : Routine} (hmay : may r.name global routine) :
    Step may ⟨e, h, ⟨number, global, position, r :: rest, next⟩ :: starts, .choosing⟩
      ⟨e.noted (.initializer r.name global), h ++ [.invoked number position r],
        ⟨number, global, position, rest, next⟩ :: starts, .running routine⟩
  | pass {e : Engine σ} {h : List Mark} {number position : Nat} {global : Handle}
    {rest : List Registration} {next : Except Failure Reply → Routine} {starts : List Underway} :
    Step may ⟨e, h, ⟨number, global, position, rest, next⟩ :: starts, .running (.finish (.ok ()))⟩
      ⟨e, h ++ [.succeeded number position],
        ⟨number, global, position + 1, rest, next⟩ :: starts, .choosing⟩
  /-- An initializer that fails ends the start. -/
  | fail {e : Engine σ} {h : List Mark} {number position : Nat} {global : Handle}
    {rest : List Registration} {next : Except Failure Reply → Routine} {starts : List Underway}
    {source : Failure} :
    Step may
      ⟨e, h, ⟨number, global, position, rest, next⟩ :: starts, .running (.finish (.error source))⟩
      ⟨e.noted (refusal position source),
        h ++ [.ended number (.error (.initializer position source))], starts,
        .running (next (.error (.initializer position source)))⟩
  | complete {e : Engine σ} {h : List Mark} {number position : Nat} {global : Handle}
    {next : Except Failure Reply → Routine} {starts : List Underway} :
    Step may ⟨e, h, ⟨number, global, position, [], next⟩ :: starts, .choosing⟩
      ⟨e, h ++ [.ended number (.ok ())], starts, .running (next (.ok .unit))⟩

/-- A step, or something that its users do to the backend. -/
inductive Turn (may : Behaviour) : Course σ → Course σ → Prop
  | step {c c' : Course σ} (h : Step may c c') : Turn may c c'
  | drive {c : Course σ} {s : σ} (hs : c.engine.backend = some s) (s' : σ) :
    Turn may c { c with engine := { c.engine with backend := some s' } }

/-- A course that a client begins with a new engine. -/
inductive Attained (may : Behaviour) : Course σ → Prop
  | created {state : σ} {config : Config} {e : Engine σ} {events : List Event} (client : Routine)
    (h : create state config = (.ok e, events)) : Attained may ⟨e, [], [], .running client⟩
  | turned {c c' : Course σ} (h : Attained may c) (hturn : Turn may c c') : Attained may c'

variable {may : Behaviour} {c c' : Course σ}

/-! ## Engines on a course -/

/-- A turn is one move of the engine, or none. -/
theorem Turn.moves (h : Turn may c c') : Relation.ReflTransGen Move c.engine c'.engine := by
  cases h with
  | step h =>
    cases h with
    | operate => exact .single (.operate _ _)
    | begin => exact .single (.begin _)
    | invoke => exact .single (.trace _ _)
    | fail => exact .single (.trace _ _)
    | refuse => exact .refl
    | pass => exact .refl
    | complete => exact .refl
  | drive hs s' => exact .single (.drive hs s')

theorem moves_of_turns (h : Relation.ReflTransGen (Turn may) c c') :
    Relation.ReflTransGen Move c.engine c'.engine := by
  induction h with
  | refl => exact .refl
  | tail _ hturn ih => exact ih.trans hturn.moves

theorem Attained.turns (h : Attained may c) (hturns : Relation.ReflTransGen (Turn may) c c') :
    Attained may c' := by
  induction hturns with
  | refl => exact h
  | tail _ hturn ih => exact ih.turned hturn

/-- What is between two operations, also of initializers, is a reachable engine. -/
theorem Attained.reachable (h : Attained may c) : Reachable c.engine := by
  induction h with
  | created _ h => exact .created h
  | turned _ hturn ih => exact hturn.moves.rec ih fun _ hmove ih ↦ ih.moved hmove

end Course

namespace Engine

variable {σ : Type} [Backend σ]

/-! ## Operations and the queue -/

/-- What an operation other than a start notes, and the queue that it leaves. -/
inductive Requeues (e : Engine σ) (h : List Mark) : List Mark → List String → Prop
  | same : Requeues e h [] e.queue
  | registered {name : String} (hnew : name ∉ e.queue) :
    Requeues e h [.registered ⟨(accepted h).length, name⟩] (e.queue ++ [name])
  | tornDown (hvalid : e.isValid = true) : Requeues e h [.tornDown] []

theorem queue_cleanup {e : Engine σ} (hvalid : e.isValid = true) : (cleanup e).2.queue = [] := by
  rw [cleanup_eq hvalid]

theorem requeues_performSimple (op : Operation) (e : Engine σ) (h : List Mark) :
    Requeues e h (marks e h op (performSimple op e).1) (performSimple op e).2.queue := by
  cases op with
  | cleanup =>
    rw [performSimple, run_return, run_surely]
    cases hvalid : e.isValid with
    | false =>
      simp only [marks, hvalid, cleanup_of_invalid hvalid]
      exact .same
    | true =>
      simp only [marks, hvalid, queue_cleanup hvalid]
      exact .tornDown hvalid
  | addInitializer name =>
    rw [performSimple_addInitializer]
    split
    · exact .same
    · next hnew => exact .registered hnew
  | _ =>
    rw [(steady_performSimple (by simp) (by simp) e).queue]
    exact .same

end Engine

namespace Course

variable {σ : Type}

/-- The queue holds the names of the registrations that wait. -/
def Queued (e : Engine σ) (h : List Mark) : Prop := e.queue = (waiting h).map Registration.name

/-- How far the starts under way have come, the innermost first. -/
def reached (c : Course σ) : List (Nat × Progress) :=
  match c.doing, c.starts with
  | .choosing, u :: outer => (u.number, .between u.position u.rest) :: outer.map Underway.within
  | _, starts => starts.map Underway.within

/-- The registrations that were invoked or may yet be. -/
def invocable (c : Course σ) : List Registration :=
  invocations c.chronicle ++ c.starts.flatMap Underway.rest ++ waiting c.chronicle

/-- The chronicle of a course is kept right: it is regular, it has the queue of the engine, and it
accounts for the starts under way. -/
structure Kept (c : Course σ) : Prop where
  regular : Regular c.chronicle
  queued : Queued c.engine c.chronicle
  accounts : Accounts c.chronicle c.reached
  nodup : c.invocable.Nodup
  known : ∀ r ∈ c.invocable, r ∈ accepted c.chronicle

end Course

end ScriptBridge
