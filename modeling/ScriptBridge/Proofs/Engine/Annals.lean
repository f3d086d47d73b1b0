import ScriptBridge.Proofs.Engine.Resuming
import ScriptBridge.Proofs.Script.Closing
import ScriptBridge.Proofs.Script.Origins

/-!
# Annals of classes

The annals of an engine over a script machine tell, the latest first, which classes were created,
which finalizers were defined and which classes the machine was asked to install. Everything that
can be done to an engine has its place in them. A specification that is handed to the machine has
the finalizer that was defined last for its class, so an attempt to install a class is made with the
finalizer that the annals have for it then.
-/

namespace ScriptBridge

open Backend (Dealing Dealings)
open Script (Machine)

/-- What happens to the classes of an engine. -/
inductive ClassDeed where
  | created (id : ClassId) (name : String) (constructor : Option NativeConstructor)
  | defined (id : ClassId) (tag : String)
  | attempted (installation : Installation)

namespace ClassDeed

/-- The finalizer that is defined for a class. -/
def tag? (id : ClassId) : ClassDeed → Option String
  | .defined other tag => if other = id then some tag else none
  | _ => none

def created? : ClassDeed → Option ClassId
  | .created id _ _ => some id
  | _ => none

def attempted? : ClassDeed → Option Installation
  | .attempted i => some i
  | _ => none

/-- The class of an engine that the machine accepts. -/
def accepted? : ClassDeed → Option ClassId
  | .attempted i => if i.outcome.result.toBool then i.id else none
  | _ => none

end ClassDeed

/-- The finalizer that was defined last for a class. -/
def finalizer? (id : ClassId) (deeds : List ClassDeed) : Option String :=
  deeds.findSome? (ClassDeed.tag? id)

/-- The attempts to install a class. -/
def attempts (deeds : List ClassDeed) : List Installation := deeds.filterMap ClassDeed.attempted?

namespace Engine

variable {e e' e'' : Engine Machine} {deeds more : List ClassDeed} {m m' : Machine}
  {specs : ClassId → Option ClassSpec} {ids done : List ClassId} {id : ClassId} {spec : ClassSpec}
  {result : Except Failure Unit} {events : List Event} {i : Installation} {c : Catalog}

/-! ## What is put on record -/

/-- The attempts to install classes one after the other, up to the first that is refused. The latest
comes first. -/
def attemptsFor (specs : ClassId → Option ClassSpec) : List ClassId → Machine → List Installation
  | [], _ => []
  | id :: rest, m =>
    match specs id with
    | none => []
    | some spec =>
      let i : Installation := ⟨some id, spec, m⟩
      match i.outcome.result with
      | .error _ => [i]
      | .ok _ => attemptsFor specs rest i.outcome.state ++ [i]

/-- What an operation adds to the annals. -/
def deedsOf : Operation → Engine Machine → List ClassDeed
  | .createClass name parent constructor, e =>
    match e.catalog.create name parent constructor with
    | .ok (id, _) => [.created id name constructor]
    | .error _ => []
  | .defineFinalizer id tag, e =>
    match e.catalog.defineFinalizer id tag with
    | .ok _ => [.defined id tag]
    | .error _ => []
  | .installClass id, e =>
    match e.backend with
    | none => []
    | some m => (attemptsFor e.catalog.spec? (e.catalog.missing id) m).map .attempted
  | _, _ => []

/-- One thing that is done to an engine, with what it adds to the annals. -/
inductive Turn : Engine Machine → List ClassDeed → Engine Machine → Prop
  | operate (op : Operation) (e : Engine Machine) : Turn e (deedsOf op e) (performSimple op e).2
  /-- A start sets its flag before the initializers run. -/
  | begin (e : Engine Machine) : Turn e [] e.taken
  | trace (e : Engine Machine) (events : List Event) : Turn e [] { e with trace := events }
  /-- A user makes a request to the machine that makes no constructor. -/
  | use {e : Engine Machine} {m m' : Machine} {exchanges : List Exchange} (hm : e.backend = some m)
    (hdealing : Dealing m exchanges m') (hmakes : Machine.Makes [] m m') :
    Turn e [] { e with backend := some m' }
  /-- A user has the machine install a class. -/
  | lend {e : Engine Machine} {m : Machine} (hm : e.backend = some m) (spec : ClassSpec) :
    Turn e [.attempted ⟨none, spec, m⟩]
      { e with backend := some (Backend.installClass spec m).state }

/-- What is done to an engine in a row, with the annals of it. -/
inductive Annals : Engine Machine → List ClassDeed → Engine Machine → Prop
  | refl (e : Engine Machine) : Annals e [] e
  | tail {e e' e'' : Engine Machine} {deeds more : List ClassDeed} (h : Annals e deeds e')
    (hturn : Turn e' more e'') : Annals e (more ++ deeds) e''

theorem Annals.single (h : Turn e deeds e') : Annals e deeds e' := by
  have hannals := (Annals.refl e).tail h
  rwa [List.append_nil] at hannals

theorem Annals.trans (first : Annals e deeds e') (second : Annals e' more e'') :
    Annals e (more ++ deeds) e'' := by
  induction second with
  | refl => exact first
  | tail _ hturn ih => exact List.append_assoc _ _ deeds ▸ ih.tail hturn

theorem Turn.moves (h : Turn e deeds e') : Relation.ReflTransGen Move e e' := by
  cases h with
  | operate op => exact .single (.operate op e)
  | begin => exact .single (.begin e)
  | trace _ events => exact .single (.trace e events)
  | use hm => exact .single (.drive hm _)
  | lend hm => exact .single (.drive hm _)

/-- What is put on record comes of requests to the machine. -/
theorem Turn.keeps (h : Turn e deeds e') (hm : e.Keeps m) :
    ∃ exchanges m', Dealings m exchanges m' ∧ e'.Keeps m' := by
  cases h with
  | operate op =>
    obtain ⟨events, exchanges, m', -, hdealings, hkeeps, -⟩ := drives_performSimple op e m hm
    exact ⟨exchanges, m', hdealings, hkeeps⟩
  | begin => exact ⟨[], m, .refl m, hm⟩
  | trace => exact ⟨[], m, .refl m, hm⟩
  | use hs hdealing =>
    obtain rfl := hm.eq_of_some hs
    exact ⟨_, _, .single hdealing, .inl rfl⟩
  | lend hs spec =>
    obtain rfl := hm.eq_of_some hs
    exact ⟨_, _, .single (.installClass spec m), .inl rfl⟩

theorem Annals.keeps (h : Annals e deeds e') (hm : e.Keeps m) :
    ∃ exchanges m', Dealings m exchanges m' ∧ e'.Keeps m' := by
  induction h with
  | refl => exact ⟨[], m, .refl m, hm⟩
  | tail _ hturn ih =>
    obtain ⟨exchanges, m', hdealings, hkeeps⟩ := ih
    obtain ⟨later, m'', hlater, hkeeps'⟩ := hturn.keeps hkeeps
    exact ⟨_, m'', hdealings.trans hlater, hkeeps'⟩

/-! ## Everything is put on record -/

/-- One engine comes from the other by what annals tell. -/
def Recounts (e e' : Engine Machine) : Prop := ∃ deeds, Annals e deeds e'

instance : IsPreorder (Engine Machine) Recounts where
  refl e := ⟨[], .refl e⟩
  trans _ _ _ := fun ⟨_, first⟩ ⟨_, second⟩ ↦ ⟨_, first.trans second⟩

theorem recounts_perform {repertoire : Repertoire} {depth : Nat} {op : Operation}
    {reply : Except Failure Reply} (hrun : perform repertoire depth op e = some (reply, e')) :
    Recounts e e' :=
  leads_perform (fun op e ↦ ⟨_, .single (.operate op e)⟩) (fun e ↦ ⟨_, .single (.begin e)⟩)
    (fun _ e _ ↦ ⟨_, .single (.trace e _)⟩) repertoire depth op hrun

/-- A request to the machine is put on record: it makes no constructor unless it is to install a
class. -/
theorem recounts_dealing {exchanges : List Exchange} (hsteady : m.Steady) (hm : e.backend = some m)
    (hdealing : Dealing m exchanges m') (events : List Event) :
    Recounts e { e with backend := some m', trace := events } := by
  have htraced : Recounts { e with backend := some m' }
      { e with backend := some m', trace := events } :=
    ⟨_, .single (.trace { e with backend := some m' } events)⟩
  refine IsTrans.trans _ _ _ ?_ htraced
  obtain ⟨-, made, hadvances, rfl | ⟨spec, -, rfl⟩⟩ := hsteady.dealing hdealing
  · exact ⟨_, .single (.use hm hdealing hadvances.makes)⟩
  · exact ⟨_, .single (.lend hm spec)⟩

/-- Every life of an engine over a script machine has its annals. -/
theorem recounts_of_lives {config : Config} (h : Script.Machine.Lives config events e) :
    ∃ first events, Session.createScripting config = (.ok first, events) ∧ Recounts first e := by
  induction h with
  | created h => exact ⟨_, _, h, Std.Refl.refl _⟩
  | performed _ hrun _ ih =>
    obtain ⟨first, events, hcreate, hrecounts⟩ := ih
    exact ⟨first, events, hcreate, IsTrans.trans _ _ _ hrecounts (recounts_perform hrun)⟩
  | used h hm hdealing ih =>
    obtain ⟨first, events, hcreate, hrecounts⟩ := ih
    obtain ⟨history, m₀, hused, hkeeps, -⟩ := h.kept
    obtain rfl := hkeeps.eq_of_some hm
    exact ⟨first, events, hcreate,
      IsTrans.trans _ _ _ hrecounts (recounts_dealing hused.steady hm hdealing _)⟩
  | shown h ih =>
    obtain ⟨first, events, hcreate, hrecounts⟩ := ih
    exact ⟨first, events, hcreate, IsTrans.trans _ _ _ hrecounts ⟨_, .single (.trace _ [])⟩⟩

end Engine

end ScriptBridge
