import ScriptBridge.Proofs.Class.Descent
import ScriptBridge.Proofs.Engine.Running

/-!
# Installing what is missing

Installing several classes asks the backend about those that are not installed yet, in order, until
it refuses one. The relation `Installing` says what is asked, what the backend makes of it and which
classes are accepted; the installation of a list of classes marks those and no others.
-/

namespace ScriptBridge

/-- The call that installs a class. -/
def ClassSpec.call (spec : ClassSpec) : Call :=
  .installClass spec.name spec.parent spec.constructor.isSome spec.finalizer.isSome

namespace Engine

variable {σ : Type} [Backend σ] {e : Engine σ} {s s' : σ} {specs : ClassId → Option ClassSpec}
  {ids done : List ClassId} {result : Except Failure Unit} {events : List Event}

/-- Asks a backend to install classes in order, up to the first that it refuses or that is unknown.
Gives the classes that it accepts, the result, the backend afterwards and what happens. -/
inductive Installing (specs : ClassId → Option ClassSpec) :
    List ClassId → σ → List ClassId → Except Failure Unit → σ → List Event → Prop
  | finished (s : σ) : Installing specs [] s [] (.ok ()) s []
  | accepted {id : ClassId} {rest done : List ClassId} {s s' : σ} {spec : ClassSpec}
    {result : Except Failure Unit} {events : List Event} (hspec : specs id = some spec)
    (hok : (Backend.installClass spec s).result = .ok ())
    (hrest : Installing specs rest (Backend.installClass spec s).state done result s' events) :
    Installing specs (id :: rest) s (id :: done) result s'
      (.call spec.call :: (Backend.installClass spec s).events.map Notice.event ++ events)
  | refused {id : ClassId} {rest : List ClassId} {s : σ} {spec : ClassSpec} {failure : Failure}
    (hspec : specs id = some spec)
    (hfailed : (Backend.installClass spec s).result = .error failure) :
    Installing specs (id :: rest) s [] (.error failure) (Backend.installClass spec s).state
      (.call spec.call :: (Backend.installClass spec s).events.map Notice.event)
  | unknown {id : ClassId} {rest : List ClassId} {s : σ} (hspec : specs id = none) :
    Installing specs (id :: rest) s [] (.error (.unknownClass id)) s []

namespace Installing

/-- What is accepted comes first, and it is all exactly if nothing fails. -/
theorem split (h : Installing specs ids s done result s' events) :
    ∃ rest, ids = done ++ rest ∧ (result = .ok () ↔ rest = []) := by
  induction h with
  | finished s => exact ⟨[], rfl, by simp⟩
  | accepted _ _ _ ih =>
    obtain ⟨rest, hids, hresult⟩ := ih
    exact ⟨rest, congrArg (_ :: ·) hids, hresult⟩
  | refused => exact ⟨_, rfl, by simp⟩
  | unknown => exact ⟨_, rfl, by simp⟩

theorem isSome_spec (h : Installing specs ids s done result s' events) {id : ClassId}
    (hmem : id ∈ done) : (specs id).isSome = true := by
  induction h with
  | finished s => cases hmem
  | accepted hspec _ _ ih =>
    rcases List.mem_cons.mp hmem with rfl | hrest
    · rw [hspec]
      rfl
    · exact ih hrest
  | refused => cases hmem
  | unknown => cases hmem

/-- A backend leaves no choice. -/
theorem unique {other : List ClassId} {result' : Except Failure Unit} {s'' : σ}
    {events' : List Event} (h : Installing specs ids s done result s' events)
    (h' : Installing specs ids s other result' s'' events') : done = other := by
  induction h generalizing other result' s'' events' with
  | finished s =>
    cases h'
    rfl
  | accepted hspec hok _ ih =>
    cases h' with
    | accepted hspec' _ hrest' =>
      rw [hspec, Option.some.injEq] at hspec'
      subst hspec'
      rw [ih hrest']
    | refused hspec' hfailed =>
      rw [hspec, Option.some.injEq] at hspec'
      subst hspec'
      cases hok.symm.trans hfailed
    | unknown hspec' => cases hspec.symm.trans hspec'
  | refused hspec hfailed =>
    cases h' with
    | accepted hspec' hok' =>
      rw [hspec, Option.some.injEq] at hspec'
      subst hspec'
      cases hok'.symm.trans hfailed
    | refused => rfl
    | unknown => rfl
  | unknown hspec =>
    cases h' with
    | accepted hspec' => cases hspec.symm.trans hspec'
    | refused => rfl
    | unknown => rfl

/-- The calls are those for the accepted classes, and one more if there is one that is refused. -/
theorem calls (h : Installing specs ids s done result s' events)
    (hknown : ∀ id ∈ ids, (specs id).isSome = true) : (callsOf events).map some =
      (ids.take (done.length + 1)).map fun id ↦ (specs id).map ClassSpec.call := by
  induction h with
  | finished s => rfl
  | accepted hspec _ _ ih =>
    rw [List.cons_append, callsOf_call, callsOf_append, callsOf_notices, List.nil_append,
      List.map_cons, ih fun id hmem ↦ hknown id (List.mem_cons_of_mem _ hmem), List.length_cons,
      List.take_succ_cons, List.map_cons, hspec]
    rfl
  | refused hspec =>
    rw [callsOf_call, callsOf_notices, List.length_nil, List.take_succ_cons, List.take_zero,
      List.map_cons, List.map_cons, hspec]
    rfl
  | unknown hspec =>
    have hsome := hknown _ List.mem_cons_self
    rw [hspec] at hsome
    cases hsome

end Installing

omit [Backend σ] in
/-- The engine after a backend was asked about classes and has accepted some. -/
def enrolled (e : Engine σ) (done : List ClassId) (s : σ) (events : List Event) : Engine σ :=
  { e with
    catalog := done.foldl Catalog.markInstalled e.catalog
    backend := some s
    trace := e.trace ++ events }

omit [Backend σ] in
theorem enrolled_nil (hs : e.backend = some s) : e.enrolled [] s [] = e := by
  rw [enrolled, List.append_nil, ← hs]
  rfl

theorem installOne_of_installed {id : ClassId} (h : e.catalog.isInstalled id = true) :
    installOne id e = (.ok (), e) := by
  simp only [installOne, run_bind, run_get, h]
  rfl

theorem installOne_of_missing {id : ClassId} (h : e.catalog.isInstalled id = false)
    (hs : e.backend = some s) : installOne id e = match e.catalog.spec? id with
      | none => (.error (.unknownClass id), e)
      | some spec =>
        let heard := e.heard spec.call (Backend.installClass spec s)
        match (Backend.installClass spec s).result with
        | .ok _ => (.ok (), { heard with catalog := heard.catalog.markInstalled id })
        | .error failure => (.error failure, heard) := by
  simp only [installOne, run_bind, run_get, h]
  cases e.catalog.spec? id with
  | none => rfl
  | some spec =>
    simp only [Bool.false_eq_true, if_false, run_bind, ask_some hs]
    cases (Backend.installClass spec s).result <;> rfl

/-- Installing several classes installs what is missing of them, up to the first failure. -/
theorem installAll_eq (hnodup : ids.Nodup) (hs : e.backend = some s) :
    ∃ done result s' events, Installing e.catalog.spec?
        (ids.filter fun id ↦ !e.catalog.isInstalled id) s done result s' events ∧
      installAll ids e = (result, e.enrolled done s' events) := by
  induction ids generalizing e s with
  | nil =>
    exact ⟨[], .ok (), s, [], .finished s, by rw [enrolled_nil hs]; rfl⟩
  | cons id rest ih =>
    obtain ⟨hfresh, hnodup⟩ := List.nodup_cons.mp hnodup
    rw [installAll, run_bind]
    cases hinstalled : e.catalog.isInstalled id with
    | true =>
      rw [installOne_of_installed hinstalled, List.filter_cons_of_neg (by simp [hinstalled])]
      exact ih hnodup hs
    | false =>
      rw [installOne_of_missing hinstalled hs, List.filter_cons_of_pos (by simp [hinstalled])]
      cases hspec : e.catalog.spec? id with
      | none =>
        exact ⟨[], .error (.unknownClass id), s, [], .unknown hspec, by rw [enrolled_nil hs]⟩
      | some spec =>
        cases hresult : (Backend.installClass spec s).result with
        | error failure =>
          refine ⟨[], _, _, _, .refused hspec hresult, ?_⟩
          dsimp only
          rw [hresult]
          rfl
        | ok u =>
          let heard := e.heard spec.call (Backend.installClass spec s)
          let marked : Engine σ := { heard with catalog := heard.catalog.markInstalled id }
          obtain ⟨done, result, s', events, hinstalling, hrun⟩ :=
            ih (e := marked) hnodup rfl
          have hfilter : (rest.filter fun id ↦ !marked.catalog.isInstalled id) =
              rest.filter fun id ↦ !e.catalog.isInstalled id := by
            apply List.filter_congr
            intro other hmem
            rw [Catalog.isInstalled_markInstalled_of_ne]
            · rfl
            · rintro rfl
              exact hfresh hmem
          rw [hfilter, show marked.catalog.spec? = e.catalog.spec? from
            Catalog.spec?_markInstalled e.catalog id] at hinstalling
          refine ⟨id :: done, result, s', _, .accepted hspec hresult hinstalling, ?_⟩
          dsimp only
          rw [hresult]
          dsimp only
          rw [hrun]
          have htrace : marked.trace ++ events = e.trace ++ (.call spec.call ::
              (Backend.installClass spec s).events.map Notice.event ++ events) :=
            List.append_assoc _ _ _
          simp only [enrolled, htrace]
          rfl

end Engine

end ScriptBridge
