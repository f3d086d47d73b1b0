import ScriptBridge.Proofs.Start.Keeping

/-!
# Courses and runs

Performing operations and going a course step by step come to the same: every outcome of a run is
where a course gets to in which the initializers do as the repertoire says, and where such a course
comes to the end of its routine is the outcome of a run in which starts may nest deep enough. Depth
only matters for whether there is an outcome.
-/

namespace ScriptBridge

open Chronicle Engine

variable {σ α β : Type} [Backend σ] {repertoire : Repertoire} {depth : Nat}

/-! ## Runs that have more outcomes -/

namespace Engine

/-- Every outcome of one run is one of the other. -/
def Extends (x y : Run σ α) : Prop := ∀ ⦃e a e'⦄, x e = some (a, e') → y e = some (a, e')

omit [Backend σ] in
theorem Extends.refl (x : Run σ α) : Extends x x := fun _ _ _ h ↦ h

omit [Backend σ] in
theorem run_bind_eq_some_iff {x : Run σ α} {f : α → Run σ β} {e e'' : Engine σ} {b : β} :
    (x >>= f) e = some (b, e'') ↔ ∃ a e', x e = some (a, e') ∧ f a e' = some (b, e'') := by
  constructor
  · intro hrun
    obtain ⟨⟨a, e'⟩, hfirst, hsecond⟩ := Option.bind_eq_some_iff.mp hrun
    exact ⟨a, e', hfirst, hsecond⟩
  · rintro ⟨a, e', hfirst, hsecond⟩
    exact Option.bind_eq_some_iff.mpr ⟨(a, e'), hfirst, hsecond⟩

omit [Backend σ] in
theorem Extends.bind {x y : Run σ α} {f g : α → Run σ β} (hx : Extends x y)
    (hf : ∀ a, Extends (f a) (g a)) : Extends (x >>= f) (y >>= g) := by
  intro e b e'' hrun
  obtain ⟨a, e', hfirst, hsecond⟩ := run_bind_eq_some_iff.mp hrun
  exact run_bind_eq_some_iff.mpr ⟨a, e', hx hfirst, hf a hsecond⟩

/-- What a start makes of the result of the initializer at a position. -/
def settle (perform : Operation → Run σ (Except Failure Reply)) (repertoire : Repertoire)
    (global : Handle) (position : Nat) (names : List String) :
    Except Failure Unit → Run σ (Except Failure Unit)
  | .ok () => runInitializers perform repertoire global (position + 1) names
  | .error source => fun e ↦
    some (.error (.initializer position source), e.noted (refusal position source))

omit [Backend σ] in
theorem runInitializers_cons (perform : Operation → Run σ (Except Failure Reply)) (global : Handle)
    (position : Nat) (name : String) (names : List String) (e : Engine σ) :
    runInitializers perform repertoire global position (name :: names) e =
      (runRoutine perform (repertoire name global) >>=
        settle perform repertoire global position names) (e.noted (.initializer name global)) := by
  rw [runInitializers]
  rfl

omit [Backend σ] in
/-- Either a start may go ahead, or it is refused. -/
theorem live_or_dead (e : Engine σ) :
    (e.isValid = true ∧ ∃ global, e.global = some global) ∨
      (e.isValid = false ∨ e.global = none) := by
  cases e.isValid with
  | false => exact .inr (.inl rfl)
  | true =>
    cases e.global with
    | none => exact .inr (.inr rfl)
    | some global => exact .inl ⟨rfl, global, rfl⟩

omit [Backend σ] in
theorem get_bind (f : Engine σ → Run σ α) (e : Engine σ) :
    ((get : Run σ (Engine σ)) >>= f) e = f e e :=
  rfl

omit [Backend σ] in
theorem startWith_of_valid (perform : Operation → Run σ (Except Failure Reply)) {global : Handle}
    {e : Engine σ} (hvalid : e.isValid = true) (hglobal : e.global = some global) :
    startWith perform repertoire e =
      runInitializers perform repertoire global 0 e.queue e.taken := by
  simp only [startWith, get_bind, hvalid, hglobal]
  rw [taken, hvalid, hglobal]
  rfl

omit [Backend σ] in
theorem startWith_of_dead (perform : Operation → Run σ (Except Failure Reply)) {e : Engine σ}
    (hdead : e.isValid = false ∨ e.global = none) :
    startWith perform repertoire e = some (.error .notInitialized, e) := by
  simp only [startWith, get_bind]
  rcases hdead with hinvalid | hnone
  · rw [hinvalid]
    rfl
  · rw [hnone]
    cases e.isValid <;> rfl

section Nested

variable {perform perform' : Operation → Run σ (Except Failure Reply)}
  (hperform : ∀ op, Extends (perform op) (perform' op))

include hperform

omit [Backend σ] in
theorem runRoutine_extends (routine : Routine) :
    Extends (runRoutine perform routine) (runRoutine perform' routine) := by
  induction routine with
  | finish result => exact .refl _
  | step op next ih => exact (hperform op).bind ih

omit [Backend σ] in
theorem runInitializers_extends (global : Handle) (position : Nat) (names : List String) :
    Extends (runInitializers perform repertoire global position names)
      (runInitializers perform' repertoire global position names) := by
  induction names generalizing position with
  | nil => exact .refl _
  | cons name names ih =>
    intro e result e' hrun
    rw [runInitializers_cons] at hrun ⊢
    refine (runRoutine_extends hperform (repertoire name global)).bind ?_ hrun
    rintro (source | _)
    · exact .refl _
    · exact ih (position + 1)

omit [Backend σ] in
theorem startWith_extends :
    Extends (startWith perform repertoire) (startWith perform' repertoire) := by
  intro e result e' hrun
  rcases live_or_dead e with ⟨hvalid, global, hglobal⟩ | hdead
  · rw [startWith_of_valid _ hvalid hglobal] at hrun ⊢
    exact runInitializers_extends hperform global 0 e.queue hrun
  · rwa [startWith_of_dead _ hdead] at hrun ⊢

end Nested

/-- An operation other than a start does not depend on the depth. -/
theorem perform_of_ne {op : Operation} (hop : op ≠ .start) (e : Engine σ) :
    perform repertoire depth op e = some (performSimple op e) := by
  cases op with
  | start => exact absurd rfl hop
  | _ => cases depth <;> rfl

/-- More depth keeps every outcome. -/
theorem perform_extends_succ (repertoire : Repertoire) (depth : Nat) (op : Operation) :
    Extends (perform (σ := σ) repertoire depth op) (perform repertoire (depth + 1) op) := by
  induction depth generalizing op with
  | zero =>
    by_cases hop : op = .start
    · subst hop
      intro e a e' hrun
      cases hrun
    · intro e a e' hrun
      rwa [perform_of_ne hop] at hrun ⊢
  | succ depth ih =>
    by_cases hop : op = .start
    · subst hop
      exact (startWith_extends ih).bind fun _ ↦ .refl _
    · intro e a e' hrun
      rwa [perform_of_ne hop] at hrun ⊢

end Engine

namespace Course

/-- Steps, one after the other. -/
abbrev Steps (may : Behaviour) : Course σ → Course σ → Prop := Relation.ReflTransGen (Step may)

theorem Kept.steps {may : Behaviour} {c c' : Course σ} (hc : Kept c) (hsteps : Steps may c c') :
    Kept c' := by
  induction hsteps with
  | refl => exact hc
  | tail _ hstep ih => exact ih.step hstep

/-! ## From runs to courses -/

/-- What is performed is a stretch of a course. -/
def Enacts (may : Behaviour) (perform : Operation → Run σ (Except Failure Reply)) : Prop :=
  ∀ {op : Operation} {e e' : Engine σ} {reply : Except Failure Reply} {h : List Mark}
    {starts : List Underway} {next : Except Failure Reply → Routine},
    perform op e = some (reply, e') → Kept ⟨e, h, starts, .running (.step op next)⟩ →
      ∃ later, Steps may ⟨e, h, starts, .running (.step op next)⟩
        ⟨e', h ++ later, starts, .running (next reply)⟩

section Nested

variable {perform : Operation → Run σ (Except Failure Reply)} {e e' : Engine σ} {h : List Mark}
  {starts : List Underway} (hperform : Enacts repertoire.behaviour perform)

include hperform

theorem steps_runRoutine {routine : Routine} {result : Except Failure Unit}
    (hrun : runRoutine perform routine e = some (result, e'))
    (hc : Kept ⟨e, h, starts, .running routine⟩) :
    ∃ later, Steps repertoire.behaviour ⟨e, h, starts, .running routine⟩
      ⟨e', h ++ later, starts, .running (.finish result)⟩ := by
  induction routine generalizing e h with
  | finish result' =>
    cases hrun
    exact ⟨[], by rw [List.append_nil]⟩
  | step op next ih =>
    obtain ⟨reply, between, hfirst, hrest⟩ := run_bind_eq_some_iff.mp hrun
    obtain ⟨later, hsteps⟩ := hperform hfirst hc
    obtain ⟨later', hsteps'⟩ := ih reply hrest (hc.steps hsteps)
    exact ⟨later ++ later', by rw [← List.append_assoc]; exact hsteps.trans hsteps'⟩

theorem steps_runInitializers {number position : Nat} {global : Handle} {rest : List Registration}
    {next : Except Failure Reply → Routine} {result : Except Failure Unit}
    (hrun : runInitializers perform repertoire global position (rest.map Registration.name) e =
      some (result, e'))
    (hc : Kept ⟨e, h, ⟨number, global, position, rest, next⟩ :: starts, .choosing⟩) :
    ∃ later, Steps repertoire.behaviour
      ⟨e, h, ⟨number, global, position, rest, next⟩ :: starts, .choosing⟩
      ⟨e', h ++ later ++ [.ended number result], starts,
        .running (next (result.map fun _ ↦ .unit))⟩ := by
  induction rest generalizing position e h with
  | nil =>
    cases hrun
    exact ⟨[], by rw [List.append_nil]; exact .single .complete⟩
  | cons r rest ih =>
    rw [List.map_cons, runInitializers_cons] at hrun
    obtain ⟨returned, between, hroutine, hsettle⟩ := run_bind_eq_some_iff.mp hrun
    have hinvoke : Step repertoire.behaviour
        ⟨e, h, ⟨number, global, position, r :: rest, next⟩ :: starts, .choosing⟩
        ⟨e.noted (.initializer r.name global), h ++ [.invoked number position r],
          ⟨number, global, position, rest, next⟩ :: starts,
          .running (repertoire r.name global)⟩ := .invoke rfl
    obtain ⟨later, hsteps⟩ := steps_runRoutine hperform hroutine (hc.step hinvoke)
    have hreturned := Relation.ReflTransGen.head hinvoke hsteps
    rcases returned with source | _
    · cases hsettle
      refine ⟨[.invoked number position r] ++ later, ?_⟩
      rw [← List.append_assoc]
      exact hreturned.tail .fail
    · have hpassed := hreturned.tail .pass
      obtain ⟨later', hrest⟩ := ih hsettle (hc.steps hpassed)
      refine ⟨[.invoked number position r] ++ later ++ [.succeeded number position] ++ later', ?_⟩
      simpa only [List.append_assoc] using hpassed.trans hrest

/-- A start takes all that waits, and it ends as the run does. -/
theorem steps_startWith {global : Handle} {next : Except Failure Reply → Routine}
    {result : Except Failure Unit} (hvalid : e.isValid = true) (hglobal : e.global = some global)
    (hrun : startWith perform repertoire e = some (result, e'))
    (hc : Kept ⟨e, h, starts, .running (.step .start next)⟩) :
    ∃ later, Steps repertoire.behaviour ⟨e, h, starts, .running (.step .start next)⟩
      ⟨e', h ++ .began (takings h).length (waiting h) :: later ++
          [.ended (takings h).length result],
        starts, .running (next (result.map fun _ ↦ .unit))⟩ := by
  have hbegin : Step repertoire.behaviour ⟨e, h, starts, .running (.step .start next)⟩ _ :=
    .begin hvalid hglobal
  rw [startWith_of_valid _ hvalid hglobal, show e.queue = _ from hc.queued] at hrun
  obtain ⟨later, hsteps⟩ := steps_runInitializers hperform hrun (hc.step hbegin)
  refine ⟨later, ?_⟩
  have hall := Relation.ReflTransGen.head hbegin hsteps
  simpa only [List.append_assoc, List.cons_append, List.nil_append] using hall

end Nested

/-- Whatever is performed is a stretch of a course. -/
theorem enacts_perform (repertoire : Repertoire) (depth : Nat) :
    Enacts (σ := σ) repertoire.behaviour (perform repertoire depth) := by
  have hsimple : ∀ {depth : Nat} {op : Operation} {e e' : Engine σ} {reply : Except Failure Reply}
      {h : List Mark} {starts : List Underway} {next : Except Failure Reply → Routine},
      op ≠ .start → perform repertoire depth op e = some (reply, e') →
        ∃ later, Steps repertoire.behaviour ⟨e, h, starts, .running (.step op next)⟩
          ⟨e', h ++ later, starts, .running (next reply)⟩ := by
    intro depth op e e' reply h starts next hop hrun
    rw [perform_of_ne hop] at hrun
    have hsame : performSimple op e = (reply, e') := Option.some.inj hrun
    have hstep : Step repertoire.behaviour ⟨e, h, starts, .running (.step op next)⟩ _ :=
      .operate hop
    rw [hsame] at hstep
    exact ⟨_, .single hstep⟩
  induction depth with
  | zero =>
    intro op e e' reply h starts next hrun _
    by_cases hop : op = .start
    · subst hop
      cases hrun
    · exact hsimple hop hrun
  | succ depth ih =>
    intro op e e' reply h starts next hrun hc
    by_cases hop : op = .start
    · subst hop
      obtain ⟨result, after, hstart, hreply⟩ := run_bind_eq_some_iff.mp hrun
      cases hreply
      rcases live_or_dead e with ⟨hvalid, global, hglobal⟩ | hdead
      · obtain ⟨later, hsteps⟩ := steps_startWith ih hvalid hglobal hstart hc
        rw [List.append_assoc] at hsteps
        exact ⟨_, hsteps⟩
      · rw [startWith_of_dead _ hdead] at hstart
        cases hstart
        exact ⟨[], by rw [List.append_nil]; exact .single (.refuse hdead)⟩
    · exact hsimple hop hrun

/-- What the routine of a client comes to is attained. -/
theorem attained_of_runRoutine {state : σ} {config : Config} {events : List Event}
    {client : Routine} {e e' : Engine σ} {result : Except Failure Unit}
    (h : create state config = (.ok e, events))
    (hrun : runRoutine (perform repertoire depth) client e = some (result, e')) :
    ∃ chronicle, Attained repertoire.behaviour ⟨e', chronicle, [], .running (.finish result)⟩ := by
  have hcreated : Attained repertoire.behaviour ⟨e, [], [], .running client⟩ := .created client h
  obtain ⟨later, hsteps⟩ :=
    steps_runRoutine (enacts_perform repertoire depth) hrun hcreated.kept
  exact ⟨_, hcreated.turns (hsteps.lift id fun _ _ ↦ .step)⟩

/-! ## From courses to runs -/

/-- What is left of a run when the innermost routine has returned. -/
def afterwards (perform : Operation → Run σ (Except Failure Reply)) (repertoire : Repertoire) :
    List Underway → Except Failure Unit → Run σ (Except Failure Unit)
  | [], result => pure result
  | u :: outer, result =>
    settle perform repertoire u.global u.position (u.rest.map Registration.name) result >>=
      fun result ↦ runRoutine perform (u.next (result.map fun _ ↦ .unit)) >>=
        afterwards perform repertoire outer

/-- What is left of a run. -/
def remainder (perform : Operation → Run σ (Except Failure Reply)) (repertoire : Repertoire) :
    Doing → List Underway → Run σ (Except Failure Unit)
  | .running routine, starts =>
    runRoutine perform routine >>= afterwards perform repertoire starts
  | .choosing, u :: outer =>
    runInitializers perform repertoire u.global u.position (u.rest.map Registration.name) >>=
      fun result ↦ runRoutine perform (u.next (result.map fun _ ↦ .unit)) >>=
        afterwards perform repertoire outer
  | .choosing, [] => fun _ ↦ none

section Nested

variable {perform perform' : Operation → Run σ (Except Failure Reply)}
  (hperform : ∀ op, Extends (perform op) (perform' op))

include hperform

omit [Backend σ] in
theorem settle_extends (global : Handle) (position : Nat) (names : List String)
    (result : Except Failure Unit) :
    Extends (settle perform repertoire global position names result)
      (settle perform' repertoire global position names result) := by
  cases result with
  | error source => exact .refl _
  | ok => exact runInitializers_extends hperform global (position + 1) names

omit [Backend σ] in
theorem afterwards_extends (starts : List Underway) (result : Except Failure Unit) :
    Extends (afterwards perform repertoire starts result)
      (afterwards perform' repertoire starts result) := by
  induction starts generalizing result with
  | nil => exact .refl _
  | cons u outer ih =>
    refine (settle_extends hperform _ _ _ result).bind fun result ↦ ?_
    exact (runRoutine_extends hperform _).bind ih

omit [Backend σ] in
theorem remainder_extends (doing : Doing) (starts : List Underway) :
    Extends (remainder perform repertoire doing starts)
      (remainder perform' repertoire doing starts) := by
  cases doing with
  | running routine =>
    exact (runRoutine_extends hperform routine).bind (afterwards_extends hperform starts)
  | choosing =>
    cases starts with
    | nil => exact .refl _
    | cons u outer =>
      refine (runInitializers_extends hperform _ _ _).bind fun result ↦ ?_
      exact (runRoutine_extends hperform _).bind (afterwards_extends hperform outer)

end Nested

theorem perform_start_of_dead {e : Engine σ} (hdead : e.isValid = false ∨ e.global = none) :
    perform repertoire (depth + 1) .start e = some (.error .notInitialized, e) :=
  run_bind_eq_some_iff.mpr ⟨_, e, startWith_of_dead _ hdead, rfl⟩

theorem perform_start_of_live {e e' : Engine σ} {global : Handle} {result : Except Failure Unit}
    (hvalid : e.isValid = true) (hglobal : e.global = some global)
    (hrun : runInitializers (perform repertoire depth) repertoire global 0 e.queue e.taken =
      some (result, e')) :
    perform repertoire (depth + 1) .start e = some (result.map fun _ ↦ .unit, e') :=
  run_bind_eq_some_iff.mpr ⟨result, e', (startWith_of_valid _ hvalid hglobal).trans hrun, rfl⟩

omit [Backend σ] in
theorem remainder_of_perform {perform : Operation → Run σ (Except Failure Reply)} {op : Operation}
    {e e' : Engine σ} {reply : Except Failure Reply} (hrun : perform op e = some (reply, e'))
    (next : Except Failure Reply → Routine) (starts : List Underway) :
    remainder perform repertoire (.running (.step op next)) starts e =
      remainder perform repertoire (.running (next reply)) starts e' := by
  simp only [remainder, runRoutine, bind_assoc]
  change (perform op e).bind _ = _
  rw [hrun]
  rfl

omit [Backend σ] in
theorem remainder_invoke (perform : Operation → Run σ (Except Failure Reply)) (e : Engine σ)
    {number position : Nat} {global : Handle} {r : Registration} {rest : List Registration}
    {next : Except Failure Reply → Routine} {starts : List Underway} :
    remainder perform repertoire .choosing
        (⟨number, global, position, r :: rest, next⟩ :: starts) e =
      remainder perform repertoire (.running (repertoire r.name global))
        (⟨number, global, position, rest, next⟩ :: starts)
        (e.noted (.initializer r.name global)) := by
  change (runInitializers perform repertoire global position _ e).bind _ = _
  rw [List.map_cons, runInitializers_cons]
  exact congrFun (bind_assoc (runRoutine perform (repertoire r.name global))
    (settle perform repertoire global position (rest.map Registration.name))
    fun result ↦ runRoutine perform (next (result.map fun _ ↦ .unit)) >>=
      afterwards perform repertoire starts) (e.noted (.initializer r.name global))

/-- What is left before a step is what is left after it, where starts may nest one deeper. -/
theorem remainder_of_step {c c' : Course σ} (hc : Kept c)
    (hstep : Step repertoire.behaviour c c') {outcome : Except Failure Unit × Engine σ}
    (hrun : remainder (perform repertoire depth) repertoire c'.doing c'.starts c'.engine =
      some outcome) :
    remainder (perform repertoire (depth + 1)) repertoire c.doing c.starts c.engine =
      some outcome := by
  have hsame : remainder (perform repertoire (depth + 1)) repertoire c'.doing c'.starts c'.engine =
      some outcome := remainder_extends (perform_extends_succ repertoire depth) _ _ hrun
  cases hstep with
  | operate hop => exact (remainder_of_perform (perform_of_ne hop _) _ _).trans hsame
  | refuse hdead => exact (remainder_of_perform (perform_start_of_dead hdead) _ _).trans hsame
  | begin hvalid hglobal =>
    obtain ⟨final, e'⟩ := outcome
    obtain ⟨result, between, hinitializers, hrest⟩ := run_bind_eq_some_iff.mp hrun
    rw [← show _ = _ from hc.queued] at hinitializers
    refine (remainder_of_perform (perform_start_of_live hvalid hglobal hinitializers) _ _).trans ?_
    exact remainder_extends (perform_extends_succ repertoire depth) (.running _) _ hrest
  | invoke hmay =>
    subst hmay
    exact (remainder_invoke _ _).trans hsame
  | pass => exact hsame
  | fail => exact hsame
  | complete => exact hsame

theorem remainder_of_steps {c c' : Course σ} (hc : Kept c)
    (hsteps : Steps repertoire.behaviour c c') {outcome : Except Failure Unit × Engine σ}
    (hrun : remainder (perform repertoire 0) repertoire c'.doing c'.starts c'.engine =
      some outcome) :
    ∃ depth, remainder (perform repertoire depth) repertoire c.doing c.starts c.engine =
      some outcome := by
  induction hsteps using Relation.ReflTransGen.head_induction_on with
  | refl => exact ⟨0, hrun⟩
  | head hstep _ ih =>
    obtain ⟨depth, hleft⟩ := ih (hc.step hstep)
    exact ⟨depth + 1, remainder_of_step hc hstep hleft⟩

/-- A run has an outcome, at some depth, if and only if a course comes to the end of the routine
with it. -/
theorem runRoutine_iff_steps {routine : Routine} {e e' : Engine σ} {h : List Mark}
    {result : Except Failure Unit} (hc : Kept ⟨e, h, [], .running routine⟩) :
    (∃ depth, runRoutine (perform repertoire depth) routine e = some (result, e')) ↔
      ∃ later, Steps repertoire.behaviour ⟨e, h, [], .running routine⟩
        ⟨e', h ++ later, [], .running (.finish result)⟩ := by
  constructor
  · rintro ⟨depth, hrun⟩
    exact steps_runRoutine (enacts_perform repertoire depth) hrun hc
  · rintro ⟨later, hsteps⟩
    have hend : remainder (perform repertoire 0) repertoire (.running (.finish result)) [] e' =
        some (result, e') := rfl
    obtain ⟨depth, hleft⟩ := remainder_of_steps hc hsteps hend
    obtain ⟨result', between, hrun, hrest⟩ := run_bind_eq_some_iff.mp hleft
    cases hrest
    exact ⟨depth, hrun⟩

end Course

end ScriptBridge
