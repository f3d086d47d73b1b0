import ScriptBridge.Proofs.Engine.Aftermath
import ScriptBridge.Proofs.Start.Enactment
import ScriptBridge.Session.Repertoire

/-!
# Initializers in order

Whatever initializers ask of the engine that runs them, each registration is invoked once at most,
by the first start after it, in the order of registration. A start within a start, or a later one,
takes only what was registered since the one before it began. What is registered in the midst of a
start waits for the next one. What an initializer that fails has left over is never invoked.
-/

namespace ScriptBridge.Course

open Chronicle Engine

variable {σ : Type} [Backend σ]

/-- Module initializers have been dealt with in the order of their registrations. -/
structure InOrder (may : Behaviour) (c : Course σ) : Prop where
  /-- The queue is what waits, and no initializer waits twice. -/
  queued : c.engine.queue = (waiting c.chronicle).map Registration.name
  nodup : c.engine.queue.Nodup
  /-- Whoever waits is not registered again, and nothing changes. -/
  duplicate : ∀ {name}, name ∈ c.engine.queue →
    performSimple (.addInitializer name) c.engine = (.error .duplicateInitializer, c.engine)
  registers : ∀ {name}, name ∉ c.engine.queue → performSimple (.addInitializer name) c.engine =
    (.ok .unit, { c.engine with queue := c.engine.queue ++ [name] })
  /-- Every start took all that waited. -/
  took : ∀ {before start taken later},
    c.chronicle = before ++ .began start taken :: later → taken = waiting before
  /-- It invoked what it took in order, each once, up to the first that failed, and ended with its
  position and failure. It is finished unless it is under way. -/
  account : ∀ {start taken}, .began start taken ∈ c.chronicle → ∃ progress marks,
    ofStart start c.chronicle = .began start taken :: marks ∧
      Account start taken progress marks ∧
      (start ∉ c.starts.map Underway.number → progress = .finished)
  /-- Another start, within it or later, took only what was registered since, nothing of its own. -/
  apart : ∀ {before start taken later other own r},
    c.chronicle = before ++ .began start taken :: later → .began other own ∈ later → r ∈ own →
      .registered r ∈ later ∧ r ∉ taken
  /-- A start does not invoke what was registered since it began. -/
  later : ∀ {before start taken later r position},
    c.chronicle = before ++ .began start taken :: later → .registered r ∈ later →
      .invoked start position r ∉ c.chronicle
  /-- It waits until the next start takes it, unless a cleanup comes first. -/
  waits : ∀ {before r later}, c.chronicle = before ++ .registered r :: later →
    (∀ m ∈ later, ¬ m.Empties) → r ∈ waiting c.chronicle
  taken : ∀ {before r between start taken later},
    c.chronicle = before ++ .registered r :: between ++ .began start taken :: later →
      (∀ m ∈ between, ¬ m.Empties) → r ∈ taken
  /-- Only registrations are invoked, and none of them twice. -/
  registered : ∀ {r}, r ∈ invocations c.chronicle → .registered r ∈ c.chronicle
  once : (invocations c.chronicle).Nodup
  /-- What a failure has left over is not invoked at all. -/
  leftOver : ∀ {start taken position source r}, .began start taken ∈ c.chronicle →
    .ended start (.error (.initializer position source)) ∈ c.chronicle →
      r ∈ taken.drop (position + 1) → r ∉ invocations c.chronicle
  /-- A start that is performed on a valid engine goes such a course, and answers how it ended. -/
  started : ∀ {repertoire depth next reply e'},
    (∀ name global, may name global (repertoire name global)) →
      c.doing = .running (.step .start next) → c.engine.isValid = true →
      perform repertoire depth .start c.engine = some (reply, e') →
        ∃ marks result, reply = result.map (fun _ ↦ .unit) ∧
          Steps may c ⟨e', c.chronicle ++
            .began (takings c.chronicle).length (waiting c.chronicle) :: marks ++
              [.ended (takings c.chronicle).length result], c.starts, .running (next reply)⟩
  /-- What native code runs has an outcome exactly if a course comes to the end of it that way. -/
  ran : ∀ {repertoire routine e' result}, c.doing = .running routine → c.starts = [] →
    ((∃ depth, runRoutine (perform repertoire depth) routine c.engine = some (result, e')) ↔
      ∃ later, Steps repertoire.behaviour c
        ⟨e', c.chronicle ++ later, [], .running (.finish result)⟩)

variable {may may' : Behaviour} {c c' : Course σ}

omit [Backend σ] in
theorem map_fst_reached (c : Course σ) : c.reached.map Prod.fst = c.starts.map Underway.number := by
  have hwithin : ∀ starts : List Underway,
      (starts.map Underway.within).map Prod.fst = starts.map Underway.number :=
    fun starts ↦ List.map_map
  obtain ⟨e, h, starts, doing⟩ := c
  cases doing with
  | running => exact hwithin starts
  | choosing =>
    cases starts with
    | nil => rfl
    | cons u outer => exact congrArg (u.number :: ·) (hwithin outer)

omit [Backend σ] in
/-- A start that has begun before a registration does not invoke it. -/
theorem Kept.not_invoked_of_registered {before later : List Mark} {start position : Nat}
    {taken : List Registration} {r : Registration} (hc : Kept c)
    (hsplit : c.chronicle = before ++ .began start taken :: later) (hr : .registered r ∈ later) :
    .invoked start position r ∉ c.chronicle := by
  intro hinvoked
  have hregular : Regular (before ++ .began start taken :: later) := hsplit ▸ hc.regular
  have hbegan : Mark.began start taken ∈ before ++ .began start taken :: later := by simp
  obtain ⟨own, hown, hget⟩ := hc.accounts.began_of_invoked hc.regular hinvoked
  have hsame := hregular.takings_getElem? (hsplit ▸ hown)
  rw [hregular.takings_getElem? hbegan] at hsame
  cases hsame
  obtain ⟨-, rfl⟩ := hregular.follows
  have haccepted : r ∈ accepted before := mem_accepted_of_mem_waiting (List.mem_of_getElem? hget)
  exact hregular.not_mem_of_accepted haccepted (List.mem_cons_of_mem _ hr)

theorem Step.mono (hmay : ∀ {name global routine}, may name global routine →
    may' name global routine) (h : Step may c c') : Step may' c c' := by
  cases h with
  | operate hop => exact .operate hop
  | refuse hdead => exact .refuse hdead
  | begin hvalid hglobal => exact .begin hvalid hglobal
  | invoke h => exact .invoke (hmay h)
  | pass => exact .pass
  | fail => exact .fail
  | complete => exact .complete

/-- What is performed as a start is a course from its beginning to its end. -/
theorem Kept.started {repertoire : Repertoire} {depth : Nat}
    {next : Except Failure Reply → Routine} {reply : Except Failure Reply} {e' : Engine σ}
    (hc : Kept c) (hmay : ∀ name global, may name global (repertoire name global))
    (hdoing : c.doing = .running (.step .start next)) (hvalid : c.engine.isValid = true)
    (hglobal : c.engine.global.isSome = true)
    (hrun : perform repertoire depth .start c.engine = some (reply, e')) :
    ∃ marks result, reply = result.map (fun _ ↦ .unit) ∧
      Steps may c ⟨e', c.chronicle ++
        .began (takings c.chronicle).length (waiting c.chronicle) :: marks ++
          [.ended (takings c.chronicle).length result], c.starts, .running (next reply)⟩ := by
  obtain ⟨e, h, starts, doing⟩ := c
  subst hdoing
  obtain ⟨global, hglobal⟩ := Option.isSome_iff_exists.mp hglobal
  cases depth with
  | zero => cases hrun
  | succ depth =>
    obtain ⟨result, between, hstart, hreply⟩ := run_bind_eq_some_iff.mp hrun
    cases hreply
    obtain ⟨marks, hsteps⟩ :=
      steps_startWith (enacts_perform repertoire depth) hvalid hglobal hstart hc
    refine ⟨marks, result, rfl, hsteps.lift id fun _ _ ↦ Step.mono ?_⟩
    exact fun hroutine ↦ hroutine ▸ hmay _ _

/-- Wherever a course has come to, its initializers have been dealt with in order. -/
theorem initializers_in_order (h : Attained may c) : InOrder may c := by
  have hc : Kept c := h.kept
  have hregular := hc.regular
  exact
    { queued := hc.queued
      nodup := hc.queued ▸ hregular.nodup_waiting
      duplicate := fun hwaits ↦ by rw [performSimple_addInitializer, if_pos hwaits]
      registers := fun hnew ↦ by rw [performSimple_addInitializer, if_neg hnew]
      took := fun hsplit ↦ (hsplit ▸ hregular).follows.2
      account := fun hbegan ↦ map_fst_reached c ▸ hc.accounts.exists_account hregular hbegan
      apart := fun hsplit hother hr ↦ (hsplit ▸ hregular).apart hother hr
      later := fun hsplit hr ↦ hc.not_invoked_of_registered hsplit hr
      waits := fun {before r later} hsplit hstays ↦ by
        rw [hsplit, List.append_cons]
        exact mem_waiting_of_forall (by simp [Mark.queue]) hstays
      taken := fun {before r between start taken later} hsplit hstays ↦ by
        obtain ⟨-, rfl⟩ := (hsplit ▸ hregular).follows
        rw [List.append_cons]
        exact mem_waiting_of_forall (by simp [Mark.queue]) hstays
      registered := fun hinvoked ↦ mem_accepted_iff.mp (hc.known _ (by simp [invocable, hinvoked]))
      once := (List.nodup_append.mp (List.nodup_append.mp hc.nodup).1).1
      leftOver := fun hbegan hended hr ↦
        hc.accounts.not_invoked_of_left hregular hbegan hended hr
      started := fun hmay hdoing hvalid hrun ↦
        hc.started hmay hdoing hvalid (h.reachable.isSome_global.trans hvalid) hrun
      ran := fun hdoing hstarts ↦ by
        obtain ⟨e, h, starts, doing⟩ := c
        subst hdoing hstarts
        exact runRoutine_iff_steps hc }

/-- A client that registers initializers and then starts. -/
def starting (names : List String) : Routine :=
  names.foldr (fun name rest ↦ .step (.addInitializer name) fun _ ↦ rest) (Session.once .start)

/-- The names of the initializers that an engine has seen begin. -/
def begunNames {σ : Type} (e : Engine σ) : List String :=
  e.trace.filterMap fun
    | .initializer name _ => some name
    | _ => none

/-- A run of initializers of which one registers itself, one starts again, and one fails. -/
def entangled : Option (Except Failure Unit × Engine Rehearsal) :=
  runRoutine (perform Session.repertoire 2) (starting ["again", "restart", "fail", "beta"])
    rehearsed

theorem isSome_entangled : entangled.isSome = true := rfl

/-- The start within takes the new registration, the last initializer is left over, and the one that
registered itself again waits. -/
theorem initializers_in_order_entangled : ∃ c : Course Rehearsal,
    Attained Session.repertoire.behaviour c ∧ InOrder Session.repertoire.behaviour c ∧
      c.doing = .running
        (.finish (.error (.initializer 2 (.engine "module refused to load")))) ∧
      begunNames c.engine = ["again", "restart", "again", "fail"] ∧ c.engine.queue = ["again"] := by
  have hcreated : create (Rehearsal.create none) default = (.ok rehearsed, [.call .globalObject]) :=
    rfl
  have hrun : entangled = some (entangled.get isSome_entangled) :=
    (Option.some_get isSome_entangled).symm
  obtain ⟨chronicle, hattained⟩ := attained_of_runRoutine hcreated hrun
  exact ⟨_, hattained, initializers_in_order hattained, rfl, rfl, rfl⟩

end ScriptBridge.Course
