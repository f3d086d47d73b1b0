import ScriptBridge.Proofs.Engine.Aftermath
import ScriptBridge.Proofs.Start.Enactment
import ScriptBridge.Session.Repertoire

/-!
# The life of an engine

An engine is valid until it is torn down, which happens once, and all that says so agrees at any
time, also in the midst of a start: it is valid as long as it has a backend and as long as it has a
global object. A start looks at this once, before its first initializer. If an initializer tears the
engine down, the start goes on with what is left of its list, and hands out the global object that
it found. Those initializers find an engine that is over, as everyone does from then on: it refuses
whatever needs the backend.
-/

namespace ScriptBridge.Course

open Chronicle Engine

variable {σ : Type} [Backend σ] {may : Behaviour} {c c' : Course σ}

/-- An engine is valid until it is torn down. As long as it has a global object, it is that of every
start under way. -/
structure Vital (c : Course σ) : Prop where
  isValid_iff : c.engine.isValid = true ↔ .tornDown ∉ c.chronicle
  global : ∀ {global}, c.engine.global = some global → ∀ u ∈ c.starts, u.global = global
  started : c.engine.isValid = false → c.engine.started = false

omit [Backend σ] in
theorem tornDown_notMem_marks {e : Engine σ} {h : List Mark} {op : Operation}
    (hop : op ≠ .cleanup) (reply : Except Failure Reply) : .tornDown ∉ marks e h op reply := by
  cases op with
  | cleanup => exact absurd rfl hop
  | addInitializer name => cases reply <;> simp [marks]
  | _ => exact List.not_mem_nil

theorem started_performSimple {op : Operation} (hop : op ≠ .cleanup) (e : Engine σ) :
    (performSimple op e).2.started = e.started := by
  by_cases hadd : ∃ name, op = .addInitializer name
  · obtain ⟨name, rfl⟩ := hadd
    rw [performSimple_addInitializer]
    split <;> rfl
  · exact (steady_performSimple hop (fun name heq ↦ hadd ⟨name, heq⟩) e).started

theorem Vital.operate {e : Engine σ} {h : List Mark} {starts : List Underway}
    {routine after : Routine} (hc : Vital ⟨e, h, starts, .running routine⟩) (op : Operation) :
    Vital ⟨(performSimple op e).2, h ++ marks e h op (performSimple op e).1, starts,
      .running after⟩ := by
  by_cases hop : op = .cleanup
  · subst hop
    rw [performSimple, run_return, run_surely]
    cases hvalid : e.isValid with
    | false =>
      simp only [cleanup_of_invalid hvalid, marks, hvalid, Bool.false_eq_true, if_false,
        List.append_nil]
      exact ⟨hc.isValid_iff, hc.global, hc.started⟩
    | true =>
      have hended := cleanup_of_valid hvalid
      simp only [marks, hvalid, if_true]
      refine ⟨?_, fun {global} hglobal ↦ ?_, fun _ ↦ ?_⟩
      · simp [hended.isValid]
      · rw [hended.global] at hglobal
        cases hglobal
      · rw [cleanup_eq hvalid]
  · have hframe := frame_performSimple hop e
    have hmarks := tornDown_notMem_marks (e := e) (h := h) hop (performSimple op e).1
    refine ⟨?_, fun {global} hglobal ↦ ?_, fun hover ↦ ?_⟩
    · rw [hframe.isValid, List.mem_append, not_or, hc.isValid_iff]
      exact (and_iff_left hmarks).symm
    · exact hc.global (hframe.global.symm.trans hglobal)
    · rw [started_performSimple hop]
      exact hc.started (hframe.isValid.symm.trans hover)

theorem Vital.step (hc : Vital c) (hstep : Step may c c') : Vital c' := by
  obtain ⟨hvalid_iff, hglobals, hstarted⟩ := hc
  cases hstep with
  | operate => exact Vital.operate ⟨hvalid_iff, hglobals, hstarted⟩ _
  | refuse => exact ⟨hvalid_iff, hglobals, hstarted⟩
  | @begin e h starts next global hvalid hglobal =>
    refine ⟨by simpa using hvalid_iff, fun {other} hother ↦ ?_, fun hover ↦ ?_⟩
    · have hsame : global = other := Option.some.inj (hglobal.symm.trans hother)
      exact List.forall_mem_cons.mpr ⟨hsame, hglobals hother⟩
    · exact absurd (hvalid.symm.trans hover) (by decide)
  | invoke =>
    exact ⟨by simpa using hvalid_iff, fun hglobal ↦
      List.forall_mem_cons.mpr (List.forall_mem_cons.mp (hglobals hglobal)), hstarted⟩
  | pass =>
    exact ⟨by simpa using hvalid_iff, fun hglobal ↦
      List.forall_mem_cons.mpr (List.forall_mem_cons.mp (hglobals hglobal)), hstarted⟩
  | fail =>
    exact ⟨by simpa using hvalid_iff, fun hglobal ↦
      (List.forall_mem_cons.mp (hglobals hglobal)).2, hstarted⟩
  | complete =>
    exact ⟨by simpa using hvalid_iff, fun hglobal ↦
      (List.forall_mem_cons.mp (hglobals hglobal)).2, hstarted⟩

theorem Attained.vital (h : Attained may c) : Vital c := by
  induction h with
  | created client h =>
    obtain ⟨global, s, rfl⟩ := create_eq_ok h
    exact ⟨by simp, by simp, by simp⟩
  | turned _ hturn ih =>
    cases hturn with
    | step hstep => exact ih.step hstep
    | drive => exact ⟨ih.isValid_iff, ih.global, ih.started⟩

/-! ## What initializers are given -/

/-- A start is about to invoke an initializer with a handle. -/
inductive Invoking : Course σ → Registration → Handle → Prop
  | next {e : Engine σ} {h : List Mark} {number position : Nat} {global : Handle}
    {r : Registration} {rest : List Registration} {next : Except Failure Reply → Routine}
    {starts : List Underway} :
    Invoking ⟨e, h, ⟨number, global, position, r :: rest, next⟩ :: starts, .choosing⟩ r global

/-- An initializer is given a valid engine and its global object exactly if no cleanup has torn the
engine down. -/
theorem live_iff_not_tornDown {r : Registration} {global : Handle} (h : Attained may c)
    (hinvoking : Invoking c r global) :
    (c.engine.isValid = true ∧ c.engine.global = some global) ↔ .tornDown ∉ c.chronicle := by
  have hvital := h.vital
  rw [← hvital.isValid_iff]
  refine ⟨And.left, fun hvalid ↦ ⟨hvalid, ?_⟩⟩
  have hsome : c.engine.global.isSome = true := h.reachable.isSome_global.trans hvalid
  obtain ⟨own, hown⟩ := Option.isSome_iff_exists.mp hsome
  cases hinvoking with
  | next =>
    rw [hown]
    exact congrArg some (hvital.global hown _ List.mem_cons_self).symm

/-- An engine for which two initializers are registered, of which the first tears it down. -/
def doomed : Engine Rehearsal :=
  performAll [.addInitializer "cleanup", .addInitializer "alpha"] rehearsed

/-- A start that has taken both of them. -/
def commencing : Course Rehearsal where
  engine := doomed.taken
  chronicle := [.registered ⟨0, "cleanup"⟩, .registered ⟨1, "alpha"⟩,
    .began 0 [⟨0, "cleanup"⟩, ⟨1, "alpha"⟩]]
  starts := [⟨0, ⟨0⟩, 0, [⟨0, "cleanup"⟩, ⟨1, "alpha"⟩],
    fun reply ↦ .finish (reply.map fun _ ↦ ())⟩]
  doing := .choosing

/-- The same start when the first one has returned. -/
def dismantled : Course Rehearsal where
  engine := (performSimple .cleanup (doomed.taken.noted (.initializer "cleanup" ⟨0⟩))).2
  chronicle := commencing.chronicle ++
    [.invoked 0 0 ⟨0, "cleanup"⟩, .tornDown, .succeeded 0 0]
  starts := [⟨0, ⟨0⟩, 1, [⟨1, "alpha"⟩], fun reply ↦ .finish (reply.map fun _ ↦ ())⟩]
  doing := .choosing

theorem attained_commencing : Attained Session.repertoire.behaviour commencing := by
  have hcreated : Attained Session.repertoire.behaviour
      ⟨rehearsed, [], [], .running (.step (.addInitializer "cleanup") fun _ ↦
        .step (.addInitializer "alpha") fun _ ↦ Session.once .start)⟩ :=
    .created _ (show create (Rehearsal.create none) default =
      (.ok rehearsed, [.call .globalObject]) from rfl)
  have hfirst := hcreated.turned (.step (.operate (by simp)))
  have hsecond := hfirst.turned (.step (.operate (by simp)))
  exact hsecond.turned (.step (.begin rfl rfl))

theorem attained_dismantled : Attained Session.repertoire.behaviour dismantled := by
  have hinvoked := attained_commencing.turned (.step (.invoke rfl))
  have htorn := hinvoked.turned (.step (.operate Operation.noConfusion))
  exact htorn.turned (.step .pass)

/-- The first initializer is given a valid engine, the second one is not. -/
theorem live_iff_not_tornDown_dismantled :
    Attained Session.repertoire.behaviour commencing ∧
      Invoking commencing ⟨0, "cleanup"⟩ ⟨0⟩ ∧
      ((commencing.engine.isValid = true ∧ commencing.engine.global = some ⟨0⟩) ↔
        .tornDown ∉ commencing.chronicle) ∧
      Attained Session.repertoire.behaviour dismantled ∧
      Invoking dismantled ⟨1, "alpha"⟩ ⟨0⟩ ∧
      ((dismantled.engine.isValid = true ∧ dismantled.engine.global = some ⟨0⟩) ↔
        .tornDown ∉ dismantled.chronicle) :=
  ⟨attained_commencing, .next, live_iff_not_tornDown attained_commencing .next,
    attained_dismantled, .next, live_iff_not_tornDown attained_dismantled .next⟩

/-- An initializer that comes after one that tears the engine down is invoked all the same, with a
handle that is no longer that of the global object. -/
theorem invoking_torn_down : ¬ ∀ {c : Course Rehearsal} {r : Registration} {global : Handle},
    Attained Session.repertoire.behaviour c → Invoking c r global →
      c.engine.isValid = true ∧ c.engine.global = some global := by
  intro hlive
  have hvalid : dismantled.engine.isValid = true := (hlive attained_dismantled .next).1
  cases hvalid

/-! ## The end -/

/-- An engine that is over has nothing left, and refuses or ignores whatever has to do with the
backend, without a change. -/
structure Over (e : Engine σ) : Prop where
  isValid : e.isValid = false
  byNative : e.registry.byNative = ∅
  byHandle : e.registry.byHandle = ∅
  wrappers : e.registry.wrappers = ∅
  started : e.started = false
  hasPendingException : e.hasPendingException = false
  refuses : ∀ (repertoire : Repertoire) (depth : Nat) {op : Operation}
    {reply : Except Failure Reply}, refusal? e op = some reply →
      perform repertoire (depth + 1) op e = some (reply, e)

/-- What can be told about the life of an engine wherever its course has come to. -/
structure Lifecycle (may : Behaviour) (c : Course σ) : Prop where
  backend : c.engine.isValid = c.engine.backend.isSome
  global : c.engine.isValid = c.engine.global.isSome
  inCleanup : c.engine.inCleanup = false
  ending : c.engine.isValid = false → ∀ {c'}, Relation.ReflTransGen (Turn may) c c' → Over c'.engine

/-- Where a course has come to with an engine that is not valid, it is over. -/
theorem Attained.over_of_invalid (h : Attained may c) (hinvalid : c.engine.isValid = false) :
    Over c.engine := by
  have hreachable := h.reachable
  have hspent := hreachable.wellFormed.spent_of_invalid hinvalid
  obtain ⟨hnative, hhandle, hwrappers⟩ :=
    hspent.registry hreachable.wellFormed.orderly.coherent
  refine ⟨hinvalid, hnative, hhandle, hwrappers, h.vital.started hinvalid, ?_, ?_⟩
  · rw [Engine.hasPendingException, hspent.backend]
    rfl
  · intro repertoire depth op reply hreply
    by_cases hop : op = .start
    · subst hop
      cases hreply
      exact perform_start_of_dead (.inl hinvalid)
    · rw [perform_of_ne hop, performSimple_of_spent hspent hreachable.lineal
        (hreachable.pristine hinvalid) hop hreply]

/-- What says whether an engine is alive agrees at any time, and nothing brings it back. -/
theorem lifecycle_of_attained (h : Attained may c) : Lifecycle may c := by
  have hformed := h.reachable.wellFormed
  refine ⟨hformed.isValid, h.reachable.isSome_global.symm, hformed.inCleanup, ?_⟩
  intro hinvalid c' hturns
  have hspent : Spent c'.engine :=
    (hformed.spent_of_invalid hinvalid).moves (moves_of_turns hturns)
  exact (h.turns hturns).over_of_invalid hspent.isValid

/-- Also in the midst of a start whose first initializer has torn the engine down. -/
theorem lifecycle_of_attained_dismantled :
    Attained Session.repertoire.behaviour dismantled ∧
      Lifecycle Session.repertoire.behaviour dismantled ∧ dismantled.engine.isValid = false ∧
      refusal? dismantled.engine (.setProperty ⟨0⟩ "alpha" (.number 1)) =
        some (.error .notInitialized) :=
  ⟨attained_dismantled, lifecycle_of_attained attained_dismantled, rfl, rfl⟩

end ScriptBridge.Course
