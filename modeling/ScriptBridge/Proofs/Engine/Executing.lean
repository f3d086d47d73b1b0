import ScriptBridge.Proofs.Engine.Aftermath

/-!
# What running a buffer comes to

A buffer that is no source is refused, and so is every buffer where there is no backend; then
nothing has happened. Otherwise the backend evaluates the source once. The passes that it asks for
meanwhile are all that the registry sees of it, whatever becomes of the script. If the evaluation
fails, the pending exception is taken, and logged if there was one.
-/

namespace ScriptBridge

namespace Engine

open Backend Reconcile

variable {σ : Type} [Backend σ] {e : Engine σ} {file : String}
  {o : Outcome σ (Except Failure Value)} {result : Except Failure (Option Value)} {s : σ}
  {final : List Event}

/-- What is noted when a pending exception is taken: the call, and the exception if there is one. -/
def clearing (s : σ) : List Event :=
  .call .takePending :: (takePending s).events.map Notice.event ++
    ((takePending s).result.map fun exception ↦ .log .error exception.text).toList

theorem callsOf_clearing (s : σ) : callsOf (clearing s) = [.takePending] := by
  rw [clearing, List.cons_append, callsOf_call, callsOf_append, callsOf_notices]
  cases (takePending s).result <;> rfl

/-- What an evaluation that has ended comes to: a result, the state of the backend, and what is
noted on the way. -/
inductive Verdict (file : String) (o : Outcome σ (Except Failure Value)) :
    Except Failure (Option Value) → σ → List Event → Prop
  | nothing {value : Value} (h : o.result = .ok value) (hnullish : value.isNullish = true) :
    Verdict file o (.ok none) o.state []
  | value {value : Value} (h : o.result = .ok value) (hsome : value.isNullish = false) :
    Verdict file o (.ok (some value)) o.state []
  | thrown (h : o.result = .error .exceptionPending) :
    Verdict file o (.error (.script ((takePending o.state).result.getD (uncaught file))))
      (takePending o.state).state (clearing o.state)
  | failed {failure : Failure} (h : o.result = .error failure)
      (hother : failure ≠ .exceptionPending) :
    Verdict file o (.error failure) (takePending o.state).state (clearing o.state)

namespace Verdict

theorem not_nullish (h : Verdict file o result s final) :
    result ≠ .ok (some .undefined) ∧ result ≠ .ok (some .null) := by
  cases h with
  | nothing => simp
  | @value v _ hsome =>
    constructor
    · rintro ⟨⟩
      cases hsome
    · rintro ⟨⟩
      cases hsome
  | thrown => simp
  | failed => simp

theorem ne_exceptionPending (h : Verdict file o result s final) :
    result ≠ .error .exceptionPending := by
  cases h with
  | nothing => simp
  | value => simp
  | thrown => simp
  | failed _ hother => simpa using hother

/-- After a failure the exception has been taken. -/
theorem of_error (h : Verdict file o result s final) {failure : Failure}
    (herror : o.result = .error failure) : s = (takePending o.state).state := by
  cases h with
  | nothing h => cases h.symm.trans herror
  | value h => cases h.symm.trans herror
  | thrown => rfl
  | failed => rfl

/-- Only a failure leads to a failure. -/
theorem of_result_error (h : Verdict file o result s final) {failure : Failure}
    (herror : result = .error failure) : ∃ failure, o.result = .error failure := by
  cases h with
  | nothing => cases herror
  | value => cases herror
  | thrown h => exact ⟨_, h⟩
  | failed h => exact ⟨_, h⟩

/-- An exception is taken once at most, and only after a failure. -/
theorem callsOf_final (h : Verdict file o result s final) :
    callsOf final = if o.result matches .error _ then [.takePending] else [] := by
  cases h with
  | nothing h => rw [h]; rfl
  | value h => rw [h]; rfl
  | thrown h => rw [h, callsOf_clearing]; rfl
  | failed h => rw [h, callsOf_clearing]; rfl

end Verdict

theorem clearException_eq (h : e.backend = some s) : clearException e =
    ((takePending s).result,
      { e with backend := some (takePending s).state, trace := e.trace ++ clearing s }) := by
  simp only [clearException, act_bind, ask?_some h, clearing]
  cases (takePending s).result with
  | none =>
    rw [Option.map_none, Option.toList_none, List.append_nil]
    rfl
  | some exception =>
    rw [Option.map_some, Option.toList_some, ← List.append_assoc]
    rfl

/-- A failure as it is returned after the pending exception was taken. -/
def returned (taken : Option ScriptException) (file : String) : Failure → Failure
  | .exceptionPending => .script (taken.getD (uncaught file))
  | failure => failure

section Asked

variable {source : Script.Source} {given : Option String} {ended : Engine σ}

theorem executeSource_of_ok {value : Value}
    (hasked : askReporting? (.evaluate source (e.fileName given))
      (evaluate source (e.fileName given)) e = (some (.ok value), ended)) :
    executeSource source given e = (.ok (if value.isNullish then none else some value), ended) := by
  simp only [executeSource, run_bind, run_get, run_surely, hasked, answer]
  rfl

theorem executeSource_of_error {failure : Failure}
    (hasked : askReporting? (.evaluate source (e.fileName given))
      (evaluate source (e.fileName given)) e = (some (.error failure), ended)) :
    executeSource source given e =
      (.error (returned (clearException ended).1 (e.fileName given) failure),
        (clearException ended).2) := by
  simp only [executeSource, run_bind, run_get, run_surely, hasked, answer]
  cases failure <;> rfl

/-- Once the backend has evaluated the source, the rest is its verdict. -/
theorem verdict_of_asked (hended : ended.backend = some o.state)
    (hasked : askReporting? (.evaluate source (e.fileName given))
      (evaluate source (e.fileName given)) e = (some o.result, ended)) :
    ∃ s final, Verdict (e.fileName given) o (executeSource source given e).1 s final ∧
      (executeSource source given e).2 =
        { ended with backend := some s, trace := ended.trace ++ final } := by
  cases hresult : o.result with
  | ok value =>
    rw [hresult] at hasked
    rw [executeSource_of_ok hasked]
    refine ⟨o.state, [], ?_, by rw [List.append_nil, ← hended]⟩
    dsimp only
    split
    · next hnullish => exact .nothing hresult hnullish
    · next hsome => exact .value hresult (by simpa using hsome)
  | error failure =>
    rw [hresult] at hasked
    rw [executeSource_of_error hasked, clearException_eq hended]
    refine ⟨(takePending o.state).state, clearing o.state, ?_, rfl⟩
    by_cases hpending : failure = .exceptionPending
    · subst hpending
      exact .thrown hresult
    · have hsame : returned (takePending o.state).result (e.fileName given) failure = failure := by
        cases failure <;> first | exact absurd rfl hpending | rfl
      dsimp only
      rw [hsame]
      exact .failed hresult hpending

end Asked

/-- An evaluation is conducted to its outcome, and a verdict follows. -/
theorem executeSource_verdict (h : e.backend = some s) (source : Script.Source)
    (file : Option String) : ∃ passes o events s' final,
      Conducted e.inCleanup e.registry (evaluate source (e.fileName file) s) passes o ∧
      callsOf events = (passes.flatMap fun pass ↦ callsOf pass.events) ∧
      Verdict (e.fileName file) o (executeSource source file e).1 s' final ∧
      (executeSource source file e).2 = { e with
        backend := some s'
        registry := leftBy e.registry passes
        trace := e.trace ++ .call (.evaluate source (e.fileName file)) :: events ++ final } := by
  obtain ⟨passes, o, events, hconducted, hrun, hcalls⟩ := run_conducted e.inCleanup
    (evaluate source (e.fileName file) s) e.registry
    (e.trace ++ [.call (.evaluate source (e.fileName file))])
  let ended : Engine σ := { e with
    backend := some o.state
    registry := leftBy e.registry passes
    trace := e.trace ++ .call (.evaluate source (e.fileName file)) :: events }
  have hasked : askReporting? (.evaluate source (e.fileName file))
      (evaluate source (e.fileName file)) e = (some o.result, ended) := by
    rw [askReporting?_some h, follow, hrun, List.append_assoc]
    rfl
  obtain ⟨s', final, hverdict, hafter⟩ := verdict_of_asked rfl hasked
  exact ⟨passes, o, events, s', final, hconducted, hcalls, hverdict, hafter⟩

/-! ## Buffers -/

omit [Backend σ] in
theorem fileName_some {name : String} (e : Engine σ) (h : name ≠ "") :
    e.fileName (some name) = name := by
  rw [fileName, if_neg (by simpa using h)]

theorem invalid_of_decodeSource {bytes : List UInt8} {failure : Failure}
    (h : decodeSource bytes = .error failure) : ∃ defect, failure = .invalidSource defect := by
  unfold decodeSource at h
  split at h
  · cases h
    exact ⟨_, rfl⟩
  · split at h
    · cases h
      exact ⟨_, rfl⟩
    · cases h

/-- Without a source or a backend nothing happens. -/
theorem executeBuffer_cases (bytes : List UInt8) (given : Option String) (e : Engine σ) :
    (∃ failure, executeBuffer bytes given e = (.error failure, e) ∧
      (decodeSource bytes = .error failure ∨ e.backend = none ∧ failure = .notInitialized)) ∨
    ∃ source s, decodeSource bytes = .ok source ∧ e.backend = some s ∧
      executeBuffer bytes given e = executeSource (.text source) given e := by
  simp only [executeBuffer, run_bind]
  cases hsource : decodeSource bytes with
  | error failure => exact .inl ⟨failure, rfl, .inl rfl⟩
  | ok source =>
    cases hs : e.backend with
    | none => exact .inl ⟨.notInitialized, executeSource_of_none hs _ given, .inr ⟨rfl, rfl⟩⟩
    | some s => exact .inr ⟨source, s, rfl, rfl, rfl⟩

/-- A buffer is refused, and nothing happens, or the backend evaluates its source once, under the
given file name or the default one. In between the backend asks for passes, which are all that
changes the registry, whatever comes of the evaluation. After a failure the pending exception is
taken, once, and none is pending any longer; what is returned then is the exception, if the failure
was that one is pending, and otherwise the failure as it is. A result is neither undefined nor
null. -/
theorem executeBuffer_outcome (htakes : ∀ s : σ, hasPending (takePending s).state = false)
    (bytes : List UInt8) (given : Option String) (e : Engine σ) :
    let result := (executeBuffer bytes given e).1
    let after := (executeBuffer bytes given e).2
    (result ≠ .ok (some .undefined) ∧ result ≠ .ok (some .null) ∧
      result ≠ .error .exceptionPending) ∧
    (∀ name, given = some name → name ≠ "" → e.fileName given = name) ∧
    (given = none ∨ given = some "" → e.fileName given = e.config.defaultFileName) ∧
    ((∃ failure, result = .error failure ∧ after = e ∧
        (decodeSource bytes = .error failure ∨ e.backend = none ∧ failure = .notInitialized)) ∨
      ∃ source s passes o s' events final,
        decodeSource bytes = .ok source ∧ e.backend = some s ∧
        Conducted e.inCleanup e.registry (evaluate (.text source) (e.fileName given) s) passes o ∧
        Verdict (e.fileName given) o result s' final ∧
        after = { e with
          backend := some s'
          registry := leftBy e.registry passes
          trace := e.trace ++ .call (.evaluate (.text source) (e.fileName given)) ::
            events ++ final } ∧
        callsSince e after = .evaluate (.text source) (e.fileName given) ::
          (passes.flatMap fun pass ↦ callsOf pass.events) ++
            (if o.result matches .error _ then [.takePending] else []) ∧
        (∀ pass ∈ passes, ∀ call ∈ callsOf pass.events, call.isWeak = true) ∧
        ∀ failure, o.result = .error failure → after.hasPendingException = false) := by
  have hname : ∀ name, given = some name → name ≠ "" → e.fileName given = name := by
    rintro name rfl hne
    exact fileName_some e hne
  have hdefault : given = none ∨ given = some "" → e.fileName given = e.config.defaultFileName := by
    rintro (rfl | rfl) <;> rfl
  obtain ⟨failure, hrun, hwhy⟩ | ⟨source, s, hsource, hs, hrun⟩ := executeBuffer_cases bytes given e
  · rw [hrun]
    refine ⟨⟨by simp, by simp, ?_⟩, hname, hdefault, .inl ⟨failure, rfl, rfl, hwhy⟩⟩
    rintro ⟨⟩
    obtain hinvalid | ⟨-, hpending⟩ := hwhy
    · obtain ⟨defect, hpending⟩ := invalid_of_decodeSource hinvalid
      cases hpending
    · cases hpending
  · obtain ⟨passes, o, events, s', final, hconducted, hcalls, hverdict, hafter⟩ :=
      executeSource_verdict hs (.text source) given
    rw [hrun]
    obtain ⟨hundefined, hnull⟩ := hverdict.not_nullish
    refine ⟨⟨hundefined, hnull, hverdict.ne_exceptionPending⟩, hname, hdefault, .inr ⟨source, s,
      passes, o, s', events, final, hsource, hs, hconducted, hverdict, hafter, ?_,
      hconducted.isWeak, fun failure herror ↦ ?_⟩⟩
    · have htrace : (executeSource (.text source) given e).2.trace = e.trace ++
          (.call (.evaluate (.text source) (e.fileName given)) :: events ++ final) := by
        rw [hafter, List.append_assoc]
      rw [callsSince_eq htrace, callsOf_append, callsOf_call, hcalls, hverdict.callsOf_final]
    · rw [hafter, hverdict.of_error herror]
      exact htakes o.state

/-- The exception that the rehearsed script throws. -/
def boom : ScriptException := ⟨"Error: boom", "main.js", 3⟩

/-- A rehearsal whose next script throws after a collection. -/
def throwing : Engine Rehearsal :=
  { rehearsed with
    backend := rehearsed.backend.map (·.addPlan ⟨true, some boom, .error .exceptionPending⟩) }

/-- The exception of a script that throws is returned, and none is pending any longer. -/
theorem executeBuffer_outcome_thrown :
    (∀ s : Rehearsal, hasPending (takePending s).state = false) ∧
      (executeBuffer [] none throwing).1 = .error (.script boom) ∧
      (executeBuffer [] none throwing).2.hasPendingException = false := by
  have hresult : (executeBuffer [] none throwing).1 = .error (.script boom) := rfl
  refine ⟨fun _ ↦ rfl, hresult, ?_⟩
  obtain ⟨-, -, -, ⟨failure, -, -, hrefused⟩ | ⟨source, s, passes, o, s', events, final, -, -, -,
    hverdict, -, -, -, hclear⟩⟩ := executeBuffer_outcome (fun _ : Rehearsal ↦ rfl) [] none throwing
  · obtain hinvalid | ⟨hnone, -⟩ := hrefused
    · cases hinvalid
    · cases hnone
  · obtain ⟨failure, hfailure⟩ := hverdict.of_result_error hresult
    exact hclear failure hfailure

end Engine

end ScriptBridge
