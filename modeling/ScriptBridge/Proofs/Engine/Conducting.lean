import ScriptBridge.Proofs.Engine.Passing

/-!
# Conducting a report

A report is conducted to its outcome by the passes that it asks for. Every pass finds the registry
that the one before has left, and in between nothing is asked of the backend.
-/

namespace ScriptBridge

/-- A call on the weak view of a backend. -/
def Call.isWeak : Call → Bool
  | .queryDead _ | .tearDown _ | .forget _ => true
  | _ => false

namespace Reconcile

variable {σ α : Type} [Backend σ] {r : Registry} {inCleanup : Bool} {passes : List (Sweep σ)}
  {o : Outcome σ α}

/-- A report is conducted to its outcome by these passes. Every pass finds the registry that the one
before has left, and the report goes on with the state that the pass leaves. -/
inductive Conducted (inCleanup : Bool) :
    Registry → Report σ α → List (Sweep σ) → Outcome σ α → Prop
  | done (r : Registry) (o : Outcome σ α) : Conducted inCleanup r (.done o) [] o
  | events {r : Registry} {next : Report σ α} {passes : List (Sweep σ)} {o : Outcome σ α}
    (notices : List Notice) (h : Conducted inCleanup r next passes o) :
    Conducted inCleanup r (.events notices next) passes o
  | phase {r : Registry} {next : Report σ α} {passes : List (Sweep σ)} {o : Outcome σ α}
    (p : Phase) (h : Conducted inCleanup r next passes o) :
    Conducted inCleanup r (.phase p next) passes o
  | update {r : Registry} {state : σ} {resume : σ → Report σ α} {passes : List (Sweep σ)}
    {o : Outcome σ α}
    (h : Conducted inCleanup (pass r inCleanup state).registry
      (resume (pass r inCleanup state).state) passes o) :
    Conducted inCleanup r (.update state resume) (pass r inCleanup state :: passes) o

/-- The registry after some passes. -/
def leftBy (r : Registry) (passes : List (Sweep σ)) : Registry :=
  (passes.getLast?.map Sweep.registry).getD r

omit [Backend σ] in
theorem leftBy_cons (r : Registry) (s : Sweep σ) (passes : List (Sweep σ)) :
    leftBy r (s :: passes) = leftBy s.registry passes := by
  cases hlast : passes.getLast? with
  | none =>
    rw [List.getLast?_eq_none_iff.mp hlast]
    rfl
  | some last => simp [leftBy, List.getLast?_cons, hlast]

/-- A pass only uses the weak view. -/
theorem isWeak_of_pass (r : Registry) (inCleanup : Bool) (state : σ) {call : Call}
    (h : call ∈ callsOf (pass r inCleanup state).events) : call.isWeak = true := by
  obtain ⟨ids, -, hweak⟩ := passIn_prunes r.nativeEntries r inCleanup state
  cases hweak call h with
  | decides h =>
    obtain ⟨handle, rfl | rfl⟩ := h
    · rfl
    · rfl
  | forget hid hw => rfl

theorem Conducted.isWeak {report : Report σ α} (h : Conducted inCleanup r report passes o) :
    ∀ s ∈ passes, ∀ call ∈ callsOf s.events, call.isWeak = true := by
  induction h with
  | done r o => exact List.forall_mem_nil _
  | events notices h ih => exact ih
  | phase p h ih => exact ih
  | @update r state resume passes o h ih =>
    exact List.forall_mem_cons.mpr ⟨fun call ↦ isWeak_of_pass r inCleanup state, ih⟩

/-- Every report is conducted to an outcome, and nothing but its passes makes calls meanwhile. -/
theorem run_conducted (inCleanup : Bool) (report : Report σ α) (r : Registry)
    (trace : List Event) : ∃ passes o events, Conducted inCleanup r report passes o ∧
      run inCleanup report r trace = ⟨o.result, leftBy r passes, o.state, trace ++ events⟩ ∧
      callsOf events = passes.flatMap fun s ↦ callsOf s.events := by
  induction report generalizing r trace with
  | done o => exact ⟨[], o, o.events.map Notice.event, .done r o, rfl, by simp⟩
  | events notices next ih =>
    obtain ⟨passes, o, events, hconducted, hrun, hcalls⟩ := ih r (trace ++ notices.map Notice.event)
    refine ⟨passes, o, notices.map Notice.event ++ events, .events notices hconducted, ?_, ?_⟩
    · rw [run, hrun, List.append_assoc]
    · rw [callsOf_append, callsOf_notices, List.nil_append, hcalls]
  | phase p next ih =>
    obtain ⟨passes, o, events, hconducted, hrun, hcalls⟩ := ih r (trace ++ [phaseEvent r p])
    refine ⟨passes, o, phaseEvent r p :: events, .phase p hconducted, ?_, ?_⟩
    · rw [run, hrun, List.append_assoc, List.singleton_append]
    · cases p <;> exact hcalls
  | update state resume ih =>
    let s := pass r inCleanup state
    obtain ⟨passes, o, events, hconducted, hrun, hcalls⟩ :=
      ih s.state s.registry (trace ++ s.events)
    refine ⟨s :: passes, o, s.events ++ events, .update hconducted, ?_, ?_⟩
    · rw [run, hrun, List.append_assoc, leftBy_cons]
    · rw [callsOf_append, List.flatMap_cons, hcalls]

end Reconcile

end ScriptBridge
