import ScriptBridge.Proofs.Engine.Verdicts

/-!
# Accounts of given-back handles

What a stretch of events gives back is a list of handles. A pass gives back the handles of the
wrappers that it removes; so whatever a backend reports, the handles given back in a report and
those of the wrappers that are left are the handles that there were before. Nothing in between runs
a hook or shuts the backend down.
-/

namespace ScriptBridge

/-- A hook ran. -/
def Event.isHook : Event → Bool
  | .beforeCleanup _ | .afterCleanup _ => true
  | _ => false

/-- Events that give the listed handles back, run no hook and do not shut the backend down. -/
structure Returning (events : List Event) (handles : List Handle) : Prop where
  hooks : ∀ event ∈ events, event.isHook = false
  shutdown : .shutdown ∉ callsOf events
  given : (callsOf events).filterMap Call.givenBack? = handles

namespace Returning

variable {events later : List Event} {handles more : List Handle}

theorem nil : Returning [] [] := ⟨by simp, by simp, rfl⟩

theorem append (first : Returning events handles) (second : Returning later more) :
    Returning (events ++ later) (handles ++ more) where
  hooks := List.forall_mem_append.mpr ⟨first.hooks, second.hooks⟩
  shutdown := by
    rw [callsOf_append, List.mem_append, not_or]
    exact ⟨first.shutdown, second.shutdown⟩
  given := by rw [callsOf_append, List.filterMap_append, first.given, second.given]

/-- A backend gives nothing back by itself. -/
theorem notices (notices : List Notice) : Returning (notices.map Notice.event) [] where
  hooks event hevent := by
    obtain ⟨notice, -, rfl⟩ := List.mem_map.mp hevent
    cases notice <;> rfl
  shutdown := by simp
  given := by simp

/-- A call, and what the backend did meanwhile. -/
theorem call {call : Call} (hcall : call ≠ .shutdown) (notices : List Notice) :
    Returning (.call call :: notices.map Notice.event) call.givenBack?.toList where
  hooks event hevent := by
    rcases List.mem_cons.mp hevent with rfl | hnotice
    · rfl
    · exact (Returning.notices notices).hooks event hnotice
  shutdown := by simpa using hcall.symm
  given := by
    rw [callsOf_call, callsOf_notices]
    cases h : call.givenBack? <;> simp [h]

end Returning

namespace Reconcile

variable {σ α : Type} [Backend σ] {r : Registry}

/-! ## Passes -/

/-- What happens in a visit returns nothing. -/
theorem returning_visits (ids : List WrapperId) (r : Registry) (inCleanup : Bool) (state : σ) :
    Returning (visits ids r inCleanup state).events [] := by
  have hstart : Returning (⟨[], state, []⟩ : Visited σ).events [] := .nil
  refine List.foldlRecOn ids (visit r inCleanup)
    (motive := fun v : Visited σ ↦ Returning v.events []) hstart fun v hv id _ ↦ ?_
  unfold visit
  split
  · exact hv
  · split
    · split
      · exact hv.append (.call (by simp) _)
      · exact hv
    · exact hv.append (.call (by simp) _)

/-- A removal returns the handle of the doomed wrapper. -/
theorem returning_dismissals (doomed : List Doomed) {s : Sweep σ} {handles : List Handle}
    (h : Returning s.events handles) :
    Returning (doomed.foldl dismiss s).events (handles ++ doomed.map Prod.snd) := by
  induction doomed generalizing s handles with
  | nil => simpa using h
  | cons d doomed ih =>
    have hfirst : Returning (dismiss s d).events (handles ++ [d.2]) := h.append (.call (by simp) _)
    have hrest := ih hfirst
    rwa [List.append_assoc] at hrest

/-- A pass returns the handles of the wrappers that leave. -/
theorem pass_accounts (hr : r.Coherent) (inCleanup : Bool) (state : σ) :
    ∃ given, Returning (Reconcile.pass r inCleanup state).events given ∧
      (Reconcile.pass r inCleanup state).registry.Coherent ∧
      (given ++ (Reconcile.pass r inCleanup state).registry.handles).Perm r.handles := by
  have hnodup := nodup_order hr (.refl r.nativeEntries)
  obtain ⟨gone, h⟩ := exists_verdicts r inCleanup hnodup (⟨[], state, []⟩ : Visited σ)
  let leaving := doomed r.nativeEntries r inCleanup gone
  let v := visits (r.nativeEntries.map Prod.snd) r inCleanup state
  have hdoomed : v.doomed.map Prod.snd = leaving.map fun entry ↦ entry.2.handle := by
    have hpairs : v.doomed = leaving.map fun d ↦ (d.1, d.2.handle) := h.doomed
    rw [hpairs, List.map_map]
    rfl
  have hevents : Returning (v.doomed.foldl dismiss ⟨r, v.state, v.events⟩).events
      (leaving.map fun entry ↦ entry.2.handle) := by
    have hvisits : Returning (⟨r, v.state, v.events⟩ : Sweep σ).events [] :=
      returning_visits _ r inCleanup state
    rw [← hdoomed]
    exact returning_dismissals v.doomed hvisits
  have hregistry : (Reconcile.pass r inCleanup state).registry =
      r.removeAll (leaving.map Prod.fst) := (passIn_verdicts h).1
  refine ⟨_, hevents, hregistry ▸ hr.removeAll _, ?_⟩
  rw [hregistry]
  apply hr.handles_removeAll
  · intro id w hmem
    exact (mem_known.mp (List.mem_of_mem_filter hmem)).2
  · have hvisited : ((visited r.nativeEntries r).map Prod.fst).Nodup := by
      rwa [map_fst_visited hr (.refl _)]
    exact hvisited.sublist (List.filter_sublist.map Prod.fst)

/-! ## Reports -/

/-- A report, however it goes on, returns the handles of the wrappers that leave. -/
theorem run_accounts (hr : r.Coherent) (inCleanup : Bool) (report : Report σ α)
    (trace : List Event) :
    ∃ events given, (run inCleanup report r trace).events = trace ++ events ∧
      Returning events given ∧
      (given ++ (run inCleanup report r trace).registry.handles).Perm r.handles := by
  induction report generalizing r trace with
  | done o => exact ⟨_, [], rfl, .notices o.events, .refl _⟩
  | events es next ih =>
    obtain ⟨events, given, htrace, hgiven, hperm⟩ := ih hr (trace ++ es.map Notice.event)
    refine ⟨es.map Notice.event ++ events, given, ?_, (Returning.notices es).append hgiven, hperm⟩
    rw [run, htrace, List.append_assoc]
  | phase p next ih =>
    obtain ⟨events, given, htrace, hgiven, hperm⟩ := ih hr (trace ++ [phaseEvent r p])
    have hphase : Returning [phaseEvent r p] [] := by
      cases p <;> exact ⟨by simp [phaseEvent, Event.isHook], List.not_mem_nil, rfl⟩
    refine ⟨phaseEvent r p :: events, given, ?_, hphase.append hgiven, hperm⟩
    rw [run, htrace, List.append_assoc]
    rfl
  | update state resume ih =>
    obtain ⟨first, hfirst, hr', hperm'⟩ := pass_accounts hr inCleanup state
    let s := Reconcile.pass r inCleanup state
    obtain ⟨events, given, htrace, hgiven, hperm⟩ := ih s.state hr' (trace ++ s.events)
    refine ⟨s.events ++ events, first ++ given, ?_, hfirst.append hgiven, ?_⟩
    · calc (run inCleanup (.update state resume) r trace).events
          = trace ++ s.events ++ events := htrace
        _ = trace ++ (s.events ++ events) := List.append_assoc _ _ _
    · rw [List.append_assoc]
      exact (hperm.append_left first).trans hperm'

end Reconcile

end ScriptBridge
