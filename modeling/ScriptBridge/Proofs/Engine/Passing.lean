import ScriptBridge.Proofs.Engine.Quiet
import ScriptBridge.Proofs.Registry.Removal

/-!
# Weak passes and reports

Whatever a backend answers, a pass only removes wrappers, and gives back the handles of exactly
those that it removes. A report strings passes together, so the same holds from its beginning to its
end.
-/

namespace ScriptBridge

namespace Reconcile

variable {σ α : Type} [Backend σ] {r : Registry} {inCleanup : Bool}

/-! ## The visit -/

/-- All visits of a pass. -/
def visits (ids : List WrapperId) (r : Registry) (inCleanup : Bool) (state : σ) : Visited σ :=
  ids.foldl (visit r inCleanup) ⟨[], state, []⟩

/-- The calls by which a pass decides. -/
def Decides (call : Call) : Prop := ∃ handle, call = .queryDead handle ∨ call = .tearDown handle

/-- A visit has found wrappers of the registry doomed, and made no call but those that decide. -/
structure Found (r : Registry) (v : Visited σ) : Prop where
  doomed : ∀ d ∈ v.doomed, ∃ w, r.get? d.1 = some w ∧ w.handle = d.2
  decides : ∀ call ∈ callsOf v.events, Decides call

theorem Found.visit {v : Visited σ} (h : Found r v) (id : WrapperId) :
    Found r (visit r inCleanup v id) := by
  have hadd : ∀ {w}, r.get? id = some w →
      ∀ d ∈ v.doomed ++ [(id, w.handle)], ∃ w, r.get? d.1 = some w ∧ w.handle = d.2 := by
    intro w hw d hd
    rcases List.mem_append.mp hd with hold | hnew
    · exact h.doomed d hold
    · rw [List.mem_singleton] at hnew
      subst hnew
      exact ⟨w, hw, rfl⟩
  have hcalls : ∀ {call : Call} {notices : List Notice}, Decides call →
      ∀ c ∈ callsOf (v.events ++ .call call :: notices.map Notice.event), Decides c := by
    intro call notices hcall c hc
    rw [callsOf_append, callsOf_call, callsOf_notices, List.mem_append, List.mem_singleton] at hc
    rcases hc with hold | rfl
    · exact h.decides c hold
    · exact hcall
  unfold Reconcile.visit
  split
  · exact h
  · next w hw =>
    split
    · split
      · exact ⟨hadd hw, hcalls ⟨_, .inr rfl⟩⟩
      · exact h
    · refine ⟨?_, hcalls ⟨_, .inl rfl⟩⟩
      dsimp only
      split
      · exact hadd hw
      · exact h.doomed

theorem found_visits (ids : List WrapperId) (r : Registry) (inCleanup : Bool) (state : σ) :
    Found r (visits ids r inCleanup state) := by
  have hstart : Found r (⟨[], state, []⟩ : Visited σ) := ⟨by simp, by simp⟩
  exact List.foldlRecOn ids (visit r inCleanup) hstart fun _ h id _ ↦ h.visit id

/-! ## The removals -/

theorem registry_dismiss (s : Sweep σ) (d : Doomed) :
    (dismiss s d).registry = (s.registry.remove d.1).2 :=
  Registry.remove_clearRoots s.registry d.1

theorem registry_dismissals (doomed : List Doomed) (s : Sweep σ) :
    (doomed.foldl dismiss s).registry = s.registry.removeAll (doomed.map Prod.fst) := by
  induction doomed generalizing s with
  | nil => rfl
  | cons d doomed ih =>
    rw [List.foldl_cons, ih, registry_dismiss]
    rfl

theorem callsOf_dismissals (doomed : List Doomed) (s : Sweep σ) :
    callsOf (doomed.foldl dismiss s).events =
      callsOf s.events ++ doomed.map fun d ↦ .forget d.2 := by
  induction doomed generalizing s with
  | nil => simp
  | cons d doomed ih =>
    have hfirst : callsOf (dismiss s d).events = callsOf s.events ++ [.forget d.2] := by
      rw [dismiss, callsOf_append, callsOf_call, callsOf_notices]
    calc callsOf ((d :: doomed).foldl dismiss s).events
        = callsOf (dismiss s d).events ++ doomed.map (fun d ↦ Call.forget d.2) := ih (dismiss s d)
      _ = callsOf s.events ++ [.forget d.2] ++ doomed.map (fun d ↦ Call.forget d.2) := by
        rw [hfirst]
      _ = callsOf s.events ++ (d :: doomed).map (fun d ↦ Call.forget d.2) :=
        List.append_assoc _ _ _

theorem passIn_eq (order : List (NativeId × WrapperId)) (r : Registry) (inCleanup : Bool)
    (state : σ) : passIn order r inCleanup state =
      let v := visits (order.map Prod.snd) r inCleanup state
      v.doomed.foldl dismiss ⟨r, v.state, v.events⟩ :=
  rfl

/-- The calls of passes that remove the given wrappers. -/
inductive Weak (r : Registry) (ids : List WrapperId) : Call → Prop
  | decides {call : Call} (h : Decides call) : Weak r ids call
  | forget {id : WrapperId} {w : Wrapper} (hid : id ∈ ids) (hw : r.get? id = some w) :
    Weak r ids (.forget w.handle)

/-- A pass removes wrappers, and gives back the handles of those it removes. -/
theorem passIn_prunes (order : List (NativeId × WrapperId)) (r : Registry) (inCleanup : Bool)
    (state : σ) : ∃ ids, (passIn order r inCleanup state).registry = r.removeAll ids ∧
      ∀ call ∈ callsOf (passIn order r inCleanup state).events, Weak r ids call := by
  have hfound := found_visits (order.map Prod.snd) r inCleanup state
  rw [passIn_eq]
  refine ⟨_, registry_dismissals _ _, fun call hcall ↦ ?_⟩
  rw [callsOf_dismissals, List.mem_append, List.mem_map] at hcall
  rcases hcall with hdecides | ⟨d, hd, rfl⟩
  · exact .decides (hfound.decides call hdecides)
  · obtain ⟨w, hw, hhandle⟩ := hfound.doomed d hd
    rw [← hhandle]
    exact .forget (List.mem_map_of_mem hd) hw

/-! ## Reports -/

/-- Calls of later passes are calls of all passes taken together. -/
theorem Weak.after (hr : r.Coherent) {ids more : List WrapperId} {call : Call}
    (h : Weak (r.removeAll ids) more call) : Weak r (ids ++ more) call := by
  cases h with
  | decides h => exact .decides h
  | forget hid hw =>
    obtain ⟨-, v, hv, rfl⟩ := hr.of_get?_removeAll hw
    rw [(Wrapper.sameRecord_withoutAll ids v).handle]
    exact .forget (List.mem_append_right ids hid) hv

theorem Weak.before {ids : List WrapperId} (more : List WrapperId) {call : Call}
    (h : Weak r ids call) : Weak r (ids ++ more) call := by
  cases h with
  | decides h => exact .decides h
  | forget hid hw => exact .forget (List.mem_append_left more hid) hw

/-- From beginning to end a report removes wrappers, and gives back the handles of those. -/
theorem run_prunes (hr : r.Coherent) (inCleanup : Bool) (report : Report σ α)
    (trace : List Event) :
    ∃ ids events, (run inCleanup report r trace).registry = r.removeAll ids ∧
      (run inCleanup report r trace).events = trace ++ events ∧
      ∀ call ∈ callsOf events, Weak r ids call := by
  induction report generalizing r trace with
  | done o => exact ⟨[], _, rfl, rfl, by simp⟩
  | events es next ih =>
    obtain ⟨ids, events, hregistry, hevents, hcalls⟩ := ih hr (trace ++ es.map Notice.event)
    refine ⟨ids, es.map Notice.event ++ events, hregistry, ?_, by simpa using hcalls⟩
    rw [run, hevents, List.append_assoc]
  | phase p next ih =>
    obtain ⟨ids, events, hregistry, hevents, hcalls⟩ := ih hr (trace ++ [phaseEvent r p])
    refine ⟨ids, phaseEvent r p :: events, hregistry, ?_, ?_⟩
    · rw [run, hevents, List.append_assoc]
      rfl
    · cases p <;> exact hcalls
  | update state resume ih =>
    obtain ⟨first, hfirst, hweak⟩ := passIn_prunes r.nativeEntries r inCleanup state
    let s := pass r inCleanup state
    have hs : s.registry = r.removeAll first := hfirst
    obtain ⟨ids, events, hregistry, hevents, hcalls⟩ :=
      ih s.state (r := s.registry) (hs ▸ hr.removeAll first) (trace ++ s.events)
    refine ⟨first ++ ids, s.events ++ events, ?_, ?_, ?_⟩
    · calc (run inCleanup (.update state resume) r trace).registry
          = s.registry.removeAll ids := hregistry
        _ = (r.removeAll first).removeAll ids := by rw [hs]
        _ = r.removeAll (first ++ ids) := (Registry.removeAll_append r first ids).symm
    · calc (run inCleanup (.update state resume) r trace).events
          = trace ++ s.events ++ events := hevents
        _ = trace ++ (s.events ++ events) := List.append_assoc _ _ _
    · intro call hcall
      rw [callsOf_append, List.mem_append] at hcall
      rcases hcall with hnow | hlater
      · exact (hweak call hnow).before ids
      · have hafter := hcalls call hlater
        rw [hs] at hafter
        exact hafter.after hr

end Reconcile

namespace Engine

variable {σ α : Type} [Backend σ] {e : Engine σ}

/-! ## Operations that report collections -/

theorem askReporting?_none (h : e.backend = none) (call : Call) (f : σ → Report σ α) :
    askReporting? call f e = (none, e) := by
  simp only [askReporting?, h]

theorem askReporting?_some {s : σ} (h : e.backend = some s) (call : Call) (f : σ → Report σ α) :
    askReporting? call f e =
      (some (e.follow call (f s)).result, e.reconciled (e.follow call (f s))) := by
  simp only [askReporting?, h]

theorem collectGarbage_snd (e : Engine σ) :
    (collectGarbage e).2 = (askReporting? .collect Backend.collect e).2 :=
  rfl

/-- What comes after the evaluation itself is quiet. -/
theorem executeSource_quiet (source : Script.Source) (file : Option String) (e : Engine σ) :
    Quiet (askReporting? (.evaluate source (e.fileName file))
      (Backend.evaluate source (e.fileName file)) e).2 (executeSource source file e).2 := by
  simp only [executeSource, run_bind, run_get, run_surely]
  generalize askReporting? (.evaluate source (e.fileName file))
    (Backend.evaluate source (e.fileName file)) e = asked
  rcases answer asked.1 with failure | value
  · cases failure <;> exact quietly_clearException asked.2
  · exact .refl asked.2

/-- A buffer is refused, or its characters are run. -/
theorem executeBuffer_snd (bytes : List UInt8) (file : Option String) (e : Engine σ) :
    (executeBuffer bytes file e).2 = match decodeSource bytes with
      | .ok source => (executeSource (.text source) file e).2
      | .error _ => e := by
  simp only [executeBuffer, run_bind]
  cases decodeSource bytes <;> rfl

/-- A report changes the engine by removals only, whose handles it gives back. -/
structure Prunes (call : Call) (e e' : Engine σ) : Prop where
  frame : Frame e e'
  pruned : ∃ ids, e'.registry = e.registry.removeAll ids ∧
    Makes (fun c ↦ c = call ∨ Reconcile.Weak e.registry ids c) e e'

theorem askReporting?_prunes (hr : e.registry.Coherent) (call : Call) (f : σ → Report σ α) :
    Prunes call e (askReporting? call f e).2 := by
  cases hs : e.backend with
  | none =>
    rw [askReporting?_none hs]
    exact ⟨.refl e, [], rfl, .refl e⟩
  | some s =>
    rw [askReporting?_some hs]
    obtain ⟨ids, events, hregistry, hevents, hcalls⟩ :=
      Reconcile.run_prunes hr e.inCleanup (f s) (e.trace ++ [.call call])
    refine ⟨⟨rfl, rfl, rfl, by rw [hs]; rfl⟩, ids, hregistry, .call call :: events, ?_, ?_⟩
    · exact hevents.trans (List.append_assoc _ _ _)
    · intro c hc
      rcases List.mem_cons.mp hc with rfl | hlater
      · exact .inl rfl
      · exact .inr (hcalls c hlater)

end Engine

end ScriptBridge
