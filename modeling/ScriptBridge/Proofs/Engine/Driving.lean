import ScriptBridge.Proofs.Engine.Dealing
import ScriptBridge.Proofs.Engine.Life

/-!
# An engine deals with its backend

Seen from its backend, an engine makes one request after the other, whatever it is asked for itself.
Its events tell of the end of a payload as often as the backend gave notice of it. At last the
engine shuts the backend down, and then lets go of it.
-/

namespace ScriptBridge

/-- The event is that of the end of a payload, given by tag and text. -/
def Event.finalizes (payload : String × String) : Event → Bool
  | .finalized tag text => tag = payload.1 && text = payload.2
  | _ => false

/-- The ends of payloads of which events tell are those that notices tell of. -/
def Relays (events : List Event) (exchanges : List Exchange) : Prop :=
  ∀ payload, events.countP (Event.finalizes payload) =
    exchanges.countP (Exchange.finalizes payload)

namespace Relays

variable {events more : List Event} {exchanges later : List Exchange}

theorem append (first : Relays events exchanges) (second : Relays more later) :
    Relays (events ++ more) (exchanges ++ later) := by
  intro payload
  rw [List.countP_append, List.countP_append, first, second]

/-- The events tell of no end. -/
theorem of_forall (h : ∀ event ∈ events, ∀ payload, event.finalizes payload = false) :
    Relays events [] := by
  intro payload
  rw [List.countP_nil, List.countP_eq_zero]
  intro event hevent
  rw [h event hevent payload]
  decide

theorem notices (notices : List Notice) :
    Relays (notices.map Notice.event) (notices.map .notice) := by
  intro payload
  rw [List.countP_map, List.countP_map]
  congr 1
  funext notice
  cases notice <;> rfl

/-- Handles that pass are no ends of payloads. -/
theorem aside (h : Relays events exchanges)
    (hlater : ∀ exchange ∈ later, ∀ payload, exchange.finalizes payload = false) :
    Relays events (exchanges ++ later) := by
  intro payload
  have hnone : later.countP (Exchange.finalizes payload) = 0 := by
    rw [List.countP_eq_zero]
    intro exchange hexchange
    rw [hlater exchange hexchange payload]
    decide
  rw [List.countP_append, hnone, Nat.add_zero]
  exact h payload

theorem ofResult (h : Relays events exchanges) (result : Except Failure Value) :
    Relays events (exchanges ++ Exchange.ofResult result) := by
  refine h.aside fun exchange hexchange _ ↦ ?_
  obtain ⟨handle, -, rfl⟩ := Option.map_eq_some_iff.mp (Option.mem_toList.mp hexchange)
  rfl

theorem ofRooting (h : Relays events exchanges) (handle : Handle) (result : Except Failure Unit) :
    Relays events (exchanges ++ Exchange.ofRooting handle result) := by
  refine h.aside fun exchange hexchange _ ↦ ?_
  cases result with
  | ok =>
    rw [List.mem_singleton.mp hexchange]
    rfl
  | error failure => cases hexchange

theorem waived (h : Relays events exchanges) (waived : List Waiver) :
    Relays events (exchanges ++ waived.map .waived) := by
  refine h.aside fun exchange hexchange _ ↦ ?_
  obtain ⟨waiver, -, rfl⟩ := List.mem_map.mp hexchange
  rfl

/-- A call is no end of a payload. -/
theorem call (c : Call) (h : Relays events exchanges) : Relays (.call c :: events) exchanges :=
  h

end Relays

namespace Engine

open Backend

variable {σ α : Type} [Backend σ] {e e' e'' : Engine σ} {s s' : σ} {call : Call}
  {notices : List Notice}

/-! ## Requests -/

/-- A call that reports no collection is a request. -/
theorem Served.dealing (h : Served call s s' notices) :
    ∃ exchanges, Dealing s exchanges s' ∧ Relays (notices.map Notice.event) exchanges := by
  have hnotices := Relays.notices notices
  cases h with
  | takePending => exact ⟨_, .takePending s, hnotices⟩
  | createObject => exact ⟨_, .createObject s, hnotices.ofResult _⟩
  | getProperty target key => exact ⟨_, .getProperty target key s, hnotices.ofResult _⟩
  | setProperty target key value => exact ⟨_, .setProperty target key value s, hnotices⟩
  | root handle => exact ⟨_, .root handle s, hnotices.ofRooting handle _⟩
  | unroot handle => exact ⟨_, .unroot handle s, hnotices.waived [.root handle]⟩
  | release handle => exact ⟨_, .release handle s, hnotices.waived [.handle handle]⟩
  | attachChild owner child => exact ⟨_, .attachChild owner child s, hnotices⟩
  | detachChild owner child => exact ⟨_, .detachChild owner child s, hnotices⟩
  | setPrivateData handle payload => exact ⟨_, .setPrivateData handle payload s, hnotices⟩
  | installClass spec => exact ⟨_, .installClass spec s, hnotices⟩

/-- An update has come so far, as events tell. -/
def UpdatedTo (state s : σ) (events : List Event) : Prop :=
  ∃ notices waived, Updated state notices waived s ∧ Relays events (notices.map .notice)

/-- A visit of wrappers is part of an update. -/
theorem UpdatedTo.visits {r : Registry} {inCleanup : Bool} {state : σ} (ids : List WrapperId)
    {v : Reconcile.Visited σ} (h : UpdatedTo state v.state v.events) :
    UpdatedTo state (ids.foldl (Reconcile.visit r inCleanup) v).state
      (ids.foldl (Reconcile.visit r inCleanup) v).events := by
  induction ids generalizing v with
  | nil => exact h
  | cons id ids ih =>
    refine ih ?_
    obtain ⟨notices, waived, hupdated, hrelays⟩ := h
    have hasked (c : Call) (more : List Notice) : Relays
        (v.events ++ .call c :: more.map Notice.event) ((notices ++ more).map .notice) := by
      rw [List.map_append]
      exact hrelays.append (.call c (.notices more))
    unfold Reconcile.visit
    split
    · exact ⟨notices, waived, hupdated, hrelays⟩
    · split
      · split
        · exact ⟨_, _, hupdated.tearDown _, hasked _ _⟩
        · exact ⟨notices, waived, hupdated, hrelays⟩
      · exact ⟨_, _, hupdated.queryDead _, hasked _ _⟩

/-- So are the removals. -/
theorem UpdatedTo.dismissals {state : σ} (doomed : List Reconcile.Doomed) {s : Reconcile.Sweep σ}
    (h : UpdatedTo state s.state s.events) :
    UpdatedTo state (doomed.foldl Reconcile.dismiss s).state
      (doomed.foldl Reconcile.dismiss s).events := by
  induction doomed generalizing s with
  | nil => exact h
  | cons d doomed ih =>
    refine ih ?_
    obtain ⟨notices, waived, hupdated, hrelays⟩ := h
    refine ⟨_, _, hupdated.forget d.2, ?_⟩
    rw [List.map_append]
    exact hrelays.append (.call _ (.notices _))

/-- What a pass does to a backend is an update. -/
theorem updatedTo_pass (r : Registry) (inCleanup : Bool) (state : σ) :
    UpdatedTo state (Reconcile.pass r inCleanup state).state
      (Reconcile.pass r inCleanup state).events := by
  have hstart : UpdatedTo state state [] := ⟨[], [], .rest state, fun _ ↦ rfl⟩
  exact (hstart.visits _).dismissals _

/-- A report that an engine follows is carried through. -/
theorem carried_run (inCleanup : Bool) (report : Report σ α) (r : Registry)
    (trace : List Event) : ∃ notices waived events,
      Carried report notices waived (Reconcile.run inCleanup report r trace).result
        (Reconcile.run inCleanup report r trace).state ∧
      (Reconcile.run inCleanup report r trace).events = trace ++ events ∧
      Relays events (notices.map .notice) := by
  induction report generalizing r trace with
  | done o => exact ⟨_, _, _, .done o, rfl, .notices o.events⟩
  | events es next ih =>
    obtain ⟨notices, waived, events, hcarried, htrace, hrelays⟩ :=
      ih r (trace ++ es.map Notice.event)
    refine ⟨es ++ notices, waived, es.map Notice.event ++ events, .events es hcarried, ?_, ?_⟩
    · rw [Reconcile.run, htrace, List.append_assoc]
    · rw [List.map_append]
      exact Relays.append (.notices es) hrelays
  | phase p next ih =>
    obtain ⟨notices, waived, events, hcarried, htrace, hrelays⟩ :=
      ih r (trace ++ [Reconcile.phaseEvent r p])
    refine ⟨notices, waived, Reconcile.phaseEvent r p :: events, .phase p hcarried, ?_, ?_⟩
    · rw [Reconcile.run, htrace, List.append_assoc]
      rfl
    · cases p <;> exact hrelays
  | update state resume ih =>
    let s := Reconcile.pass r inCleanup state
    obtain ⟨before, given, hupdated, hbefore⟩ := updatedTo_pass r inCleanup state
    obtain ⟨notices, waived, events, hcarried, htrace, hrelays⟩ :=
      ih s.state s.registry (trace ++ s.events)
    refine ⟨before ++ notices, given ++ waived, s.events ++ events, .update hupdated hcarried,
      ?_, ?_⟩
    · calc (Reconcile.run inCleanup (.update state resume) r trace).events
          = trace ++ s.events ++ events := htrace
        _ = trace ++ (s.events ++ events) := List.append_assoc _ _ _
    · rw [List.map_append]
      exact hbefore.append hrelays

/-! ## Engines -/

/-- The backend of an engine, or that which it had before it was shut down. -/
def Keeps (e : Engine σ) (s : σ) : Prop :=
  e.backend = some s ∨ e.backend = none ∧ ∃ before : σ, s = (shutdown before).state

theorem Keeps.eq_of_some (h : e.Keeps s) (hs' : e.backend = some s') : s = s' := by
  rcases h with hs | ⟨hnone, -⟩
  · exact Option.some.inj (hs.symm.trans hs')
  · rw [hs'] at hnone
    cases hnone

/-- What became of an engine comes of requests to its backend, and of nothing else. -/
def Drives (e e' : Engine σ) : Prop := ∀ s, e.Keeps s → ∃ events exchanges s',
  e'.trace = e.trace ++ events ∧ Dealings s exchanges s' ∧ e'.Keeps s' ∧ Relays events exchanges

instance : IsPreorder (Engine σ) Drives where
  refl e s hs := ⟨[], [], s, by simp, .refl s, hs, fun _ ↦ rfl⟩
  trans e e' e'' first second s hs := by
    obtain ⟨events, exchanges, s', htrace, hdealings, hs', hrelays⟩ := first s hs
    obtain ⟨more, later, s'', htrace', hdealings', hs'', hrelays'⟩ := second s' hs'
    exact ⟨events ++ more, exchanges ++ later, s'', by rw [htrace', htrace, List.append_assoc],
      hdealings.trans hdealings', hs'', hrelays.append hrelays'⟩

/-- The backend was left alone. -/
theorem Drives.of_apart {events : List Event} (hbackend : e'.backend = e.backend)
    (htrace : e'.trace = e.trace ++ events)
    (hevents : ∀ event ∈ events, ∀ payload, event.finalizes payload = false) : Drives e e' := by
  intro s hs
  refine ⟨events, [], s, htrace, .refl s, ?_, .of_forall hevents⟩
  unfold Keeps
  rwa [hbackend]

theorem Apart.drives (h : Apart e e') : Drives e e' := by
  obtain ⟨remarks, htrace, hremarks⟩ := h.trace
  refine .of_apart h.backend htrace fun event hevent _ ↦ ?_
  have hremark := hremarks event hevent
  cases event <;> first | rfl | cases hremark

/-- An engine that has its backend makes a request to it. -/
theorem Drives.of_dealing {events : List Event} {exchanges : List Exchange}
    (hs : e.backend = some s) (hs' : e'.backend = some s') (htrace : e'.trace = e.trace ++ events)
    (hdealing : Dealing s exchanges s') (hrelays : Relays events exchanges) : Drives e e' := by
  intro before hbefore
  obtain rfl := hbefore.eq_of_some hs
  exact ⟨events, exchanges, s', htrace, .single hdealing, .inl hs', hrelays⟩

/-- An engine works by requests to its backend. -/
theorem Works.drives (h : Works e e') : Drives e e' := by
  induction h with
  | apart h => exact h.drives
  | @heard _ e s call o hs hcall =>
    obtain ⟨exchanges, hdealing, hrelays⟩ := hcall.dealing
    exact .of_dealing hs rfl rfl hdealing (.call call hrelays)
  | @evaluated e s hs source file =>
    obtain ⟨notices, waived, events, hcarried, htrace, hrelays⟩ :=
      carried_run e.inCleanup (evaluate source file s) e.registry
        (e.trace ++ [.call (.evaluate source file)])
    rw [List.append_assoc] at htrace
    exact .of_dealing hs rfl htrace (.evaluate source file hcarried)
      ((hrelays.ofResult _).waived waived)
  | @collected e s hs =>
    obtain ⟨notices, waived, events, hcarried, htrace, hrelays⟩ :=
      carried_run e.inCleanup (collect s) e.registry (e.trace ++ [.call .collect])
    rw [List.append_assoc] at htrace
    exact .of_dealing hs rfl htrace (.collect hcarried) (hrelays.waived waived)
  | trans _ _ first second => exact IsTrans.trans _ _ _ first second

/-- The last request is that to shut down. -/
theorem drives_shutdownBackend (e : Engine σ) : Drives e (shutdownBackend e).2 := by
  rintro s (hs | ⟨hnone, hover⟩)
  · rw [shutdownBackend_some hs]
    exact ⟨_, _, (shutdown s).state, rfl, .single (.shutdown s), .inr ⟨rfl, s, rfl⟩,
      .call .shutdown (.notices _)⟩
  · have hsame : (shutdownBackend e).2 = { e with backend := none } := by
      unfold shutdownBackend
      rw [act_bind, ask?_none hnone, act_modify]
    rw [hsame]
    exact ⟨[], [], s, by simp, .refl s, .inr ⟨rfl, hover⟩, fun _ ↦ rfl⟩

theorem drives_cleanup (e : Engine σ) : Drives e (cleanup e).2 := by
  cases hvalid : e.isValid with
  | true =>
    have hbegun : Drives e (begun e) := .of_apart rfl rfl fun event hevent _ ↦ by
      obtain ⟨name, -, rfl⟩ := List.mem_map.mp hevent
      rfl
    have hended : Drives (shutdownBackend (emptied e)).2 (cleanup e).2 := by
      rw [cleanup_eq hvalid]
      refine .of_apart rfl rfl fun event hevent _ ↦ ?_
      obtain ⟨name, -, rfl⟩ := List.mem_map.mp hevent
      rfl
    calc Drives e (begun e) := hbegun
      Drives _ (emptied e) := (works_emptied e).drives
      Drives _ (shutdownBackend (emptied e)).2 := drives_shutdownBackend _
      Drives _ (cleanup e).2 := hended
  | false =>
    rw [cleanup_of_invalid hvalid]
    exact Std.Refl.refl e

/-- A single operation comes down to requests to the backend. -/
theorem drives_performSimple (op : Operation) : Along Drives (performSimple (σ := σ) op) := by
  intro e
  by_cases hop : op = .cleanup
  · subst hop
    rw [performSimple, run_return, run_surely]
    exact drives_cleanup e
  · exact (works_performSimple hop e).drives

/-- However starts nest, an operation comes down to requests to the backend. -/
theorem drives_perform {repertoire : Repertoire} {depth : Nat} {op : Operation}
    {reply : Except Failure Reply} (hrun : perform repertoire depth op e = some (reply, e')) :
    Drives e e' := by
  have hnoted : ∀ (event : Event) (e : Engine σ), event.isRemark = true →
      Drives e (e.noted event) :=
    fun _ e hremark ↦ (Apart.noted hremark e).drives
  have htaken : ∀ e : Engine σ, Drives e e.taken :=
    fun e ↦ Apart.drives (.of_trace rfl rfl)
  exact leads_perform drives_performSimple htaken hnoted repertoire depth op hrun

/-- An engine attaches a payload by a request that succeeds, with the handle of the native
object. -/
theorem of_setPrivateData {native : NativeId} {payload : Payload}
    (h : (Engine.setPrivateData native payload e).1 = .ok ()) : ∃ handle s,
      e.objectHandle? native = some handle ∧ e.backend = some s ∧
      (Backend.setPrivateData handle payload s).result = .ok () ∧
      (Engine.setPrivateData native payload e).2.backend =
        some (Backend.setPrivateData handle payload s).state := by
  rw [setPrivateData_eq] at h ⊢
  cases hcurrent : e.current? native with
  | none =>
    rw [hcurrent] at h
    cases h
  | some found =>
    obtain ⟨id, w⟩ := found
    rw [hcurrent] at h
    have hhandle : e.objectHandle? native = some w.handle := by
      obtain ⟨hid, hw⟩ := current?_eq_some_iff.mp hcurrent
      rw [objectHandle?, hid, Option.bind_some, hw, Option.map_some]
    cases hbackend : e.backend with
    | none =>
      simp only [ask_none hbackend] at h
      cases h
    | some s =>
      simp only [ask_some hbackend] at h ⊢
      cases hresult : (Backend.setPrivateData w.handle payload s).result with
      | error failure =>
        rw [hresult] at h
        cases h
      | ok => exact ⟨w.handle, s, hhandle, rfl, hresult, rfl⟩

end Engine

end ScriptBridge
