import ScriptBridge.Proofs.Engine.Executing

/-!
# Changing an edge

An edge between two native objects is asked of the backend first and then noted in the registry.
Unless both ends have wrappers there is nothing to ask. A script object that is gone counts as
agreement, but its edge can only be forgotten: nothing new is noted about it.
-/

namespace ScriptBridge

namespace Registry

variable {r : Registry} {owner child a b : WrapperId} {w v : Wrapper}

theorem SameRecord.refl (w : Wrapper) : SameRecord w w := ⟨rfl, rfl, rfl, rfl⟩

/-- Two registries that differ in edges at most. -/
structure Relinked (r r' : Registry) : Prop where
  byNative : r'.byNative = r.byNative
  byHandle : r'.byHandle = r.byHandle
  next : r'.next = r.next
  record : ∀ id, Option.Rel SameRecord (r.get? id) (r'.get? id)

theorem Relinked.refl (r : Registry) : Relinked r r where
  byNative := rfl
  byHandle := rfl
  next := rfl
  record id := by
    cases r.get? id with
    | none => exact .none
    | some w => exact .some (.refl w)

theorem relinked_attach (r : Registry) (owner child : WrapperId) :
    Relinked r (r.attach owner child).2 := by
  by_cases hnew : (r.attach owner child).1 = true
  · have hsnd := attach_snd r owner child
    rw [if_pos hnew] at hsnd
    refine ⟨by rw [hsnd]; rfl, by rw [hsnd]; rfl, by rw [hsnd]; rfl, fun id ↦ ?_⟩
    rw [get?_attach, if_pos hnew]
    cases r.get? id with
    | none => exact .none
    | some w => exact .some (sameRecord_linked owner child id w)
  · rw [attach_snd, if_neg hnew]
    exact .refl r

theorem relinked_detach (r : Registry) (owner child : WrapperId) :
    Relinked r (r.detach owner child).2 := by
  by_cases hold : (r.detach owner child).1 = true
  · have hsnd := detach_snd r owner child
    rw [if_pos hold] at hsnd
    refine ⟨by rw [hsnd]; rfl, by rw [hsnd]; rfl, by rw [hsnd]; rfl, fun id ↦ ?_⟩
    rw [get?_detach, if_pos hold]
    cases r.get? id with
    | none => exact .none
    | some w => exact .some (sameRecord_unlinked owner child id w)
  · rw [detach_snd, if_neg hold]
    exact .refl r

/-- Between two wrappers, attaching leaves the edge asked for, whether or not it was there. -/
theorem hasEdge_attach_of_known (howner : r.get? owner = some w) (hchild : r.get? child = some v) :
    (r.attach owner child).2.hasEdge a b = true ↔
      r.hasEdge a b = true ∨ (a = owner ∧ b = child) := by
  rw [hasEdge_attach, attach_fst_iff]
  constructor
  · rintro (hold | ⟨-, hends⟩)
    · exact .inl hold
    · exact .inr hends
  · rintro (hold | ⟨rfl, rfl⟩)
    · exact .inl hold
    · cases hedge : r.hasEdge a b with
      | true => exact .inl rfl
      | false => exact .inr ⟨⟨⟨w, howner⟩, ⟨v, hchild⟩, rfl⟩, rfl, rfl⟩

end Registry

namespace Engine

open Backend

variable {σ : Type} [Backend σ] {e : Engine σ} {s : σ} {owner target : NativeId}
  {o t : WrapperId} {ow tw : Wrapper}

/-- The answer to a change of an edge as it is passed on. -/
def tolerated : Except Failure Unit → Except Failure Unit
  | .error (.unknownHandle _) => .ok ()
  | result => result

/-- The backend does not keep an edge: it was told to forget it, or has lost one end. -/
def Forgets (result : Except Failure Unit) : Prop :=
  result = .ok () ∨ ∃ handle, result = .error (.unknownHandle handle)

theorem tolerated_error (failure : Failure) : tolerated (.error failure) =
    if failure.isGone then .ok () else .error failure := by
  cases failure <;> rfl

instance (result : Except Failure Unit) : Decidable (Forgets result) :=
  match result with
  | .ok _ => .isTrue (.inl rfl)
  | .error failure => decidable_of_iff (failure.isGone = true) (by
      cases failure <;> simp [Forgets, Failure.isGone])

theorem forgets_error (failure : Failure) : Forgets (.error failure) ↔ failure.isGone = true := by
  cases failure <;> simp [Forgets, Failure.isGone]

/-- What a run that asks the backend `s` to change an edge comes to: the pending exception is taken,
one call is made, and its outcome is passed on. The edges are the given ones afterwards, on both of
their ends, and all else that is known about wrappers is as before. -/
structure Asks (e : Engine σ) (s : σ) (call : Call) (o : Outcome σ (Except Failure Unit))
    (edges : WrapperId → WrapperId → Prop) (ran : Except Failure Unit × Engine σ) : Prop where
  calls : callsSince e ran.2 = [.takePending, call]
  after : ran.2 = { e with
    backend := some o.state
    registry := ran.2.registry
    trace := e.trace ++ clearing s ++ .call call :: o.events.map Notice.event }
  result : ran.1 = tolerated o.result
  edges : ∀ a b, ran.2.registry.hasEdge a b = true ↔ edges a b
  ends : ∀ a b, ran.2.registry.KnowsParent b a ↔ ran.2.registry.hasEdge a b = true
  relinked : e.registry.Relinked ran.2.registry

/-- The engine after the pending exception was taken and a call was made. -/
def asked (e : Engine σ) (s : σ) (call : Call) (o : Outcome σ (Except Failure Unit)) : Engine σ :=
  { e with
    backend := some o.state
    trace := e.trace ++ clearing s ++ .call call :: o.events.map Notice.event }

theorem ask_clearException (hs : e.backend = some s) (call : Call)
    (f : σ → Outcome σ (Except Failure Unit)) : ask call f (clearException e).2 =
      ((f (takePending s).state).result, e.asked s call (f (takePending s).state)) := by
  rw [clearException_eq hs]
  exact ask_some rfl call f

theorem callsSince_asked (e : Engine σ) (s : σ) (call : Call)
    (o : Outcome σ (Except Failure Unit)) (r : Registry) :
    callsSince e { e.asked s call o with registry := r } = [.takePending, call] := by
  have htrace : ({ e.asked s call o with registry := r } : Engine σ).trace =
      e.trace ++ (clearing s ++ .call call :: o.events.map Notice.event) :=
    List.append_assoc _ _ _
  rw [callsSince_eq htrace, callsOf_append, callsOf_clearing, callsOf_call, callsOf_notices]
  rfl

/-- It is left to say what becomes of the registry. -/
theorem asks_of_registry {call : Call} {outcome : Outcome σ (Except Failure Unit)} {r : Registry}
    {edges : WrapperId → WrapperId → Prop} (hr : r.Coherent)
    (hrelinked : e.registry.Relinked r) (hedges : ∀ a b, r.hasEdge a b = true ↔ edges a b) :
    Asks e s call outcome edges
      (tolerated outcome.result, { e.asked s call outcome with registry := r }) where
  calls := callsSince_asked e s call outcome r
  after := rfl
  result := rfl
  edges := hedges
  ends _ _ := hr.hasEdge_iff_knowsParent.symm
  relinked := hrelinked

section Ends

variable (howner : e.current? owner = some (o, ow)) (htarget : e.current? target = some (t, tw))
  (hs : e.backend = some s) (hr : e.registry.Coherent)

include howner htarget hs hr

theorem asks_retain :
    let attached := attachChild ow.handle tw.handle (takePending s).state
    Asks e s (.attachChild ow.handle tw.handle) attached
      (fun a b ↦ e.registry.hasEdge a b = true ∨ (attached.result = .ok () ∧ a = o ∧ b = t))
      (retain owner target e) := by
  intro attached
  let after := e.asked s (.attachChild ow.handle tw.handle) attached
  have hends : e.endpoints? owner target = some ⟨o, ow.handle, t, tw.handle⟩ := by
    rw [endpoints?_eq, howner, htarget]
  have hrun : retain owner target e = (tolerated attached.result,
      if attached.result = .ok () then { after with registry := (e.registry.attach o t).2 }
      else after) := by
    rw [retain_eq, hends]
    simp only [ask_clearException hs]
    cases attached.result with
    | ok u =>
      rw [if_pos rfl]
      rfl
    | error failure =>
      simp only [tolerated_error, reduceCtorEq, if_false]
      split <;> rfl
  rw [hrun]
  split
  · next hnoted =>
    apply asks_of_registry (hr.attach o t) (Registry.relinked_attach _ o t)
    intro a b
    simpa [hnoted] using Registry.hasEdge_attach_of_known (current?_eq_some_iff.mp howner).2
      (current?_eq_some_iff.mp htarget).2
  · next hrefused =>
    apply asks_of_registry (r := e.registry) hr (.refl _)
    simp [hrefused]

theorem asks_unretain :
    let detached := detachChild ow.handle tw.handle (takePending s).state
    Asks e s (.detachChild ow.handle tw.handle) detached
      (fun a b ↦ e.registry.hasEdge a b = true ∧ ¬ (Forgets detached.result ∧ a = o ∧ b = t))
      (unretain owner target e) := by
  intro detached
  let after := e.asked s (.detachChild ow.handle tw.handle) detached
  have hends : e.endpoints? owner target = some ⟨o, ow.handle, t, tw.handle⟩ := by
    rw [endpoints?_eq, howner, htarget]
  have hrun : unretain owner target e = (tolerated detached.result,
      if Forgets detached.result then { after with registry := (e.registry.detach o t).2 }
      else after) := by
    rw [unretain_eq, hends]
    simp only [ask_clearException hs]
    cases detached.result with
    | ok u =>
      rw [if_pos (.inl rfl)]
      rfl
    | error failure =>
      simp only [tolerated_error, forgets_error]
      split <;> rfl
  rw [hrun]
  split
  · next hforgets =>
    apply asks_of_registry (hr.detach o t) (Registry.relinked_detach _ o t)
    intro a b
    simpa [hforgets] using Registry.hasEdge_detach
  · next hkept =>
    apply asks_of_registry (r := e.registry) hr (.refl _)
    simp [hkept]

end Ends

omit [Backend σ] in
/-- The wrapper that is found under a native object is there. -/
theorem current?_of_find? (hr : e.registry.Coherent) {id : WrapperId}
    (hfind : e.registry.find? owner = some id) :
    ∃ w, e.current? owner = some (id, w) ∧ w.native = owner := by
  obtain ⟨w, hw, hname⟩ := hr.native_of_find? hfind
  exact ⟨w, current?_eq_some_iff.mpr ⟨hfind, hw⟩, hname⟩

omit [Backend σ] in
theorem endpoints?_of_unknown
    (h : e.registry.find? owner = none ∨ e.registry.find? target = none) :
    e.endpoints? owner target = none := by
  have hnone : ∀ {native}, e.registry.find? native = none → e.current? native = none := by
    intro native hfind
    rw [current?, hfind]
    rfl
  rw [endpoints?_eq]
  rcases h with h | h
  · rw [hnone h]
  · rw [hnone h]
    cases e.current? owner <;> rfl

/-- Without two wrappers nothing is asked and nothing changes, a pending exception included.
Otherwise the backend is asked once, after the pending exception was taken. An edge is noted exactly
if the backend agrees, and forgotten exactly if it agrees or says that one end is gone; that an end
is gone is no failure, and any other failure is passed on. Only edges change. -/
theorem edge_changes_ask (h : Reachable e) (owner target : NativeId) :
    (e.registry.find? owner = none ∨ e.registry.find? target = none →
      retain owner target e = (.ok (), e) ∧ unretain owner target e = (.ok (), e)) ∧
    ∀ o t, e.registry.find? owner = some o → e.registry.find? target = some t →
      ∃ s ow tw, e.backend = some s ∧
        e.registry.get? o = some ow ∧ ow.native = owner ∧
        e.registry.get? t = some tw ∧ tw.native = target ∧
        let attached := attachChild ow.handle tw.handle (takePending s).state
        let detached := detachChild ow.handle tw.handle (takePending s).state
        Asks e s (.attachChild ow.handle tw.handle) attached
          (fun a b ↦ e.registry.hasEdge a b = true ∨ (attached.result = .ok () ∧ a = o ∧ b = t))
          (retain owner target e) ∧
        Asks e s (.detachChild ow.handle tw.handle) detached
          (fun a b ↦ e.registry.hasEdge a b = true ∧
            ¬ (Forgets detached.result ∧ a = o ∧ b = t))
          (unretain owner target e) := by
  have hr := h.wellFormed.orderly.coherent
  refine ⟨fun hunknown ↦ ?_, fun o t ho ht ↦ ?_⟩
  · have hends := endpoints?_of_unknown hunknown
    rw [retain_eq, unretain_eq, hends]
    exact ⟨rfl, rfl⟩
  · obtain ⟨ow, howner, hown⟩ := current?_of_find? hr ho
    obtain ⟨tw, htarget, htar⟩ := current?_of_find? hr ht
    cases hs : e.backend with
    | none =>
      have hnone := (h.wellFormed.spent hs).current? owner
      cases howner.symm.trans hnone
    | some s =>
      exact ⟨s, ow, tw, rfl, (current?_eq_some_iff.mp howner).2, hown,
        (current?_eq_some_iff.mp htarget).2, htar, asks_retain howner htarget hs hr,
        asks_unretain howner htarget hs hr⟩

/-- A rehearsal in which one native object keeps another alive and then loses its script object. -/
def severed : Engine Rehearsal :=
  let e := performAll [.createObject ⟨1⟩, .createObject ⟨2⟩, .retain ⟨1⟩ ⟨2⟩] rehearsed
  { e with backend := e.backend.map fun r ↦ (r.drop ⟨1⟩).2 }

/-- Once one end is lost its edge can be forgotten, and no other edge of it is noted, even to
itself. -/
theorem edge_changes_ask_severed :
    Reachable severed ∧ severed.registry.hasEdge ⟨0⟩ ⟨1⟩ = true ∧
      (unretain ⟨1⟩ ⟨2⟩ severed).1 = .ok () ∧
      (unretain ⟨1⟩ ⟨2⟩ severed).2.registry.hasEdge ⟨0⟩ ⟨1⟩ = false ∧
      (retain ⟨1⟩ ⟨1⟩ severed).1 = .ok () ∧
      (retain ⟨1⟩ ⟨1⟩ severed).2.registry.hasEdge ⟨0⟩ ⟨0⟩ = false := by
  have hreachable : Reachable severed := (reachable_rehearsed.performAll _).moved (.drive rfl _)
  obtain ⟨s, ow, tw, hs, how, -, htw, -, -, hforgotten⟩ :=
    (edge_changes_ask hreachable ⟨1⟩ ⟨2⟩).2 ⟨0⟩ ⟨1⟩ rfl rfl
  obtain ⟨s', ow', ow'', hs', how', -, how'', -, hignored, -⟩ :=
    (edge_changes_ask hreachable ⟨1⟩ ⟨1⟩).2 ⟨0⟩ ⟨0⟩ rfl rfl
  cases hs
  cases how
  cases htw
  cases hs'
  cases how'
  cases how''
  refine ⟨hreachable, rfl, hforgotten.result, ?_, hignored.result, ?_⟩
  · rw [Bool.eq_false_iff, ne_eq, hforgotten.edges]
    exact fun hkept ↦ hkept.2 ⟨.inr ⟨_, rfl⟩, rfl, rfl⟩
  · rw [Bool.eq_false_iff, ne_eq, hignored.edges]
    rintro (hold | ⟨hanswer, -⟩)
    · cases hold
    · cases hanswer

end Engine

end ScriptBridge
