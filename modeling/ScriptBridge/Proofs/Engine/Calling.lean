import ScriptBridge.Proofs.Engine.Quiet

/-!
# The calls of operations on wrappers

Each operation on wrappers makes calls of a few kinds only, whether or not it succeeds. Whatever
holds of these kinds holds of all calls that it makes.
-/

namespace ScriptBridge.Engine

variable {σ : Type} [Backend σ] {e : Engine σ} {P : Call → Prop}

theorem makes_clearException (hpending : P .takePending) (e : Engine σ) :
    Makes P e (clearException e).2 := by
  have hasked : Makes P e (ask? .takePending Backend.takePending e).2 := .ask? hpending _ e
  simp only [clearException, act_bind]
  rcases (ask? .takePending Backend.takePending e).1 with _ | _ | exception
  · exact hasked
  · exact hasked
  · exact hasked.trans ⟨[_], rfl, by simp [callsOf, Event.call?]⟩

theorem makes_setPrivateData (hset : ∀ handle finalized, P (.setPrivateData handle finalized))
    (native : NativeId) (payload : Payload) (e : Engine σ) :
    Makes P e (setPrivateData native payload e).2 := by
  rw [setPrivateData_eq]
  rcases e.current? native with _ | ⟨id, w⟩
  · exact .refl e
  · have hasked : Makes P e (ask (.setPrivateData w.handle payload.finalizer.isSome)
        (Backend.setPrivateData w.handle payload) e).2 := .ask? (hset _ _) _ e
    dsimp only
    split <;> exact hasked

theorem makes_rootObject (hroot : ∀ handle, P (.root handle)) (native : NativeId) (e : Engine σ) :
    Makes P e (rootObject native e).2 := by
  rw [rootObject_eq]
  rcases e.current? native with _ | ⟨id, w⟩
  · exact .refl e
  · dsimp only
    split
    · exact Makes.ask? (hroot _) _ { e with registry := (e.registry.root id).2 }
    · exact .of_trace rfl

theorem makes_unrootObject (hunroot : ∀ handle, P (.unroot handle)) (native : NativeId)
    (e : Engine σ) : Makes P e (unrootObject native e).2 := by
  rw [unrootObject_eq]
  rcases e.current? native with _ | ⟨id, w⟩
  · exact .refl e
  · dsimp only
    split
    · exact .refl e
    · split
      · exact Makes.ask? (hunroot _) _ { e with registry := (e.registry.unroot id).2 }
      · exact .of_trace rfl

theorem makes_retain (hpending : P .takePending)
    (hattach : ∀ owner child, P (.attachChild owner child)) (owner target : NativeId)
    (e : Engine σ) : Makes P e (retain owner target e).2 := by
  rw [retain_eq]
  rcases e.endpoints? owner target with _ | ends
  · exact .refl e
  · have hasked : Makes P (clearException e).2
        (ask (.attachChild ends.ownerHandle ends.targetHandle)
          (Backend.attachChild ends.ownerHandle ends.targetHandle) (clearException e).2).2 :=
      .ask? (hattach _ _) _ _
    have hboth := (makes_clearException hpending e).trans hasked
    dsimp only
    split
    · exact hboth
    · split <;> exact hboth

theorem makes_unretain (hpending : P .takePending)
    (hdetach : ∀ owner child, P (.detachChild owner child)) (owner target : NativeId)
    (e : Engine σ) : Makes P e (unretain owner target e).2 := by
  rw [unretain_eq]
  rcases e.endpoints? owner target with _ | ends
  · exact .refl e
  · have hasked : Makes P (clearException e).2
        (ask (.detachChild ends.ownerHandle ends.targetHandle)
          (Backend.detachChild ends.ownerHandle ends.targetHandle) (clearException e).2).2 :=
      .ask? (hdetach _ _) _ _
    have hboth := (makes_clearException hpending e).trans hasked
    dsimp only
    split
    · exact hboth
    · split <;> exact hboth

theorem makes_releaseValue (hrelease : ∀ handle, P (.release handle)) (value : Value)
    (e : Engine σ) : Makes P e (releaseValue value e).2 := by
  rw [releaseValue_eq]
  rcases value.asObject? with _ | handle
  · exact .refl e
  · dsimp only
    split
    · exact .refl e
    · exact .ask? (hrelease handle) _ e

/-! ## Wrapping -/

variable {native : NativeId} {handle : Handle}

/-- The registry without the wrapper that a native object has. -/
def withoutPrevious (e : Engine σ) (native : NativeId) : Registry :=
  match e.current? native with
  | none => e.registry
  | some (id, _) => (e.registry.remove id).2

omit [Backend σ] in
theorem handle_ne_of_wrappedAs? (h : e.wrappedAs? native handle = none) {id : WrapperId}
    {w : Wrapper} (hcur : e.current? native = some (id, w)) : w.handle ≠ handle := by
  rintro rfl
  obtain ⟨hfind, hw⟩ := current?_eq_some_iff.mp hcur
  simp [Engine.wrappedAs?, hfind, hw] at h

/-- The call by which wrapping takes a root away. -/
def Unroots (handle : Handle) (rooted : Bool) (call : Call) : Prop :=
  rooted = false ∧ call = .unroot handle

/-- The calls by which wrapping takes a root away and dismisses the previous wrapper. -/
def Rewraps (e : Engine σ) (native : NativeId) (handle : Handle) (rooted : Bool) (call : Call) :
    Prop :=
  Unroots handle rooted call ∨
    ∃ id w, e.current? native = some (id, w) ∧ call = .release w.handle

theorem makes_settleRoot (handle : Handle) (rooted : Bool) (e : Engine σ) :
    Makes (Unroots handle rooted) e (settleRoot handle rooted e).2 := by
  cases rooted with
  | true => rw [settleRoot_true]; exact .refl e
  | false => exact Makes.ask? (P := Unroots handle false) ⟨rfl, rfl⟩ _ e

theorem dismissPrevious_spec (native : NativeId) (handle : Handle) (rooted : Bool)
    (e : Engine σ) :
    (dismissPrevious native e).2.registry = e.withoutPrevious native ∧
      Makes (Rewraps e native handle rooted) e (dismissPrevious native e).2 := by
  rw [dismissPrevious_eq, withoutPrevious]
  rcases hcur : e.current? native with _ | ⟨id, w⟩
  · exact ⟨rfl, .refl e⟩
  · refine ⟨registry_ask? _ _ _, ?_⟩
    have hremoved : Makes (Rewraps e native handle rooted) e
        { e with registry := (e.registry.remove id).2 } := .of_trace rfl
    exact hremoved.trans (.ask? (.inr ⟨id, w, hcur, rfl⟩) _ _)

/-- Wrapping changes nothing, or it replaces the wrapper of the native object. -/
theorem wrapNative_cases (native : NativeId) (handle : Handle) (rooted : Bool) (e : Engine σ) :
    ((wrapNative native handle rooted e).2.registry = e.registry ∧
      Makes (Unroots handle rooted) e (wrapNative native handle rooted e).2) ∨
    (e.wrappedAs? native handle = none ∧
      (wrapNative native handle rooted e).2.registry =
        ((e.withoutPrevious native).insert native handle rooted).2 ∧
      Makes (Rewraps e native handle rooted) e (wrapNative native handle rooted e).2) := by
  have hregistry := registry_settleRoot handle rooted e
  have hcalls := makes_settleRoot handle rooted e
  rw [wrapNative_eq]
  rcases e.wrappedAs? native handle with _ | id
  · dsimp only
    split
    · exact .inl ⟨hregistry, hcalls⟩
    · obtain ⟨hdismissed, hmakes⟩ :=
        dismissPrevious_spec native handle rooted (settleRoot handle rooted e).2
      have hcurrent := current?_congr hregistry native
      rw [withoutPrevious, hcurrent, hregistry] at hdismissed
      refine .inr ⟨rfl, by rw [hdismissed, withoutPrevious], ?_⟩
      apply (hcalls.mono fun call h ↦ .inl h).trans
      obtain ⟨events, htrace, hevents⟩ := hmakes
      refine ⟨events, htrace, fun call hmem ↦ ?_⟩
      have hrewraps := hevents call hmem
      rwa [Rewraps, hcurrent] at hrewraps
  · exact .inl ⟨rfl, .refl e⟩

end ScriptBridge.Engine
