import ScriptBridge.Proofs.Engine.Reachable

/-!
# What a refused operation leaves behind

An operation on wrappers asks the backend at most twice, and the backend may refuse for any reason,
for instance because a script object is gone before the weak pass has noticed. Where the backend is
asked first, a refusal leaves the registry as it was. The two operations that count roots count
first, so their refusals leave a count behind that the script heap knows nothing of.
-/

namespace ScriptBridge

/-- The operation concerns the wrappers of native objects. -/
def Operation.concernsWrappers : Operation → Bool
  | .wrapNative _ _ _ | .createObject _ | .rootObject _ | .unrootObject _ | .setPrivateData _ _
  | .retain _ _ | .unretain _ _ => true
  | _ => false

namespace Engine

variable {σ : Type}

/-- The wrapper whose roots an operation counts before it asks the backend. -/
def counted? (e : Engine σ) : Operation → Option (WrapperId × Wrapper)
  | .rootObject native | .unrootObject native => e.current? native
  | _ => none

variable [Backend σ] {e : Engine σ} {failure : Failure} {native owner target : NativeId}

/-! ## Operations that ask first -/

theorem registry_wrapNative_of_error {handle : Handle} {rooted : Bool}
    (hfail : (wrapNative native handle rooted e).1 = .error failure) :
    (wrapNative native handle rooted e).2.registry = e.registry := by
  rw [wrapNative_eq] at hfail ⊢
  cases hsame : e.wrappedAs? native handle with
  | some id => rfl
  | none =>
    have hsettle := registry_settleRoot handle rooted e
    rw [hsame] at hfail
    rcases hrun : settleRoot handle rooted e with ⟨_ | _, e'⟩
    · rw [hrun] at hsettle
      exact hsettle
    · rw [hrun] at hfail
      cases hfail

theorem registry_createObject_of_error
    (hfail : (createObject native e).1 = .error failure) :
    (createObject native e).2.registry = e.registry := by
  have hask := registry_ask .createObject Backend.createObject e
  rw [createObject_eq] at hfail ⊢
  rcases hrun : ask .createObject Backend.createObject e with ⟨_ | handle, e'⟩
  · rw [hrun] at hask
    exact hask
  · rw [hrun] at hask hfail
    exact (registry_wrapNative_of_error hfail).trans hask

theorem registry_setPrivateData_of_error {payload : Payload}
    (hfail : (setPrivateData native payload e).1 = .error failure) :
    (setPrivateData native payload e).2.registry = e.registry := by
  rw [setPrivateData_eq] at hfail ⊢
  rcases hcur : e.current? native with _ | ⟨id, w⟩
  · rfl
  · have hask := registry_ask (.setPrivateData w.handle payload.finalizer.isSome)
      (Backend.setPrivateData w.handle payload) e
    rw [hcur] at hfail
    dsimp only at hfail ⊢
    rcases hrun : ask (.setPrivateData w.handle payload.finalizer.isSome)
      (Backend.setPrivateData w.handle payload) e with ⟨_ | _, e'⟩
    · rw [hrun] at hask
      exact hask
    · rw [hrun] at hfail
      cases hfail

theorem registry_retain_of_error (hfail : (retain owner target e).1 = .error failure) :
    (retain owner target e).2.registry = e.registry := by
  rw [retain_eq] at hfail ⊢
  rcases hends : e.endpoints? owner target with _ | ends
  · rfl
  · have hask := registry_ask (.attachChild ends.ownerHandle ends.targetHandle)
      (Backend.attachChild ends.ownerHandle ends.targetHandle) (clearException e).2
    rw [(quietly_clearException e).registry] at hask
    rw [hends] at hfail
    dsimp only at hfail ⊢
    rcases hrun : ask (.attachChild ends.ownerHandle ends.targetHandle)
      (Backend.attachChild ends.ownerHandle ends.targetHandle) (clearException e).2
      with ⟨failure' | _, e'⟩
    · rw [hrun] at hask
      dsimp only
      split
      · exact hask
      · exact hask
    · rw [hrun] at hfail
      cases hfail

theorem registry_unretain_of_error (hfail : (unretain owner target e).1 = .error failure) :
    (unretain owner target e).2.registry = e.registry := by
  rw [unretain_eq] at hfail ⊢
  rcases hends : e.endpoints? owner target with _ | ends
  · rfl
  · have hask := registry_ask (.detachChild ends.ownerHandle ends.targetHandle)
      (Backend.detachChild ends.ownerHandle ends.targetHandle) (clearException e).2
    rw [(quietly_clearException e).registry] at hask
    rw [hends] at hfail
    dsimp only at hfail ⊢
    rcases hrun : ask (.detachChild ends.ownerHandle ends.targetHandle)
      (Backend.detachChild ends.ownerHandle ends.targetHandle) (clearException e).2
      with ⟨failure' | _, e'⟩
    · rw [hrun] at hask hfail
      dsimp only at hfail ⊢
      split at hfail
      · cases hfail
      · next hgone =>
        rw [if_neg hgone]
        exact hask
    · rw [hrun] at hfail
      cases hfail

/-! ## Operations that count first -/

/-- Rooting is refused only if the wrapper had no root, and leaves it with one. -/
theorem rootObject_of_error {id : WrapperId} {w : Wrapper} (hcur : e.current? native = some (id, w))
    (hfail : (rootObject native e).1 = .error failure) :
    w.roots = 0 ∧ (rootObject native e).2.registry = (e.registry.root id).2 := by
  rw [rootObject_eq, hcur] at hfail ⊢
  dsimp only at hfail ⊢
  split at hfail
  · next hzero =>
    rw [if_pos hzero, registry_ask]
    exact ⟨hzero, rfl⟩
  · cases hfail

/-- Unrooting is refused only if the wrapper had one root, and leaves it with none. -/
theorem unrootObject_of_error {id : WrapperId} {w : Wrapper}
    (hcur : e.current? native = some (id, w))
    (hfail : (unrootObject native e).1 = .error failure) :
    w.roots = 1 ∧ (unrootObject native e).2.registry = (e.registry.unroot id).2 := by
  rw [unrootObject_eq, hcur] at hfail ⊢
  dsimp only at hfail ⊢
  split at hfail
  · cases hfail
  · next hzero =>
    split at hfail
    · next hone =>
      rw [if_neg hzero, if_pos hone, registry_ask]
      exact ⟨hone, rfl⟩
    · cases hfail

/-! ## All operations on wrappers -/

/-- A refused operation on wrappers leaves the registry exactly as it was, unless it is a count of
the roots of a wrapper. Every engine and every backend are meant, reachable or not. -/
theorem registry_of_refused {op : Operation} (hop : op.concernsWrappers = true)
    (hfail : (performSimple op e).1 = .error failure) :
    (performSimple op e).2.registry = e.registry ↔ e.counted? op = none := by
  cases op with
  | wrapNative native handle rooted =>
    rw [performSimple, run_map] at hfail ⊢
    exact iff_of_true (registry_wrapNative_of_error (map_eq_error_iff.mp hfail)) rfl
  | createObject native =>
    rw [performSimple, run_map] at hfail ⊢
    exact iff_of_true (registry_createObject_of_error (map_eq_error_iff.mp hfail)) rfl
  | setPrivateData native payload =>
    rw [performSimple, run_return] at hfail ⊢
    exact iff_of_true (registry_setPrivateData_of_error (map_eq_error_iff.mp hfail)) rfl
  | retain owner target =>
    rw [performSimple, run_return] at hfail ⊢
    exact iff_of_true (registry_retain_of_error (map_eq_error_iff.mp hfail)) rfl
  | unretain owner target =>
    rw [performSimple, run_return] at hfail ⊢
    exact iff_of_true (registry_unretain_of_error (map_eq_error_iff.mp hfail)) rfl
  | rootObject native =>
    rw [performSimple, run_return, map_eq_error_iff] at hfail
    rw [performSimple, run_return, counted?]
    rcases hcur : e.current? native with _ | ⟨id, w⟩
    · rw [rootObject_eq, hcur]
      exact iff_of_true rfl rfl
    · obtain ⟨hzero, hregistry⟩ := rootObject_of_error hcur hfail
      rw [hregistry]
      exact iff_of_false (Registry.root_ne (current?_eq_some_iff.mp hcur).2 hzero) (by simp)
  | unrootObject native =>
    rw [performSimple, run_return, map_eq_error_iff] at hfail
    rw [performSimple, run_return, counted?]
    rcases hcur : e.current? native with _ | ⟨id, w⟩
    · rw [unrootObject_eq, hcur]
      exact iff_of_true rfl rfl
    · obtain ⟨hone, hregistry⟩ := unrootObject_of_error hcur hfail
      rw [hregistry]
      apply iff_of_false _ (by simp)
      exact Registry.unroot_ne (current?_eq_some_iff.mp hcur).2 (by omega)
  | _ => cases hop

/-- An engine with two wrappers, of which one keeps the other. -/
def keeping : Engine Rehearsal :=
  performAll [.createObject ⟨1⟩, .createObject ⟨2⟩, .retain ⟨1⟩ ⟨2⟩] rehearsed

/-- A native object is not wrapped anew by an unknown handle. It keeps its wrapper, and the wrapper
its child. -/
theorem registry_of_refused_wrap :
    (performSimple (.wrapNative ⟨1⟩ ⟨7⟩ false) keeping).1 = .error (.unknownHandle ⟨7⟩) ∧
      (performSimple (.wrapNative ⟨1⟩ ⟨7⟩ false) keeping).2.registry = keeping.registry ∧
      keeping.objectHandle? ⟨1⟩ = some ⟨1⟩ ∧
      keeping.registry.hasEdge ⟨0⟩ ⟨1⟩ = true :=
  have hfail : (performSimple (.wrapNative ⟨1⟩ ⟨7⟩ false) keeping).1 =
      .error (.unknownHandle ⟨7⟩) := rfl
  ⟨hfail, (registry_of_refused rfl hfail).mpr rfl, rfl, rfl⟩

/-- An engine with one wrapper, which is not rooted and whose script object is gone. -/
def bereft : Engine Rehearsal :=
  let e := performAll [.createObject ⟨1⟩, .unrootObject ⟨1⟩] rehearsed
  { e with backend := e.backend.map fun r ↦ (r.drop ⟨1⟩).2 }

/-- No weak pass has noticed that the script object is gone when the wrapper is to be rooted. The
backend refuses, and yet the wrapper counts as rooted from then on. -/
theorem rootObject_refused_miscounts :
    Reachable bereft ∧ bereft.isRooted ⟨1⟩ = false ∧
      (performSimple (.rootObject ⟨1⟩) bereft).1 = .error (.unknownHandle ⟨1⟩) ∧
      (performSimple (.rootObject ⟨1⟩) bereft).2.isRooted ⟨1⟩ = true ∧
      (performSimple (.rootObject ⟨1⟩) bereft).2.registry ≠ bereft.registry := by
  refine ⟨?_, rfl, rfl, rfl, fun heq ↦ ?_⟩
  · exact (reachable_rehearsed.performAll _).moved (.drive rfl _)
  · have hroots := congrArg (·.roots? ⟨0⟩) heq
    revert hroots
    decide

end Engine

end ScriptBridge
