import ScriptBridge.Proofs.Engine.Passing

/-!
# What operations leave alone

An operation on wrappers changes the registry and the state of the backend, and nothing around them.
Only a cleanup takes the backend away, and only from a valid engine.
-/

namespace ScriptBridge.Engine

variable {σ α : Type} [Backend σ] {e e' : Engine σ}

theorem frame_settleRoot (handle : Handle) (rooted : Bool) (e : Engine σ) :
    Frame e (settleRoot handle rooted e).2 := by
  cases rooted with
  | true => rw [settleRoot_true]; exact .refl e
  | false => exact frame_ask? _ _ e

theorem frame_dismissPrevious (native : NativeId) (e : Engine σ) :
    Frame e (dismissPrevious native e).2 := by
  rw [dismissPrevious_eq]
  rcases e.current? native with _ | ⟨id, w⟩
  · exact .refl e
  · exact ((Frame.refl e).withRegistry _).trans (frame_ask? _ _ _)

theorem frame_wrapNative (native : NativeId) (handle : Handle) (rooted : Bool) (e : Engine σ) :
    Frame e (wrapNative native handle rooted e).2 := by
  rw [wrapNative_eq]
  rcases e.wrappedAs? native handle with _ | id
  · have hsettle := frame_settleRoot handle rooted e
    dsimp only
    rcases hrun : settleRoot handle rooted e with ⟨_ | _, settled⟩
    · rwa [hrun] at hsettle
    · rw [hrun] at hsettle
      exact (hsettle.trans (frame_dismissPrevious native settled)).withRegistry _
  · exact .refl e

theorem frame_createObject (native : NativeId) (e : Engine σ) :
    Frame e (createObject native e).2 := by
  have hask := frame_ask? .createObject Backend.createObject e
  rw [createObject_eq, ask_eq]
  rcases answer (ask? .createObject Backend.createObject e).1 with _ | handle
  · exact hask
  · exact hask.trans (frame_wrapNative native handle true _)

theorem frame_rootObject (native : NativeId) (e : Engine σ) : Frame e (rootObject native e).2 := by
  rw [rootObject_eq]
  rcases e.current? native with _ | ⟨id, w⟩
  · exact .refl e
  · dsimp only
    split
    · exact ((Frame.refl e).withRegistry _).trans (frame_ask? _ _ _)
    · exact (Frame.refl e).withRegistry _

theorem frame_unrootObject (native : NativeId) (e : Engine σ) :
    Frame e (unrootObject native e).2 := by
  rw [unrootObject_eq]
  rcases e.current? native with _ | ⟨id, w⟩
  · exact .refl e
  · dsimp only
    split
    · exact .refl e
    · split
      · exact ((Frame.refl e).withRegistry _).trans (frame_ask? _ _ _)
      · exact (Frame.refl e).withRegistry _

theorem frame_setPrivateData (native : NativeId) (payload : Payload) (e : Engine σ) :
    Frame e (setPrivateData native payload e).2 := by
  rw [setPrivateData_eq]
  rcases e.current? native with _ | ⟨id, w⟩
  · exact .refl e
  · have hask := frame_ask? (.setPrivateData w.handle payload.finalizer.isSome)
      (Backend.setPrivateData w.handle payload) e
    dsimp only [ask_eq]
    split
    · exact hask.withRegistry _
    · exact hask

theorem frame_retain (owner target : NativeId) (e : Engine σ) :
    Frame e (retain owner target e).2 := by
  rw [retain_eq]
  rcases e.endpoints? owner target with _ | ends
  · exact .refl e
  · have hask := (quietly_clearException e).frame.trans
      (frame_ask? (.attachChild ends.ownerHandle ends.targetHandle)
        (Backend.attachChild ends.ownerHandle ends.targetHandle) (clearException e).2)
    dsimp only [ask_eq]
    split
    · exact hask.withRegistry _
    · split <;> exact hask

theorem frame_unretain (owner target : NativeId) (e : Engine σ) :
    Frame e (unretain owner target e).2 := by
  rw [unretain_eq]
  rcases e.endpoints? owner target with _ | ends
  · exact .refl e
  · have hask := (quietly_clearException e).frame.trans
      (frame_ask? (.detachChild ends.ownerHandle ends.targetHandle)
        (Backend.detachChild ends.ownerHandle ends.targetHandle) (clearException e).2)
    dsimp only [ask_eq]
    split
    · exact hask.withRegistry _
    · split
      · exact hask.withRegistry _
      · exact hask

theorem frame_releaseValue (value : Value) (e : Engine σ) :
    Frame e (releaseValue value e).2 := by
  rw [releaseValue_eq]
  rcases value.asObject? with _ | handle
  · exact .refl e
  · dsimp only
    split
    · exact .refl e
    · exact frame_ask? _ _ e

theorem frame_askReporting? (call : Call) (f : σ → Report σ α) (e : Engine σ) :
    Frame e (askReporting? call f e).2 := by
  cases hs : e.backend with
  | none => rw [askReporting?_none hs]; exact .refl e
  | some s => rw [askReporting?_some hs]; exact ⟨rfl, rfl, rfl, by rw [hs]; rfl⟩

theorem frame_executeSource (source : Script.Source) (file : Option String) (e : Engine σ) :
    Frame e (executeSource source file e).2 :=
  (frame_askReporting? _ _ e).trans (executeSource_quiet source file e).frame

theorem frame_executeBuffer (bytes : List UInt8) (file : Option String) (e : Engine σ) :
    Frame e (executeBuffer bytes file e).2 := by
  rw [executeBuffer_snd]
  split
  · exact frame_executeSource _ file e
  · exact .refl e

/-- Only a cleanup changes more of an engine than its wrappers and the state of its backend. -/
theorem frame_performSimple {op : Operation} (h : op ≠ .cleanup) (e : Engine σ) :
    Frame e (performSimple op e).2 := by
  cases op with
  | cleanup => exact absurd rfl h
  | executeBuffer bytes file =>
    rw [performSimple, run_map]
    exact frame_executeBuffer bytes file e
  | executeSource source file =>
    rw [performSimple, run_map]
    exact frame_executeSource source file e
  | collectGarbage => exact frame_askReporting? .collect Backend.collect e
  | releaseValue value => exact frame_releaseValue value e
  | retain owner target =>
    rw [performSimple, run_return]
    exact frame_retain owner target e
  | unretain owner target =>
    rw [performSimple, run_return]
    exact frame_unretain owner target e
  | wrapNative native handle rooted =>
    rw [performSimple, run_map]
    exact frame_wrapNative native handle rooted e
  | createObject native =>
    rw [performSimple, run_map]
    exact frame_createObject native e
  | rootObject native =>
    rw [performSimple, run_return]
    exact frame_rootObject native e
  | unrootObject native =>
    rw [performSimple, run_return]
    exact frame_unrootObject native e
  | setPrivateData native payload =>
    rw [performSimple, run_return]
    exact frame_setPrivateData native payload e
  | _ => exact (quietly_performSimple rfl e).frame

/-! ## Cleanup -/

theorem frame_releaseAll (ws : List Wrapper) (e : Engine σ) :
    Frame e (releaseAll ws e).2 ∧ (releaseAll ws e).2.registry = e.registry := by
  induction ws generalizing e with
  | nil => exact ⟨.refl e, rfl⟩
  | cons w rest ih =>
    obtain ⟨hframe, hregistry⟩ := ih (ask? (.release w.handle) (Backend.release w.handle) e).2
    exact ⟨(frame_ask? _ _ e).trans hframe, hregistry.trans (registry_ask? _ _ e)⟩

theorem global_releaseGlobal (e : Engine σ) : (releaseGlobal e).2.global = none := by
  simp only [releaseGlobal, act_bind, act_get]
  cases hglobal : e.global with
  | none => exact hglobal
  | some global =>
    simp only [act_bind, act_modify]
    exact (frame_ask? (.release global) (Backend.release global) _).global

theorem global_cleanupObjects (e : Engine σ) : (cleanupObjects e).2.global = e.global := by
  simp only [cleanupObjects, act_bind, act_get, act_modify]
  have hcollected := (frame_askReporting? .collect Backend.collect e).global
  exact (frame_releaseAll _ _).1.global.trans hcollected

theorem registry_cleanupObjects (e : Engine σ) :
    (cleanupObjects e).2.registry = (collectGarbage e).2.registry.drain.2 := by
  simp only [cleanupObjects, act_bind, act_get, act_modify]
  exact (frame_releaseAll _ _).2

theorem registry_shutdownBackend (e : Engine σ) : (shutdownBackend e).2.registry = e.registry :=
  registry_ask? .shutdown Backend.shutdown e

theorem global_shutdownBackend (e : Engine σ) : (shutdownBackend e).2.global = e.global :=
  (frame_ask? .shutdown Backend.shutdown e).global

theorem cleanup_of_invalid (h : e.isValid = false) : cleanup e = ((), e) := by
  simp only [cleanup, act_bind, act_get, h]
  rfl

/-- What a cleanup makes of a valid engine. -/
structure Ended (e : Engine σ) : Prop where
  backend : e.backend = none
  global : e.global = none
  isValid : e.isValid = false
  inCleanup : e.inCleanup = false
  registry : ∃ r : Registry, e.registry = r.drain.2

theorem cleanup_of_valid (h : e.isValid = true) : Ended (cleanup e).2 := by
  simp only [cleanup, act_bind, act_get, h]
  exact
    { backend := rfl
      global := (global_shutdownBackend _).trans ((global_cleanupObjects _).trans
        (global_releaseGlobal _))
      isValid := rfl
      inCleanup := rfl
      registry := ⟨_, (registry_shutdownBackend _).trans (registry_cleanupObjects _)⟩ }

end ScriptBridge.Engine
