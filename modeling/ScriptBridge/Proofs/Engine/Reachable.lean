import ScriptBridge.Proofs.Engine.Framing
import ScriptBridge.Rehearsal

/-!
# Reachable engines

An engine is reached from its creation by operations, in any order and with any outcome. A start is
a flag and the operations of its initializers, which are thereby covered. Between operations a
caller may take the trace away and use the backend as it likes. In every reachable engine the
registry is orderly, no cleanup is under way, and an engine without backend holds nothing.
-/

namespace ScriptBridge.Engine

variable {σ α : Type} [Backend σ] {e e' : Engine σ}

/-! ## Orderly registries -/

/-- Once its wrapper is dismissed, a native object leads nowhere. -/
theorem orderly_dismissPrevious (h : e.registry.Orderly) (native : NativeId) :
    (dismissPrevious native e).2.registry.Orderly ∧
      (dismissPrevious native e).2.registry.find? native = none := by
  rw [dismissPrevious_eq]
  rcases hcur : e.current? native with _ | ⟨id, w⟩
  · refine ⟨h, ?_⟩
    cases hfind : e.registry.find? native with
    | none => rfl
    | some id =>
      obtain ⟨w, hw, -⟩ := h.coherent.native_of_find? hfind
      rw [current?_eq_some_iff.mpr ⟨hfind, hw⟩] at hcur
      cases hcur
  · obtain ⟨hfind, hw⟩ := current?_eq_some_iff.mp hcur
    obtain ⟨v, hv, rfl⟩ := h.coherent.native_of_find? hfind
    rw [hw, Option.some.injEq] at hv
    subst hv
    dsimp only
    rw [registry_ask?]
    exact ⟨h.remove id, h.find?_remove_self hw⟩

theorem orderly_wrapNative (h : e.registry.Orderly) (native : NativeId) (handle : Handle)
    (rooted : Bool) : (wrapNative native handle rooted e).2.registry.Orderly := by
  have hsettle := registry_settleRoot handle rooted e
  rw [wrapNative_eq]
  rcases e.wrappedAs? native handle with _ | id
  · dsimp only
    split
    · rwa [hsettle]
    · obtain ⟨hdismissed, hnew⟩ := orderly_dismissPrevious (hsettle ▸ h) native
      exact hdismissed.insert handle rooted hnew
  · exact h

theorem orderly_createObject (h : e.registry.Orderly) (native : NativeId) :
    (createObject native e).2.registry.Orderly := by
  have hask := registry_ask .createObject Backend.createObject e
  rw [createObject_eq]
  dsimp only
  split
  · rwa [hask]
  · exact orderly_wrapNative (hask ▸ h) native _ true

theorem orderly_rootObject (h : e.registry.Orderly) (native : NativeId) :
    (rootObject native e).2.registry.Orderly := by
  rw [rootObject_eq]
  rcases e.current? native with _ | ⟨id, w⟩
  · exact h
  · dsimp only
    split
    · rw [registry_ask]
      exact h.root id
    · exact h.root id

theorem orderly_unrootObject (h : e.registry.Orderly) (native : NativeId) :
    (unrootObject native e).2.registry.Orderly := by
  rw [unrootObject_eq]
  rcases e.current? native with _ | ⟨id, w⟩
  · exact h
  · dsimp only
    split
    · exact h
    · split
      · rw [registry_ask]
        exact h.unroot id
      · exact h.unroot id

theorem orderly_setPrivateData (h : e.registry.Orderly) (native : NativeId) (payload : Payload) :
    (setPrivateData native payload e).2.registry.Orderly := by
  rw [setPrivateData_eq]
  rcases e.current? native with _ | ⟨id, w⟩
  · exact h
  · dsimp only
    split <;> simp only [registry_ask]
    · exact h.markPrivateData id
    · exact h

theorem orderly_retain (h : e.registry.Orderly) (owner target : NativeId) :
    (retain owner target e).2.registry.Orderly := by
  have hcleared := (quietly_clearException e).registry
  rw [retain_eq]
  rcases e.endpoints? owner target with _ | ends
  · exact h
  · dsimp only
    split
    · simp only [registry_ask, hcleared]
      exact h.attach ends.owner ends.target
    · split <;> simpa only [registry_ask, hcleared] using h

theorem orderly_unretain (h : e.registry.Orderly) (owner target : NativeId) :
    (unretain owner target e).2.registry.Orderly := by
  have hcleared := (quietly_clearException e).registry
  rw [unretain_eq]
  rcases e.endpoints? owner target with _ | ends
  · exact h
  · have hdetached := h.detach ends.owner ends.target
    dsimp only
    split
    · simpa only [registry_ask, hcleared] using hdetached
    · split
      · simpa only [registry_ask, hcleared] using hdetached
      · simpa only [registry_ask, hcleared] using h

@[simp]
theorem registry_releaseValue (value : Value) (e : Engine σ) :
    (releaseValue value e).2.registry = e.registry := by
  rw [releaseValue_eq]
  rcases value.asObject? with _ | handle
  · rfl
  · dsimp only
    split
    · rfl
    · exact registry_ask? _ _ e

theorem orderly_askReporting? (h : e.registry.Orderly) (call : Call) (f : σ → Report σ α) :
    (askReporting? call f e).2.registry.Orderly := by
  obtain ⟨ids, hregistry, -⟩ := (askReporting?_prunes h.coherent call f).pruned
  rw [hregistry]
  exact h.removeAll ids

theorem orderly_executeSource (h : e.registry.Orderly) (source : Script.Source)
    (file : Option String) : (executeSource source file e).2.registry.Orderly := by
  rw [(executeSource_quiet source file e).registry]
  exact orderly_askReporting? h _ _

theorem orderly_cleanup (h : e.registry.Orderly) : (cleanup e).2.registry.Orderly := by
  cases hvalid : e.isValid with
  | false => rwa [cleanup_of_invalid hvalid]
  | true =>
    obtain ⟨r, hr⟩ := (cleanup_of_valid hvalid).registry
    rw [hr]
    exact Registry.orderly_drain r

/-- Every operation keeps the registry orderly, whether or not it succeeds. -/
theorem orderly_performSimple (h : e.registry.Orderly) (op : Operation) :
    (performSimple op e).2.registry.Orderly := by
  cases op with
  | cleanup => exact orderly_cleanup h
  | executeBuffer bytes file =>
    rw [performSimple, run_map, executeBuffer_snd]
    split
    · exact orderly_executeSource h _ file
    · exact h
  | executeSource source file =>
    rw [performSimple, run_map]
    exact orderly_executeSource h source file
  | collectGarbage => exact orderly_askReporting? h .collect Backend.collect
  | releaseValue value => exact (registry_releaseValue value e).symm ▸ h
  | retain owner target =>
    rw [performSimple, run_return]
    exact orderly_retain h owner target
  | unretain owner target =>
    rw [performSimple, run_return]
    exact orderly_unretain h owner target
  | wrapNative native handle rooted =>
    rw [performSimple, run_map]
    exact orderly_wrapNative h native handle rooted
  | createObject native =>
    rw [performSimple, run_map]
    exact orderly_createObject h native
  | rootObject native =>
    rw [performSimple, run_return]
    exact orderly_rootObject h native
  | unrootObject native =>
    rw [performSimple, run_return]
    exact orderly_unrootObject h native
  | setPrivateData native payload =>
    rw [performSimple, run_return]
    exact orderly_setPrivateData h native payload
  | _ => rwa [(quietly_performSimple rfl e).registry]

/-! ## Engines without backend -/

/-- An engine that has nothing left. -/
structure Spent (e : Engine σ) : Prop where
  backend : e.backend = none
  global : e.global = none
  isValid : e.isValid = false
  vacant : ∀ id, e.registry.get? id = none

omit [Backend σ] in
theorem Spent.current? (h : Spent e) (native : NativeId) : e.current? native = none := by
  cases hcur : e.current? native with
  | none => rfl
  | some found =>
    have hw := (current?_eq_some_iff.mp hcur).2
    rw [h.vacant] at hw
    cases hw

omit [Backend σ] in
theorem Spent.endpoints? (h : Spent e) (owner target : NativeId) :
    e.endpoints? owner target = none := by
  rw [endpoints?_eq, h.current? owner]

omit [Backend σ] in
theorem Spent.wrappedAs? (h : Spent e) (native : NativeId) (handle : Handle) :
    e.wrappedAs? native handle = none := by
  simp only [Engine.wrappedAs?]
  cases e.registry.find? native with
  | none => rfl
  | some id => simp [h.vacant]

omit [Backend σ] in
theorem Ended.spent (h : Ended e) : Spent e where
  backend := h.backend
  global := h.global
  isValid := h.isValid
  vacant id := by
    obtain ⟨r, hr⟩ := h.registry
    rw [hr, Registry.get?_drain]

theorem quiet_executeSource_of_spent (h : Spent e) (source : Script.Source)
    (file : Option String) : Quiet e (executeSource source file e).2 := by
  have hquiet := executeSource_quiet source file e
  rwa [askReporting?_none h.backend] at hquiet

theorem wrapNative_of_spent (h : Spent e) (native : NativeId) (handle : Handle) (rooted : Bool) :
    (wrapNative native handle rooted e).2 = e := by
  rw [wrapNative_eq, h.wrappedAs?]
  cases rooted with
  | true => simp only [settleRoot_true, h.backend]; rfl
  | false => simp only [settleRoot_false, ask_none h.backend]

/-- There is nothing that an engine without backend could do to a wrapper. -/
theorem quiet_of_spent (h : Spent e) (op : Operation) : Quiet e (performSimple op e).2 := by
  cases op with
  | cleanup =>
    rw [performSimple, run_return, run_surely, cleanup_of_invalid h.isValid]
    exact .refl e
  | executeBuffer bytes file =>
    rw [performSimple, run_map, executeBuffer_snd]
    split
    · exact quiet_executeSource_of_spent h _ file
    · exact .refl e
  | executeSource source file =>
    rw [performSimple, run_map]
    exact quiet_executeSource_of_spent h source file
  | collectGarbage =>
    rw [performSimple, run_return, run_surely, collectGarbage_snd, askReporting?_none h.backend]
    exact .refl e
  | releaseValue value =>
    rw [performSimple, run_return, run_surely, releaseValue_eq]
    rcases value.asObject? with _ | handle
    · exact .refl e
    · dsimp only
      split
      · exact .refl e
      · rw [ask?_none h.backend]
        exact .refl e
  | retain owner target =>
    rw [performSimple, run_return, retain_eq, h.endpoints?]
    exact .refl e
  | unretain owner target =>
    rw [performSimple, run_return, unretain_eq, h.endpoints?]
    exact .refl e
  | wrapNative native handle rooted =>
    rw [performSimple, run_map, wrapNative_of_spent h]
    exact .refl e
  | createObject native =>
    rw [performSimple, run_map, createObject_eq, ask_none h.backend]
    exact .refl e
  | rootObject native =>
    rw [performSimple, run_return, rootObject_eq, h.current?]
    exact .refl e
  | unrootObject native =>
    rw [performSimple, run_return, unrootObject_eq, h.current?]
    exact .refl e
  | setPrivateData native payload =>
    rw [performSimple, run_return, setPrivateData_eq, h.current?]
    exact .refl e
  | _ => exact quietly_performSimple rfl e

/-! ## Moves -/

/-- What can happen to an engine at one go. -/
inductive Move : Engine σ → Engine σ → Prop
  | operate (op : Operation) (e : Engine σ) : Move e (performSimple op e).2
  /-- A start sets its flag before the initializers run. -/
  | begin (e : Engine σ) : Move e { e with started := true, queue := [] }
  /-- A start notes its initializers, and a caller may take the trace away. -/
  | trace (e : Engine σ) (events : List Event) : Move e { e with trace := events }
  /-- A caller may use the backend as it likes. -/
  | drive {e : Engine σ} {s : σ} (hs : e.backend = some s) (s' : σ) :
    Move e { e with backend := some s' }

/-- An engine that was created and then moved. -/
inductive Reachable : Engine σ → Prop
  | created {state : σ} {config : Config} {e : Engine σ} {events : List Event}
    (h : create state config = (.ok e, events)) : Reachable e
  | moved {e e' : Engine σ} (h : Reachable e) (hmove : Move e e') : Reachable e'

/-- What holds of every reachable engine. -/
structure WellFormed (e : Engine σ) : Prop where
  orderly : e.registry.Orderly
  inCleanup : e.inCleanup = false
  isValid : e.isValid = e.backend.isSome
  spent : e.backend = none → Spent e

theorem wellFormed_created {state : σ} {config : Config} {events : List Event}
    (h : create state config = (.ok e, events)) : WellFormed e := by
  simp only [create] at h
  split at h
  · cases h
    exact ⟨Registry.orderly_empty, rfl, rfl, fun hnone ↦ by cases hnone⟩
  · cases h

/-- A quiet step takes no backend away and brings none. -/
theorem Quiet.backend_eq_none_iff (h : Quiet e e') : e'.backend = none ↔ e.backend = none := by
  rw [← Option.not_isSome_iff_eq_none, ← Option.not_isSome_iff_eq_none, h.frame.backend]

theorem Spent.of_quiet (h : Spent e) (hquiet : Quiet e e') : Spent e' where
  backend := hquiet.backend_eq_none_iff.mpr h.backend
  global := hquiet.frame.global.trans h.global
  isValid := hquiet.frame.isValid.trans h.isValid
  vacant := hquiet.registry ▸ h.vacant

theorem WellFormed.of_quiet (h : WellFormed e) (hquiet : Quiet e e') : WellFormed e' where
  orderly := hquiet.registry ▸ h.orderly
  inCleanup := hquiet.frame.inCleanup.trans h.inCleanup
  isValid := by rw [hquiet.frame.isValid, h.isValid, hquiet.frame.backend]
  spent hnone := (h.spent (hquiet.backend_eq_none_iff.mp hnone)).of_quiet hquiet

theorem WellFormed.performSimple (h : WellFormed e) (op : Operation) :
    WellFormed (performSimple op e).2 := by
  cases hs : e.backend with
  | none => exact h.of_quiet (quiet_of_spent (h.spent hs) op)
  | some s =>
    by_cases hop : op = .cleanup
    · subst hop
      have hvalid : e.isValid = true := by rw [h.isValid, hs]; rfl
      have hended : Ended (Engine.performSimple .cleanup e).2 := cleanup_of_valid hvalid
      exact ⟨orderly_performSimple h.orderly .cleanup, hended.inCleanup,
        by rw [hended.isValid, hended.backend]; rfl, fun _ ↦ hended.spent⟩
    · have hframe := frame_performSimple hop e
      refine ⟨orderly_performSimple h.orderly op, hframe.inCleanup.trans h.inCleanup,
        by rw [hframe.isValid, h.isValid, hframe.backend], fun hnone ↦ ?_⟩
      have hsome := hframe.backend
      rw [hnone, hs] at hsome
      cases hsome

theorem Reachable.wellFormed (h : Reachable e) : WellFormed e := by
  induction h with
  | created h => exact wellFormed_created h
  | moved _ hmove ih =>
    cases hmove with
    | operate op => exact ih.performSimple op
    | begin => exact ⟨ih.orderly, ih.inCleanup, ih.isValid, fun h ↦
        have hspent := ih.spent h
        ⟨hspent.backend, hspent.global, hspent.isValid, hspent.vacant⟩⟩
    | trace => exact ⟨ih.orderly, ih.inCleanup, ih.isValid, fun h ↦
        have hspent := ih.spent h
        ⟨hspent.backend, hspent.global, hspent.isValid, hspent.vacant⟩⟩
    | drive hs =>
      refine ⟨ih.orderly, ih.inCleanup, ?_, fun hnone ↦ by cases hnone⟩
      rw [show _ = _ from ih.isValid, hs]
      rfl

/-! ## Rehearsed engines -/

/-- A new engine over a rehearsal. -/
def rehearsed : Engine Rehearsal := (create (Rehearsal.create none) default).1.toOption.get rfl

theorem reachable_rehearsed : Reachable rehearsed :=
  have h : create (Rehearsal.create none) default = (.ok rehearsed, [.call .globalObject]) := rfl
  .created h

/-- Performs operations one after the other. -/
def performAll (ops : List Operation) (e : Engine σ) : Engine σ :=
  ops.foldl (fun e op ↦ (performSimple op e).2) e

theorem Reachable.performAll (h : Reachable e) (ops : List Operation) :
    Reachable (performAll ops e) := by
  induction ops generalizing e with
  | nil => exact h
  | cons op ops ih => exact ih (h.moved (.operate op e))

end ScriptBridge.Engine
