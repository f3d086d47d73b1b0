import ScriptBridge.Proofs.Contract.Pass
import ScriptBridge.Proofs.Engine.Reachable

/-!
# Operations stay in step

Over a backend that honours its contract every operation leaves the registry in step with the script
heap, whatever order it changes the two sides in. Only three kinds of operations ask for something:
wrapping takes a rooted handle of an object that was never wrapped, and the backend must not refuse
to root or unroot a wrapper.
-/

namespace ScriptBridge.Contract

open Engine

variable {σ ω α : Type} [Backend σ] {C : Contract σ ω} {e e' : Engine σ} {seen : ω → Prop} {s : σ}

/-- While there is a backend, the engine is in step with it. -/
def Aligned (C : Contract σ ω) (e : Engine σ) (seen : ω → Prop) : Prop :=
  ∀ ⦃s⦄, e.backend = some s → C.InStep e.registry s seen

/-- Some wrapper has the object. -/
def Wrapped (C : Contract σ ω) (e : Engine σ) (x : ω) : Prop :=
  ∃ s id w, e.backend = some s ∧ e.registry.get? id = some w ∧ (C.heap s).target w.handle = some x

theorem aligned_of_none (h : e.backend = none) : C.Aligned e seen := by
  intro s hs
  rw [h] at hs
  cases hs

theorem InStep.aligned (hs : e.backend = some s) (h : C.InStep e.registry s seen) :
    C.Aligned e seen := by
  intro t ht
  rw [hs, Option.some.injEq] at ht
  exact ht ▸ h

theorem Aligned.quiet (h : C.Aligned e seen) (hquiet : Quiet e e') : C.Aligned e' seen := by
  induction hquiet with
  | aside haside =>
    intro s hs
    rw [haside.backend] at hs
    rw [haside.registry]
    exact h hs
  | heard hs hcall =>
    have hstep := h hs
    exact (inStep_of_follows hstep.lockstep hstep.sound.toRecorded
      (C.quiet hstep.alive hcall)).aligned rfl
  | trans _ _ first second => exact second (first h)

/-! ## Counts and marks -/

/-- The registry may change without a call. -/
theorem InStep.counted {r : Registry} (h : C.InStep e.registry s seen) (hs : e.backend = some s)
    (hr : Lockstep r (C.heap s) seen) : C.Aligned { e with registry := r } seen :=
  InStep.aligned (e := { e with registry := r }) hs ⟨h.alive, hr⟩

theorem InStep.rootObject (h : C.InStep e.registry s seen) (hs : e.backend = some s)
    {native : NativeId} (hok : (rootObject native e).1 = .ok ()) :
    C.Aligned (rootObject native e).2 seen := by
  rw [rootObject_eq] at hok ⊢
  rcases hcur : e.current? native with _ | ⟨id, w⟩
  · exact h.aligned hs
  have hw := (current?_eq_some_iff.mp hcur).2
  rw [hcur] at hok
  dsimp only at hok ⊢
  split
  · next hzero =>
    have hbackend : ({ e with registry := (e.registry.root id).2 } : Engine σ).backend = some s :=
      hs
    rw [if_pos hzero, ask_some hbackend] at hok
    rw [ask_some hbackend]
    have hfollows := C.root w.handle h.alive
    rw [show (Backend.root w.handle s).result = .ok () from hok] at hfollows
    exact (inStep_of_follows (h.lockstep.root hw) h.sound.toRecorded.withRoot hfollows).aligned rfl
  · next hzero => exact h.counted hs (h.lockstep.root_again hw (Nat.pos_of_ne_zero hzero))

theorem InStep.unrootObject (h : C.InStep e.registry s seen) (hs : e.backend = some s)
    {native : NativeId} (hok : (unrootObject native e).1 = .ok ()) :
    C.Aligned (unrootObject native e).2 seen := by
  rw [unrootObject_eq] at hok ⊢
  rcases hcur : e.current? native with _ | ⟨id, w⟩
  · exact h.aligned hs
  have hw := (current?_eq_some_iff.mp hcur).2
  rw [hcur] at hok
  dsimp only at hok ⊢
  split
  · exact h.aligned hs
  · next hzero =>
    rw [if_neg hzero] at hok
    split
    · next hone =>
      have hbackend : ({ e with registry := (e.registry.unroot id).2 } : Engine σ).backend =
        some s := hs
      rw [if_pos hone, ask_some hbackend] at hok
      rw [ask_some hbackend]
      have hfollows := C.unroot w.handle h.alive
      rw [show (Backend.unroot w.handle s).result = .ok () from hok] at hfollows
      exact (inStep_of_follows (h.lockstep.unroot hw hone) h.sound.toRecorded.withoutRoot
        hfollows).aligned rfl
    · next hone => exact h.counted hs (h.lockstep.unroot_again hw (by omega))

theorem InStep.setPrivateData (h : C.InStep e.registry s seen) (hs : e.backend = some s)
    (native : NativeId) (payload : Payload) :
    C.Aligned (setPrivateData native payload e).2 seen := by
  rw [setPrivateData_eq]
  rcases e.current? native with _ | ⟨id, w⟩
  · exact h.aligned hs
  have hasked : C.Aligned (ask (.setPrivateData w.handle payload.finalizer.isSome)
      (Backend.setPrivateData w.handle payload) e).2 seen :=
    (h.aligned hs).quiet (Quietly.of_ask (.setPrivateData w.handle payload) e)
  dsimp only
  split
  · intro t ht
    exact (hasked ht).counted ht ((hasked ht).lockstep.markPrivateData id) ht
  · exact hasked

/-! ## Edges -/

/-- Taking the pending exception first changes nothing on either side. -/
theorem InStep.cleared (h : C.InStep e.registry s seen) (hs : e.backend = some s) :
    (clearException e).2.registry = e.registry ∧
      ∃ s', (clearException e).2.backend = some s' ∧ C.InStep e.registry s' seen := by
  have hquiet := quietly_clearException e
  have hsome : (clearException e).2.backend.isSome = true := by
    rw [hquiet.frame.backend, hs, Option.isSome_some]
  obtain ⟨s', hs'⟩ := Option.isSome_iff_exists.mp hsome
  refine ⟨hquiet.registry, s', hs', ?_⟩
  rw [← hquiet.registry]
  exact (h.aligned hs).quiet hquiet hs'

theorem InStep.retain (h : C.InStep e.registry s seen) (hs : e.backend = some s)
    (owner target : NativeId) : C.Aligned (retain owner target e).2 seen := by
  rw [retain_eq, endpoints?_eq]
  rcases hcur : e.current? owner with _ | ⟨o, w⟩
  · exact h.aligned hs
  rcases hcur' : e.current? target with _ | ⟨t, v⟩
  · exact h.aligned hs
  have hw := (current?_eq_some_iff.mp hcur).2
  have hv := (current?_eq_some_iff.mp hcur').2
  obtain ⟨hregistry, s', hs', h'⟩ := h.cleared hs
  obtain ⟨x, hx, -⟩ := h'.lockstep.object hw
  obtain ⟨y, hy, -⟩ := h'.lockstep.object hv
  have hfollows := C.attachChild h'.alive hx hy
  dsimp only
  rw [ask_some hs']
  dsimp only
  split
  · next hresult =>
    rw [hresult] at hfollows
    have hattached := h'.lockstep.attach h'.sound.toRecorded hw hv hx hy
    have hmade := h'.sound.made_of_target hx
    refine (inStep_of_follows ?_ (h'.sound.toRecorded.withChild hmade) hfollows).aligned rfl
    rw [registry_heard, hregistry]
    exact hattached
  · next hresult =>
    rw [hresult] at hfollows
    have hkept : C.Aligned ((clearException e).2.heard (.attachChild w.handle v.handle)
        (Backend.attachChild w.handle v.handle s')) seen := by
      refine (inStep_of_follows ?_ h'.sound.toRecorded hfollows).aligned rfl
      rw [registry_heard, hregistry]
      exact h'.lockstep
    split <;> exact hkept

theorem InStep.unretain (h : C.InStep e.registry s seen) (hs : e.backend = some s)
    (owner target : NativeId) : C.Aligned (unretain owner target e).2 seen := by
  rw [unretain_eq, endpoints?_eq]
  rcases hcur : e.current? owner with _ | ⟨o, w⟩
  · exact h.aligned hs
  rcases hcur' : e.current? target with _ | ⟨t, v⟩
  · exact h.aligned hs
  have hw := (current?_eq_some_iff.mp hcur).2
  have hv := (current?_eq_some_iff.mp hcur').2
  obtain ⟨hregistry, s', hs', h'⟩ := h.cleared hs
  obtain ⟨x, hx, -⟩ := h'.lockstep.object hw
  obtain ⟨y, hy, -⟩ := h'.lockstep.object hv
  have hfollows := C.detachChild v.handle h'.alive hx
  dsimp only
  rw [ask_some hs']
  dsimp only
  split
  · next hresult =>
    rw [hresult] at hfollows
    have hdetached := h'.lockstep.detach hw hv hx hy And.right
      (fun hchild hslot ↦ ⟨hslot, hchild⟩) fun _ _ hleft ↦ hleft.1 ⟨rfl, rfl⟩
    refine (inStep_of_follows ?_ h'.sound.toRecorded.withoutChild hfollows).aligned rfl
    rw [registry_heard, hregistry]
    exact hdetached
  · next failure hresult =>
    rw [hresult] at hfollows
    split
    · next hgone =>
      -- The heap keeps what it has, but one of the objects is gone.
      have hlost : (C.heap s').present x → (C.heap s').present y →
          ¬ (C.heap s').child x v.handle y := by
        intro hpresent hpresent' _
        cases failure with
        | unknownHandle handle =>
          rcases C.unknown h'.alive hresult with howner | hchild
          · exact howner x hx hpresent
          · exact hchild y hy hpresent'
        | _ => cases hgone
      have hdetached := h'.lockstep.detach hw hv hx hy (fun hchild ↦ hchild)
        (fun hchild _ ↦ hchild) hlost
      refine (inStep_of_follows ?_ h'.sound.toRecorded hfollows).aligned rfl
      rw [registry_heard, hregistry]
      exact hdetached
    · refine (inStep_of_follows ?_ h'.sound.toRecorded hfollows).aligned rfl
      rw [registry_heard, hregistry]
      exact h'.lockstep

/-! ## Handles given back and taken over -/

theorem InStep.releaseValue (h : C.InStep e.registry s seen) (hs : e.backend = some s)
    (value : Value) : C.Aligned (releaseValue value e).2 seen := by
  rw [releaseValue_eq]
  rcases value.asObject? with _ | handle
  · exact h.aligned hs
  dsimp only
  split
  · exact h.aligned hs
  · next howns =>
    have hfree : ∀ {id w}, e.registry.get? id = some w → w.handle ≠ handle := by
      rintro id w hw rfl
      apply howns
      rw [owns, show e.registry.findByHandle? w.handle = some id from h.lockstep.indexed hw]
      simp
    rw [ask?_some hs]
    exact (inStep_of_follows (h.lockstep.release hfree) h.sound.toRecorded.withoutHandle
      (C.release handle h.alive)).aligned rfl

/-- A native object loses its wrapper, and the handle of it is given back. -/
theorem InStep.dismissPrevious (h : C.InStep e.registry s seen) (hs : e.backend = some s)
    (native : NativeId) {handle : Handle} {x : ω} (hx : (C.heap s).target handle = some x)
    (hseen : ¬ seen x) :
    ∃ t, (dismissPrevious native e).2.backend = some t ∧
      C.InStep (dismissPrevious native e).2.registry t seen ∧
      (dismissPrevious native e).2.registry.find? native = none ∧
      (C.heap t).target handle = some x ∧
      ((C.heap t).rooted handle ↔ (C.heap s).rooted handle) := by
  have hnone := (orderly_dismissPrevious h.lockstep.orderly native).2
  rw [dismissPrevious_eq] at hnone ⊢
  rcases hcur : e.current? native with _ | ⟨id, w⟩
  · rw [hcur] at hnone
    exact ⟨s, hs, h, hnone, hx, Iff.rfl⟩
  · have hw := (current?_eq_some_iff.mp hcur).2
    rw [hcur] at hnone
    have hbackend : ({ e with registry := (e.registry.remove id).2 } : Engine σ).backend = some s :=
      hs
    dsimp only at hnone ⊢
    rw [ask?_some hbackend] at hnone ⊢
    have hfollows := C.release w.handle h.alive
    have hcut : Lockstep (e.registry.remove id).2 ((C.heap s).withoutHandle w.handle) seen :=
      h.lockstep.dismiss fun hv hsame ↦ h.lockstep.indexed.id_eq hw hv hsame
    have hne : handle ≠ w.handle := h.lockstep.handle_ne hw hx hseen
    have hissued : (C.heap s).issued handle := h.sound.issued_of_target hx
    refine ⟨_, rfl, inStep_of_follows hcut h.sound.toRecorded.withoutHandle hfollows, hnone, ?_, ?_⟩
    · calc (C.heap (Backend.release w.handle s).state).target handle
          = ((C.heap s).withoutHandle w.handle).target handle := hfollows.drift.target hissued
        _ = (C.heap s).target handle := by rw [Heap.target_withoutHandle, if_neg hne]
        _ = some x := hx
    · calc (C.heap (Backend.release w.handle s).state).rooted handle
          ↔ ((C.heap s).withoutHandle w.handle).rooted handle := hfollows.drift.rooted hissued
        _ ↔ (C.heap s).rooted handle := and_iff_right hne

/-- A registry in step takes a new wrapper for an object that was never wrapped. -/
theorem InStep.register (h : C.InStep e.registry s seen) (hs : e.backend = some s)
    {native : NativeId} {handle : Handle} {rooted : Bool} {x : ω}
    (hnew : e.registry.find? native = none) (hx : (C.heap s).target handle = some x)
    (hseen : ¬ seen x) (hroot : (C.heap s).rooted handle ↔ rooted = true) :
    C.Aligned { e with registry := (e.registry.insert native handle rooted).2 }
        (fun y ↦ seen y ∨ y = x) ∧
      C.Wrapped { e with registry := (e.registry.insert native handle rooted).2 } x := by
  have hinserted := h.lockstep.insert h.sound.toRecorded hnew hx hseen hroot
  refine ⟨?_, s, _, _, hs, Registry.get?_insert_self e.registry native handle rooted, hx⟩
  exact InStep.aligned (e := { e with registry := (e.registry.insert native handle rooted).2 }) hs
    ⟨h.alive, hinserted⟩

/-- Whatever wrapper the native object had before, it gets the new one. -/
theorem InStep.replace (h : C.InStep e.registry s seen) (hs : e.backend = some s)
    (native : NativeId) {handle : Handle} {rooted : Bool} {x : ω}
    (hx : (C.heap s).target handle = some x) (hseen : ¬ seen x)
    (hroot : (C.heap s).rooted handle ↔ rooted = true) :
    let dismissed := (Engine.dismissPrevious native e).2
    let e' := { dismissed with registry := (dismissed.registry.insert native handle rooted).2 }
    C.Aligned e' (fun y ↦ seen y ∨ y = x) ∧ C.Wrapped e' x := by
  obtain ⟨t, ht, hstep, hnew, hx', hroot'⟩ := h.dismissPrevious hs native hx hseen
  exact hstep.register ht hnew hx' hseen (hroot'.trans hroot)

/-- Wrapping makes one wrapper more at most, of an object that was never wrapped. -/
theorem InStep.wrapNative (h : C.InStep e.registry s seen) (hs : e.backend = some s)
    (native : NativeId) {handle : Handle} (rooted : Bool) {x : ω}
    (hx : (C.heap s).target handle = some x) (hrooted : (C.heap s).rooted handle)
    (hseen : ¬ seen x) :
    C.Aligned (wrapNative native handle rooted e).2 seen ∨
      C.Aligned (wrapNative native handle rooted e).2 (fun y ↦ seen y ∨ y = x) ∧
        C.Wrapped (wrapNative native handle rooted e).2 x := by
  rw [wrapNative_eq]
  rcases e.wrappedAs? native handle with _ | id
  · dsimp only
    cases rooted with
    | true =>
      rw [settleRoot_true, hs]
      exact .inr (h.replace hs native hx hseen (iff_of_true hrooted rfl))
    | false =>
      have hfollows := C.unroot handle h.alive
      have hissued := h.sound.issued_of_target hx
      rw [settleRoot_false, ask_some hs]
      dsimp only
      split
      · next hresult =>
        rw [hresult] at hfollows
        exact .inl ((inStep_of_follows h.lockstep h.sound.toRecorded hfollows).aligned rfl)
      · next hresult =>
        rw [hresult] at hfollows
        have hunrooted : Lockstep e.registry ((C.heap s).withoutRoot handle) seen :=
          h.lockstep.reroot fun hw ↦ and_iff_right (h.lockstep.handle_ne hw hx hseen).symm
        have hstep : C.InStep (e.heard (.unroot handle) (Backend.unroot handle s)).registry
            (Backend.unroot handle s).state seen :=
          inStep_of_follows hunrooted h.sound.toRecorded.withoutRoot hfollows
        have hlost : ¬ (C.heap (Backend.unroot handle s).state).rooted handle :=
          fun hold ↦ ((hfollows.drift.rooted hissued).mp hold).1 rfl
        exact .inr (hstep.replace rfl native ((hfollows.drift.target hissued).trans hx) hseen
          (iff_of_false hlost (by simp)))
  · exact .inl (h.aligned hs)

theorem InStep.createObject (h : C.InStep e.registry s seen) (hs : e.backend = some s)
    (native : NativeId) : C.Aligned (Engine.createObject native e).2 seen ∨
      ∃ x, C.Aligned (Engine.createObject native e).2 (fun y ↦ seen y ∨ y = x) ∧
        C.Wrapped (Engine.createObject native e).2 x := by
  have hstep : C.InStep (e.heard .createObject (Backend.createObject s)).registry
      (Backend.createObject s).state seen :=
    inStep_of_follows h.lockstep h.sound.toRecorded (C.createObject h.alive)
  rw [createObject_eq, ask_some hs]
  dsimp only
  split
  · exact .inl (hstep.aligned rfl)
  · next handle hresult =>
    obtain ⟨x, -, hmade, hx, hrooted⟩ := C.created h.alive hresult
    have hseen : ¬ seen x := fun hold ↦ hmade (h.lockstep.made hold)
    rcases hstep.wrapNative rfl native true hx hrooted hseen with hsame | hwrapped
    · exact .inl hsame
    · exact .inr ⟨x, hwrapped⟩

/-! ## Scripts and collections -/

theorem InStep.askReporting? (h : C.InStep e.registry s seen) (hs : e.backend = some s)
    (hcleanup : e.inCleanup = false) (call : Call) {f : σ → Report σ α}
    (hreport : C.Evaluates (C.heap s) (f s)) :
    C.Aligned (Engine.askReporting? call f e).2 seen := by
  rw [askReporting?_some hs]
  apply InStep.aligned rfl
  have hrun := inStep_run hreport h.lockstep h.sound.toRecorded (e.trace ++ [.call call])
  rw [← hcleanup] at hrun
  exact hrun

theorem InStep.executeSource (h : C.InStep e.registry s seen) (hs : e.backend = some s)
    (hcleanup : e.inCleanup = false) (source : Script.Source) (file : Option String) :
    C.Aligned (Engine.executeSource source file e).2 seen :=
  (h.askReporting? hs hcleanup _ (C.evaluate source _ h.alive)).quiet
    (executeSource_quiet source file e)

/-! ## All operations -/

/-- What an operation asks for: a handle to wrap that is rooted, and whose object was never wrapped,
and that the backend does not refuse to root or unroot a wrapper. -/
def Admissible (C : Contract σ ω) (e : Engine σ) (seen : ω → Prop) : Operation → Prop
  | .wrapNative native handle _ => (e.wrappedAs? native handle).isSome ∨
    ∀ s, e.backend = some s → ∃ x, (C.heap s).target handle = some x ∧ (C.heap s).rooted handle ∧
      ¬ seen x
  | .rootObject native => (rootObject native e).1 = .ok ()
  | .unrootObject native => (unrootObject native e).1 = .ok ()
  | _ => True

/-- The objects that were ever wrapped, after an operation. -/
def Seen (C : Contract σ ω) (e : Engine σ) (seen : ω → Prop) (x : ω) : Prop :=
  seen x ∨ C.Wrapped e x

theorem Aligned.seen_of_wrapped (h : C.Aligned e seen) {x : ω} (hx : C.Wrapped e x) : seen x := by
  obtain ⟨s, id, w, hs, hw, hx⟩ := hx
  obtain ⟨y, hy, hseen⟩ := (h hs).lockstep.object hw
  cases hx.symm.trans hy
  exact hseen

theorem Aligned.kept (h : C.Aligned e seen) : C.Aligned e (C.Seen e seen) := by
  have hsame : C.Seen e seen = seen :=
    funext fun x ↦ propext ⟨fun hx ↦ hx.elim id h.seen_of_wrapped, .inl⟩
  rwa [hsame]

theorem Aligned.grown {x : ω} (h : C.Aligned e fun y ↦ seen y ∨ y = x) (hx : C.Wrapped e x) :
    C.Aligned e (C.Seen e seen) := by
  have hsame : C.Seen e seen = fun y ↦ seen y ∨ y = x := by
    funext y
    refine propext ⟨fun hy ↦ hy.elim .inl h.seen_of_wrapped, fun hy ↦ ?_⟩
    rcases hy with hy | rfl
    · exact .inl hy
    · exact .inr hx
  rwa [hsame]

/-- Every admissible operation leaves the engine in step with its backend. -/
theorem Aligned.performSimple (h : C.Aligned e seen) (hformed : WellFormed e) {op : Operation}
    (hop : C.Admissible e seen op) :
    C.Aligned (performSimple op e).2 (C.Seen (Engine.performSimple op e).2 seen) := by
  cases hs : e.backend with
  | none => exact (h.quiet (quiet_of_spent (hformed.spent hs) op)).kept
  | some s =>
    have hstep := h hs
    cases op with
    | cleanup =>
      have hvalid : e.isValid = true := by rw [hformed.isValid, hs]; rfl
      exact aligned_of_none (cleanup_of_valid hvalid).backend
    | executeBuffer bytes file =>
      rw [Engine.performSimple, run_map]
      apply Aligned.kept
      dsimp only
      rw [executeBuffer_snd]
      split
      · exact hstep.executeSource hs hformed.inCleanup _ file
      · exact h
    | executeSource source file =>
      rw [Engine.performSimple, run_map]
      exact (hstep.executeSource hs hformed.inCleanup source file).kept
    | collectGarbage =>
      have hreport := (C.collect hstep.alive).evaluates
      exact (hstep.askReporting? hs hformed.inCleanup .collect hreport).kept
    | releaseValue value => exact (hstep.releaseValue hs value).kept
    | retain owner target =>
      rw [Engine.performSimple, run_return]
      exact (hstep.retain hs owner target).kept
    | unretain owner target =>
      rw [Engine.performSimple, run_return]
      exact (hstep.unretain hs owner target).kept
    | wrapNative native handle rooted =>
      rw [Engine.performSimple, run_map]
      rcases hop with hpresent | hnew
      · obtain ⟨id, hid⟩ := Option.isSome_iff_exists.mp hpresent
        rw [wrapNative_eq, hid]
        exact h.kept
      · obtain ⟨x, hx, hrooted, hseen⟩ := hnew s hs
        rcases hstep.wrapNative hs native rooted hx hrooted hseen with hsame | ⟨hgrown, hwrapped⟩
        · exact hsame.kept
        · exact hgrown.grown hwrapped
    | createObject native =>
      rw [Engine.performSimple, run_map]
      rcases hstep.createObject hs native with hsame | ⟨x, hgrown, hwrapped⟩
      · exact hsame.kept
      · exact hgrown.grown hwrapped
    | rootObject native =>
      rw [Engine.performSimple, run_return]
      exact (hstep.rootObject hs hop).kept
    | unrootObject native =>
      rw [Engine.performSimple, run_return]
      exact (hstep.unrootObject hs hop).kept
    | setPrivateData native payload =>
      rw [Engine.performSimple, run_return]
      exact (hstep.setPrivateData hs native payload).kept
    | _ => exact (h.quiet (quietly_performSimple rfl e)).kept

end ScriptBridge.Contract
