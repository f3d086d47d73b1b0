import ScriptBridge.Proofs.Engine.Calling
import ScriptBridge.Proofs.Engine.Reachable

/-!
# Handles that somebody still owns

A wrapper owns its handle, and the engine owns that of its global object. No operation should have
the backend release a handle that is owned when the operation is done. This holds as long as handles
are exclusive: every wrapper is the one its handle leads to, and none has the handle of the global
object. Wrapping one script object for two native objects, or wrapping the global object, breaks it,
and from then on there is always an operation that gives an owned handle away.
-/

namespace ScriptBridge

/-- The handle that a call gives back to the backend. -/
def Call.givenBack? : Call → Option Handle
  | .release handle | .forget handle => some handle
  | _ => none

namespace Engine

variable {σ : Type}

/-- A wrapper or the engine itself has the handle. -/
def Owned (e : Engine σ) (handle : Handle) : Prop :=
  e.global = some handle ∨ ∃ id w, e.registry.get? id = some w ∧ w.handle = handle

/-- No handle is owned twice. -/
structure Exclusive (e : Engine σ) : Prop where
  indexed : e.registry.Indexed
  global_ne : ∀ {id w}, e.registry.get? id = some w → e.global ≠ some w.handle

/-- What a call gives back is not owned. -/
def Unowned (e : Engine σ) (call : Call) : Prop :=
  ∀ handle, call.givenBack? = some handle → ¬ Owned e handle

/-- What was given back from one engine to a later one is no longer owned. -/
def Careful (e e' : Engine σ) : Prop := Makes (Unowned e') e e'

variable {e e' : Engine σ} {native : NativeId} {handle : Handle} {rooted : Bool}

theorem unowned_of_none {call : Call} (h : call.givenBack? = none) : Unowned e call := by
  intro handle hsome
  rw [h] at hsome
  cases hsome

/-- Nothing was given back from one engine to a later one. -/
def GivesNothing (e e' : Engine σ) : Prop := Makes (fun call ↦ call.givenBack? = none) e e'

theorem GivesNothing.careful (h : GivesNothing e e') : Careful e e' :=
  h.mono fun _ ↦ unowned_of_none

theorem GivesNothing.ask? {α : Type} {call : Call} (h : call.givenBack? = none)
    (f : σ → Outcome σ α) (e : Engine σ) : GivesNothing e (ask? call f e).2 :=
  Makes.ask? (P := fun call ↦ call.givenBack? = none) h f e

variable [Backend σ]

theorem givenBack?_of_quietCall {call : Call} {s s' : σ} (h : QuietCall call s s') :
    call.givenBack? = none := by
  cases h <;> rfl

theorem Quiet.givesNothing (h : Quiet e e') : GivesNothing e e' := h.makes givenBack?_of_quietCall

/-! ## Exclusive handles are given back carefully -/

theorem careful_wrapNative (h : Exclusive e) (hr : e.registry.Coherent) (native : NativeId)
    (handle : Handle) (rooted : Bool) : Careful e (wrapNative native handle rooted e).2 := by
  have hglobal := (frame_wrapNative native handle rooted e).global
  rcases wrapNative_cases native handle rooted e with ⟨-, hcalls⟩ | ⟨hnot, hregistry, hcalls⟩
  · apply GivesNothing.careful
    apply hcalls.mono
    rintro call ⟨-, rfl⟩
    rfl
  · apply hcalls.mono
    rintro call (⟨-, rfl⟩ | ⟨id, w, hcur, rfl⟩) given hgiven
    · cases hgiven
    · cases hgiven
      obtain ⟨-, hw⟩ := current?_eq_some_iff.mp hcur
      have hprevious : e.withoutPrevious native = (e.registry.remove id).2 := by
        rw [withoutPrevious, hcur]
      rw [hprevious] at hregistry
      rintro (howned | ⟨other, v, hv, hsame⟩)
      · rw [hglobal] at howned
        exact h.global_ne hw howned
      · rw [hregistry, Registry.get?_insert] at hv
        split at hv
        · cases hv
          exact handle_ne_of_wrappedAs? hnot hcur hsame.symm
        · obtain ⟨hne, u, hu, rfl⟩ := hr.of_get?_remove hv
          exact hne (h.indexed.id_eq hw hu hsame)

theorem careful_askReporting? {α : Type} (h : Exclusive e) (hr : e.registry.Coherent) {call : Call}
    (hcall : call.givenBack? = none) (f : σ → Report σ α) :
    Careful e (askReporting? call f e).2 := by
  obtain ⟨hframe, ids, hregistry, hcalls⟩ := askReporting?_prunes hr call f
  apply hcalls.mono
  rintro c (rfl | hweak) given hgiven
  · rw [hcall] at hgiven
    cases hgiven
  · cases hweak with
    | decides hdecides =>
      obtain ⟨_, rfl | rfl⟩ := hdecides <;> cases hgiven
    | forget hid hw =>
      cases hgiven
      rintro (howned | ⟨other, v, hv, hsame⟩)
      · rw [hframe.global] at howned
        exact h.global_ne hw howned
      · rw [hregistry] at hv
        obtain ⟨hkept, u, hu, rfl⟩ := hr.of_get?_removeAll hv
        rw [(Wrapper.sameRecord_withoutAll ids u).handle] at hsame
        exact hkept (h.indexed.id_eq hw hu hsame ▸ hid)

theorem careful_createObject (h : Exclusive e) (hr : e.registry.Coherent) (native : NativeId) :
    Careful e (createObject native e).2 := by
  have hasked : GivesNothing e (ask .createObject Backend.createObject e).2 := .ask? rfl _ e
  have hregistry := registry_ask .createObject Backend.createObject e
  have hframe := frame_ask? .createObject Backend.createObject e
  rw [createObject_eq]
  dsimp only
  split
  · exact hasked.careful
  · have hexclusive : Exclusive (ask .createObject Backend.createObject e).2 :=
      ⟨hregistry ▸ h.indexed, fun hw ↦ hframe.global ▸ h.global_ne (hregistry ▸ hw)⟩
    exact (hasked.mono fun _ ↦ unowned_of_none).trans
      (careful_wrapNative hexclusive (hregistry ▸ hr) native _ true)

omit [Backend σ] in
/-- Whoever owns a handle exclusively is found by it. -/
theorem Exclusive.owns (h : Exclusive e) (howned : Owned e handle) : e.owns handle = true := by
  rw [Engine.owns, Bool.or_eq_true, beq_iff_eq]
  rcases howned with hglobal | ⟨id, w, hw, rfl⟩
  · exact .inl hglobal
  · exact .inr (by rw [h.indexed hw]; rfl)

theorem careful_releaseValue (h : Exclusive e) (value : Value) :
    Careful e (releaseValue value e).2 := by
  rw [releaseValue_eq]
  rcases value.asObject? with _ | handle
  · exact .refl e
  · dsimp only
    split
    · exact .refl e
    · next howns =>
      apply Makes.ask?
      rintro given hgiven howned
      cases hgiven
      rw [Owned, registry_ask?, (frame_ask? _ _ e).global] at howned
      exact howns (h.owns howned)

theorem Careful.quiet {e'' : Engine σ} (h : Careful e e') (hquiet : Quiet e' e'') :
    Careful e e'' := by
  have hkept : ∀ call, Unowned e' call → Unowned e'' call := by
    intro call hcall handle hgiven howned
    rw [Owned, hquiet.registry, hquiet.frame.global] at howned
    exact hcall handle hgiven howned
  exact (h.mono hkept).trans hquiet.givesNothing.careful

theorem careful_executeSource (h : Exclusive e) (hr : e.registry.Coherent)
    (source : Script.Source) (file : Option String) :
    Careful e (executeSource source file e).2 :=
  (careful_askReporting? h hr rfl _).quiet (executeSource_quiet source file e)

/-- With exclusive handles every operation is careful, a cleanup apart. -/
theorem careful_performSimple (h : Exclusive e) (hr : e.registry.Coherent) {op : Operation}
    (hop : op ≠ .cleanup) : Careful e (performSimple op e).2 := by
  cases op with
  | cleanup => exact absurd rfl hop
  | executeBuffer bytes file =>
    rw [performSimple, run_map, executeBuffer_snd]
    split
    · exact careful_executeSource h hr _ file
    · exact .refl e
  | executeSource source file =>
    rw [performSimple, run_map]
    exact careful_executeSource h hr source file
  | collectGarbage => exact careful_askReporting? h hr rfl Backend.collect
  | releaseValue value => exact careful_releaseValue h value
  | wrapNative native handle rooted =>
    rw [performSimple, run_map]
    exact careful_wrapNative h hr native handle rooted
  | createObject native =>
    rw [performSimple, run_map]
    exact careful_createObject h hr native
  | retain owner target =>
    rw [performSimple, run_return]
    exact GivesNothing.careful (makes_retain (P := (·.givenBack? = none)) rfl (fun _ _ ↦ rfl)
      owner target e)
  | unretain owner target =>
    rw [performSimple, run_return]
    exact GivesNothing.careful (makes_unretain (P := (·.givenBack? = none)) rfl (fun _ _ ↦ rfl)
      owner target e)
  | rootObject native =>
    rw [performSimple, run_return]
    exact GivesNothing.careful (makes_rootObject (fun _ ↦ rfl) native e)
  | unrootObject native =>
    rw [performSimple, run_return]
    exact GivesNothing.careful (makes_unrootObject (fun _ ↦ rfl) native e)
  | setPrivateData native payload =>
    rw [performSimple, run_return]
    exact GivesNothing.careful (makes_setPrivateData (fun _ _ ↦ rfl) native payload e)
  | _ => exact (quietly_performSimple rfl e).givesNothing.careful

/-! ## Shared handles are given away -/

/-- Wrapping a native object anew gives the handle of its wrapper back, and takes nothing else from
the registry. -/
theorem wrapNative_again (h : e.registry.Orderly) {s : σ} (hs : e.backend = some s)
    {id : WrapperId} {w : Wrapper} (hw : e.registry.get? id = some w) (hne : w.handle ≠ handle) :
    (wrapNative w.native handle true e).2.trace =
        e.trace ++ .call (.release w.handle) ::
          (Backend.release w.handle s).events.map Notice.event ∧
      (wrapNative w.native handle true e).2.registry =
        ((e.registry.remove id).2.insert w.native handle true).2 := by
  have hfind : e.registry.find? w.native = some id := h.mapped hw
  have hcur : e.current? w.native = some (id, w) := current?_eq_some_iff.mpr ⟨hfind, hw⟩
  have hnot : e.wrappedAs? w.native handle = none := by
    simp [Engine.wrappedAs?, hfind, hw, hne]
  have hsettled : settleRoot handle true e = (.ok (), e) := by
    rw [settleRoot_true, hs]
    rfl
  have hremoved : ({ e with registry := (e.registry.remove id).2 } : Engine σ).backend = some s :=
    hs
  rw [wrapNative_eq, hnot]
  dsimp only
  rw [hsettled]
  dsimp only
  rw [dismissPrevious_eq, hcur]
  dsimp only
  rw [ask?_some hremoved]
  exact ⟨rfl, rfl⟩

section Careful

variable (hcareful : ∀ op, op ≠ .cleanup → Careful e (performSimple op e).2)
  {id other : WrapperId} {w v : Wrapper}

include hcareful

/-- Unless the handle of a wrapper is its own, wrapping its native object anew gives it away. -/
theorem own_handle_of_careful (h : Reachable e) (hw : e.registry.get? id = some w) :
    e.global ≠ some w.handle ∧
      ∀ {other v}, e.registry.get? other = some v → v.handle = w.handle → other = id := by
  have hformed := h.wellFormed
  cases hs : e.backend with
  | none =>
    rw [(hformed.spent hs).vacant] at hw
    cases hw
  | some s =>
    let fresh : Handle := ⟨w.handle.index + 1⟩
    have hne : w.handle ≠ fresh := fun heq ↦ Nat.succ_ne_self _ (congrArg Handle.index heq).symm
    obtain ⟨htrace, hregistry⟩ := wrapNative_again hformed.orderly hs hw hne
    have hglobal := (frame_wrapNative w.native fresh true e).global
    have hunowned : ¬ Owned (wrapNative w.native fresh true e).2 w.handle := by
      have hop := hcareful (.wrapNative w.native fresh true) (by simp)
      rw [performSimple, run_map] at hop
      have hmem : .release w.handle ∈ callsSince e (wrapNative w.native fresh true e).2 := by
        rw [callsSince_eq htrace, callsOf_call]
        exact List.mem_cons_self
      exact hop.of_mem_callsSince hmem w.handle rfl
    refine ⟨fun howned ↦ hunowned (.inl (hglobal.trans howned)), fun {other v} hv hsame ↦ ?_⟩
    by_cases hother : other = id
    · exact hother
    exfalso
    have hkept : (e.registry.remove id).2.get? other = some (v.without id) := by
      rw [hformed.orderly.coherent.get?_remove_of_ne hother, hv]
      rfl
    apply hunowned (.inr ⟨other, v.without id, _, hsame⟩)
    rw [hregistry]
    exact (hformed.orderly.coherent.remove id).get?_insert_of_some _ _ _ hkept

/-- Unless a wrapper is found by its handle, releasing that handle as a value gives it away. -/
theorem found_of_careful (h : Reachable e) (hw : e.registry.get? id = some w) :
    e.registry.findByHandle? w.handle ≠ none := by
  intro hnone
  have hformed := h.wellFormed
  obtain ⟨hglobal, -⟩ := own_handle_of_careful hcareful h hw
  have howns : ¬ e.owns w.handle = true := by
    rw [Engine.owns, Bool.or_eq_true, beq_iff_eq, hnone]
    exact fun hor ↦ hor.elim hglobal (by simp)
  have hop := hcareful (.releaseValue (.object w.handle)) (by simp)
  have hrun : (performSimple (.releaseValue (.object w.handle)) e).2 =
      (ask? (.release w.handle) (Backend.release w.handle) e).2 := by
    rw [performSimple, run_return, run_surely, releaseValue_eq]
    dsimp only [Value.asObject?]
    rw [if_neg howns]
  rw [hrun] at hop
  cases hs : e.backend with
  | none =>
    rw [(hformed.spent hs).vacant] at hw
    cases hw
  | some s =>
    rw [ask?_some hs] at hop
    have hmem : .release w.handle ∈ callsSince e (e.heard (.release w.handle)
        (Backend.release w.handle s)) := by
      rw [callsSince_eq (trace_heard _ _ _), callsOf_call]
      exact List.mem_cons_self
    exact hop.of_mem_callsSince hmem w.handle rfl (.inr ⟨id, w, hw, rfl⟩)

end Careful

/-- An engine is careful whatever it does next, a cleanup apart, exactly if its handles are
exclusive. The backend may be any, and so may the wrapped handles. -/
theorem careful_iff_exclusive (h : Reachable e) :
    (∀ op, op ≠ .cleanup → Careful e (performSimple op e).2) ↔ Exclusive e := by
  have hcoherent := h.wellFormed.orderly.coherent
  constructor
  · intro hcareful
    refine ⟨fun id w hw ↦ ?_, fun hw ↦ (own_handle_of_careful hcareful h hw).1⟩
    cases hfound : e.registry.findByHandle? w.handle with
    | none => exact absurd hfound (found_of_careful hcareful h hw)
    | some other =>
      obtain ⟨v, hv, hsame⟩ := hcoherent.handle_of_findByHandle? hfound
      rw [(own_handle_of_careful hcareful h hw).2 hv hsame]
  · intro hexclusive op hop
    exact careful_performSimple hexclusive hcoherent hop

omit [Backend σ] in
/-- Handles stay exclusive as a wrapper gets one that nobody owns. -/
theorem Exclusive.insert (h : Exclusive e) (hnew : ¬ Owned e handle) (native : NativeId)
    (rooted : Bool) (hregistry : e'.registry = (e.registry.insert native handle rooted).2)
    (hglobal : e'.global = e.global) : Exclusive e' := by
  constructor
  · rw [hregistry]
    exact h.indexed.insert native rooted fun {id w} hw hsame ↦
      hnew (.inr ⟨id, w, hw, hsame.symm⟩)
  · intro id w hw
    rw [hglobal]
    rw [hregistry, Registry.get?_insert] at hw
    split at hw
    · cases hw
      exact fun howned ↦ hnew (.inl howned)
    · exact h.global_ne hw

/-- An engine with two wrappers. -/
def paired : Engine Rehearsal := performAll [.createObject ⟨1⟩, .createObject ⟨2⟩] rehearsed

theorem exclusive_paired : Exclusive paired := by
  let single := performAll [.createObject ⟨1⟩] rehearsed
  have hvacant (id : WrapperId) : rehearsed.registry.get? id = none := rfl
  have hrehearsed : Exclusive rehearsed := by
    constructor
    · intro id w hw
      rw [hvacant] at hw
      cases hw
    · intro id w hw
      rw [hvacant] at hw
      cases hw
  have hfirst : ¬ Owned rehearsed ⟨1⟩ := by
    rintro (⟨⟨⟩⟩ | ⟨id, w, hw, -⟩)
    rw [hvacant] at hw
    cases hw
  have hsingle : Exclusive single := hrehearsed.insert hfirst ⟨1⟩ true rfl rfl
  have hsecond : ¬ Owned single ⟨2⟩ := by
    rintro (⟨⟨⟩⟩ | ⟨id, w, hw, hhandle⟩)
    have hregistry : single.registry = (rehearsed.registry.insert ⟨1⟩ ⟨1⟩ true).2 := rfl
    rw [hregistry, Registry.get?_insert, hvacant] at hw
    split at hw <;> cases hw
    cases hhandle
  exact hsingle.insert hsecond ⟨2⟩ true rfl rfl

/-- As a native object is wrapped anew, the handle of its former wrapper is given back, and nobody
owns it any more. -/
theorem careful_paired :
    Exclusive paired ∧
      callsSince paired (performSimple (.createObject ⟨1⟩) paired).2 =
        [.createObject, .release ⟨1⟩] ∧
      Careful paired (performSimple (.createObject ⟨1⟩) paired).2 :=
  ⟨exclusive_paired, rfl, (careful_iff_exclusive (reachable_rehearsed.performAll _)).mpr
    exclusive_paired (.createObject ⟨1⟩) (by simp)⟩

/-- An engine with one script object for two native objects. -/
def sharing : Engine Rehearsal :=
  performAll [.createObject ⟨1⟩, .wrapNative ⟨2⟩ ⟨1⟩ true] rehearsed

/-- As one of the two native objects gets a script object of its own, the shared one is given away
under the other. -/
theorem shared_handle_given_away :
    Reachable sharing ∧
      callsSince sharing (performSimple (.createObject ⟨2⟩) sharing).2 =
        [.createObject, .release ⟨1⟩] ∧
      (performSimple (.createObject ⟨2⟩) sharing).2.objectHandle? ⟨1⟩ = some ⟨1⟩ ∧
      Owned (performSimple (.createObject ⟨2⟩) sharing).2 ⟨1⟩ :=
  ⟨reachable_rehearsed.performAll _, rfl, rfl, .inr ⟨⟨0⟩, _, rfl, rfl⟩⟩

end Engine

end ScriptBridge
