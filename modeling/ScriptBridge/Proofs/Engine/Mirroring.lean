import ScriptBridge.Proofs.Engine.Calling
import ScriptBridge.Proofs.Engine.Reachable

/-!
# Root counts are mirrored once

A wrapper's handle is rooted when its count leaves zero and unrooted when the count comes back to
zero, and at no other time. No operation but a cleanup makes another call of this kind for the
handle of a wrapper that is there already, as long as handles are not shared.
-/

namespace ScriptBridge

/-- The call roots or unroots the handle. -/
def Call.moves (handle : Handle) : Call → Bool
  | .root h | .unroot h => h == handle
  | _ => false

/-- The calls that a count asks for as it moves. -/
def rootMoves (handle : Handle) (before after : Nat) : List Call :=
  if before = 0 ∧ 0 < after then [.root handle]
  else if 0 < before ∧ after = 0 then [.unroot handle]
  else []

theorem rootMoves_self (handle : Handle) (count : Nat) : rootMoves handle count count = [] := by
  rw [rootMoves, if_neg (by omega), if_neg (by omega)]

/-- All of these calls are about the one handle. -/
theorem moves_of_mem_rootMoves {handle : Handle} {before after : Nat} {call : Call}
    (h : call ∈ rootMoves handle before after) (asked : Handle) :
    call.moves asked = (handle == asked) := by
  unfold rootMoves at h
  split at h
  · rw [List.mem_singleton.mp h]
    rfl
  · split at h
    · rw [List.mem_singleton.mp h]
      rfl
    · cases h

theorem filter_rootMoves (handle asked : Handle) (before after : Nat) :
    (rootMoves handle before after).filter (Call.moves asked) =
      if handle = asked then rootMoves handle before after else [] := by
  split
  · next hsame =>
    rw [List.filter_eq_self]
    intro call hmem
    rw [moves_of_mem_rootMoves hmem, hsame, beq_self_eq_true]
  · next hne =>
    rw [List.filter_eq_nil_iff]
    intro call hmem
    rw [moves_of_mem_rootMoves hmem, beq_iff_eq]
    exact hne

namespace Engine

variable {σ : Type} {e e' : Engine σ} {id : WrapperId} {w : Wrapper}

/-- The roots and unroots of a handle from one engine to a later one. -/
def movesSince (handle : Handle) (e e' : Engine σ) : List Call :=
  (callsSince e e').filter (Call.moves handle)

theorem movesSince_of_makes {handle : Handle}
    (h : Makes (fun call ↦ call.moves handle = false) e e') : movesSince handle e e' = [] := by
  rw [movesSince, List.filter_eq_nil_iff]
  intro call hmem
  rw [h.of_mem_callsSince hmem]
  exact Bool.false_ne_true

/-- Every wrapper there was is mirrored: its handle was rooted and unrooted as its count asks. -/
def Mirrored (e e' : Engine σ) : Prop :=
  ∀ ⦃id w⦄, e.registry.get? id = some w → movesSince w.handle e e' =
    match e'.registry.get? id with
    | some w' => rootMoves w.handle w.roots w'.roots
    | none => []

/-- No root of a wrapper is moved, and its count stays. -/
structure Still (id : WrapperId) (w : Wrapper) (e e' : Engine σ) : Prop where
  makes : Makes (fun call ↦ call.moves w.handle = false) e e'
  roots : ∀ ⦃w'⦄, e'.registry.get? id = some w' → w'.roots = w.roots

theorem Still.mirrored (h : Still id w e e') : movesSince w.handle e e' =
    match e'.registry.get? id with
    | some w' => rootMoves w.handle w.roots w'.roots
    | none => [] := by
  rw [movesSince_of_makes h.makes]
  split
  · next w' hw' => rw [h.roots hw', rootMoves_self]
  · rfl

theorem roots_eq (hw : e.registry.get? id = some w) ⦃w' : Wrapper⦄
    (hw' : e.registry.get? id = some w') : w'.roots = w.roots := by
  cases hw.symm.trans hw'
  rfl

/-- Whoever keeps the registry moves no count. -/
theorem Still.of_registry (hw : e.registry.get? id = some w)
    (hmakes : Makes (fun call ↦ call.moves w.handle = false) e e')
    (hregistry : e'.registry = e.registry) : Still id w e e' :=
  ⟨hmakes, fun _ hw' ↦ roots_eq hw (hregistry ▸ hw')⟩

variable [Backend σ]

theorem Quiet.still (h : Quiet e e') (hw : e.registry.get? id = some w) : Still id w e e' :=
  .of_registry hw (h.makes fun hcall ↦ by cases hcall <;> rfl) h.registry

omit [Backend σ] in
theorem Prunes.still {call : Call} (h : Prunes call e e') (hr : e.registry.Coherent)
    (hcall : call.moves w.handle = false) (hw : e.registry.get? id = some w) :
    Still id w e e' := by
  obtain ⟨ids, hregistry, hmakes⟩ := h.pruned
  constructor
  · apply hmakes.mono
    rintro c (rfl | hweak)
    · exact hcall
    · cases hweak with
      | decides hdecides => obtain ⟨_, rfl | rfl⟩ := hdecides <;> rfl
      | forget => rfl
  · intro w' hw'
    rw [hregistry] at hw'
    obtain ⟨-, v, hv, rfl⟩ := hr.of_get?_removeAll hw'
    cases hw.symm.trans hv
    exact (Wrapper.sameRecord_withoutAll ids w).roots

theorem still_executeSource (hr : e.registry.Coherent) (hw : e.registry.get? id = some w)
    (source : Script.Source) (file : Option String) :
    Still id w e (executeSource source file e).2 := by
  have hpruned := (askReporting?_prunes hr (.evaluate source (e.fileName file))
    (Backend.evaluate source (e.fileName file))).still hr rfl hw
  have hquiet := executeSource_quiet source file e
  constructor
  · exact hpruned.makes.trans (hquiet.makes fun hcall ↦ by cases hcall <;> rfl)
  · intro w' hw'
    rw [hquiet.registry] at hw'
    exact hpruned.roots hw'

theorem still_retain (hw : e.registry.get? id = some w) (owner target : NativeId) :
    Still id w e (retain owner target e).2 := by
  constructor
  · exact makes_retain (P := (Call.moves w.handle · = false)) rfl (fun _ _ ↦ rfl) owner target e
  have hcleared := (quietly_clearException e).registry
  rw [retain_eq]
  rcases e.endpoints? owner target with _ | ends
  · exact roots_eq hw
  · dsimp only
    split
    · intro w' hw'
      simp only [registry_ask, hcleared] at hw'
      obtain ⟨v, hv, hsame⟩ := Registry.sameRecord_of_attach hw'
      exact hsame.roots.trans (roots_eq hw hv)
    · split <;> simpa only [registry_ask, hcleared] using roots_eq hw

theorem still_unretain (hw : e.registry.get? id = some w) (owner target : NativeId) :
    Still id w e (unretain owner target e).2 := by
  constructor
  · exact makes_unretain (P := (Call.moves w.handle · = false)) rfl (fun _ _ ↦ rfl) owner target e
  have hcleared := (quietly_clearException e).registry
  have hdetached : ∀ {o t} ⦃w'⦄, (e.registry.detach o t).2.get? id = some w' →
      w'.roots = w.roots := by
    intro o t w' hw'
    obtain ⟨v, hv, hsame, -⟩ := Registry.of_get?_detach hw'
    exact hsame.roots.trans (roots_eq hw hv)
  rw [unretain_eq]
  rcases e.endpoints? owner target with _ | ends
  · exact roots_eq hw
  · dsimp only
    split
    · simpa only [registry_ask, hcleared] using hdetached
    · split
      · simpa only [registry_ask, hcleared] using hdetached
      · simpa only [registry_ask, hcleared] using roots_eq hw

theorem still_setPrivateData (hw : e.registry.get? id = some w) (native : NativeId)
    (payload : Payload) : Still id w e (setPrivateData native payload e).2 := by
  constructor
  · exact makes_setPrivateData (fun _ _ ↦ rfl) native payload e
  rw [setPrivateData_eq]
  rcases e.current? native with _ | ⟨other, v⟩
  · exact roots_eq hw
  · dsimp only
    split
    · intro w' hw'
      simp only [registry_ask, Registry.markPrivateData, Registry.get?_modify, hw] at hw'
      split at hw' <;> cases hw' <;> rfl
    · simpa only [registry_ask] using roots_eq hw

omit [Backend σ] in
theorem roots_withoutPrevious (hr : e.registry.Coherent) (hw : e.registry.get? id = some w)
    {native : NativeId} {v : Wrapper} (hv : (e.withoutPrevious native).get? id = some v) :
    v.roots = w.roots := by
  unfold withoutPrevious at hv
  split at hv
  · exact roots_eq hw hv
  · obtain ⟨-, u, hu, rfl⟩ := hr.of_get?_remove hv
    have hsame := roots_eq hw hu
    exact hsame

omit [Backend σ] in
theorem next_withoutPrevious (e : Engine σ) (native : NativeId) :
    (e.withoutPrevious native).next = e.registry.next := by
  unfold withoutPrevious
  split
  · rfl
  · exact Registry.next_remove e.registry _

/-- Wrapping moves no root of a wrapper that has another handle. -/
theorem still_wrapNative (hr : e.registry.Orderly) (hw : e.registry.get? id = some w)
    (native : NativeId) {handle : Handle} {rooted : Bool}
    (hne : rooted = false → handle ≠ w.handle) :
    Still id w e (wrapNative native handle rooted e).2 := by
  have hunroot : rooted = false → (Call.unroot handle).moves w.handle = false := by
    simpa [Call.moves] using hne
  rcases wrapNative_cases native handle rooted e with ⟨hregistry, hcalls⟩ | ⟨-, hregistry, hcalls⟩
  · refine .of_registry hw (hcalls.mono ?_) hregistry
    rintro call ⟨hrooted, rfl⟩
    exact hunroot hrooted
  · constructor
    · apply hcalls.mono
      rintro call (⟨hrooted, rfl⟩ | ⟨_, _, -, rfl⟩)
      · exact hunroot hrooted
      · rfl
    · intro w' hw'
      rw [hregistry, Registry.get?_insert, next_withoutPrevious,
        if_neg (hr.coherent.ne_next hw)] at hw'
      exact roots_withoutPrevious hr.coherent hw hw'

theorem still_createObject (hr : e.registry.Orderly) (hw : e.registry.get? id = some w)
    (native : NativeId) : Still id w e (createObject native e).2 := by
  have hregistry := registry_ask .createObject Backend.createObject e
  have hasked : Makes (fun call ↦ call.moves w.handle = false) e
      (ask .createObject Backend.createObject e).2 :=
    Makes.ask? (P := (Call.moves w.handle · = false)) rfl _ e
  rw [createObject_eq]
  dsimp only
  split
  · exact .of_registry hw hasked hregistry
  · next handle _ =>
    rw [← hregistry] at hr hw
    obtain ⟨hmakes, hroots⟩ : Still id w _ (wrapNative native handle true _).2 :=
      still_wrapNative hr hw native (by simp)
    exact ⟨hasked.trans hmakes, hroots⟩

/-! ## Counts that move -/

omit [Backend σ] in
/-- One count has moved, and exactly the calls that it asks for were made. -/
theorem Mirrored.of_modify (hr : e.registry.Indexed) {other : WrapperId} {v : Wrapper}
    (hv : e.registry.get? other = some v) {f : Wrapper → Wrapper}
    (hregistry : e'.registry = e.registry.modify other f)
    (hcalls : callsSince e e' = rootMoves v.handle v.roots (f v).roots) : Mirrored e e' := by
  intro id w hw
  rw [movesSince, hcalls, filter_rootMoves, hregistry, Registry.get?_modify, hw]
  by_cases hid : other = id
  · subst hid
    cases hw.symm.trans hv
    rw [if_pos rfl, if_pos rfl]
    rfl
  · have hne : v.handle ≠ w.handle := fun hsame ↦ hid (hr.id_eq hw hv hsame)
    rw [if_neg hne, if_neg hid]
    exact (rootMoves_self w.handle w.roots).symm

theorem mirrored_rootObject (hr : e.registry.Indexed) {s : σ} (hs : e.backend = some s)
    (native : NativeId) : Mirrored e (rootObject native e).2 := by
  rw [rootObject_eq]
  rcases hcur : e.current? native with _ | ⟨id, w⟩
  · exact fun _ _ hw ↦ (Still.of_registry hw (.refl e) rfl).mirrored
  have hw := (current?_eq_some_iff.mp hcur).2
  dsimp only
  split
  · next hzero =>
    rw [ask_some (e := { e with registry := (e.registry.root id).2 }) hs]
    refine Mirrored.of_modify hr hw (f := Wrapper.addRoot) rfl ?_
    rw [callsSince_eq rfl]
    simp [rootMoves, hzero, w.roots_addRoot_pos]
  · next hzero =>
    refine Mirrored.of_modify hr hw (f := Wrapper.addRoot) rfl ?_
    refine (callsSince_of_trace rfl).trans ?_
    simp [rootMoves, hzero, Nat.ne_of_gt w.roots_addRoot_pos]

theorem mirrored_unrootObject (hr : e.registry.Indexed) {s : σ} (hs : e.backend = some s)
    (native : NativeId) : Mirrored e (unrootObject native e).2 := by
  rw [unrootObject_eq]
  rcases hcur : e.current? native with _ | ⟨id, w⟩
  · exact fun _ _ hw ↦ (Still.of_registry hw (.refl e) rfl).mirrored
  have hw := (current?_eq_some_iff.mp hcur).2
  dsimp only
  split
  · exact fun _ _ hw ↦ (Still.of_registry hw (.refl e) rfl).mirrored
  · next hzero =>
    split
    · next hone =>
      rw [ask_some (e := { e with registry := (e.registry.unroot id).2 }) hs]
      refine Mirrored.of_modify hr hw (f := Wrapper.dropRoot) rfl ?_
      rw [callsSince_eq rfl]
      simp [rootMoves, hone]
    · next hone =>
      refine Mirrored.of_modify hr hw (f := Wrapper.dropRoot) rfl ?_
      refine (callsSince_of_trace rfl).trans ?_
      have hmany : w.roots - 1 ≠ 0 := by omega
      simp [rootMoves, hzero, hmany]

/-! ## All operations -/

/-- Every operation but a cleanup mirrors all wrappers, unless it wraps the handle of one of them
for another native object. -/
theorem mirrored_performSimple (hr : e.registry.Orderly) (hindexed : e.registry.Indexed) {s : σ}
    (hs : e.backend = some s) {op : Operation} (hop : op ≠ .cleanup)
    (hwrap : ∀ native handle rooted, op = .wrapNative native handle rooted →
      e.wrappedAs? native handle = none → ∀ ⦃id w⦄, e.registry.get? id = some w →
        handle ≠ w.handle) :
    Mirrored e (performSimple op e).2 := by
  have hstill : (∀ ⦃id w⦄, e.registry.get? id = some w → Still id w e (performSimple op e).2) →
      Mirrored e (performSimple op e).2 := fun h id w hw ↦ (h hw).mirrored
  cases op with
  | cleanup => exact absurd rfl hop
  | executeBuffer bytes file =>
    apply hstill
    intro id w hw
    rw [performSimple, run_map, executeBuffer_snd]
    split
    · exact still_executeSource hr.coherent hw _ file
    · exact .of_registry hw (.refl e) rfl
  | executeSource source file =>
    apply hstill
    intro id w hw
    rw [performSimple, run_map]
    exact still_executeSource hr.coherent hw source file
  | collectGarbage =>
    exact hstill fun id w hw ↦
      (askReporting?_prunes hr.coherent .collect Backend.collect).still hr.coherent rfl hw
  | releaseValue value =>
    exact hstill fun id w hw ↦
      .of_registry hw (makes_releaseValue (fun _ ↦ rfl) value e) (registry_releaseValue value e)
  | retain owner target =>
    apply hstill
    intro id w hw
    rw [performSimple, run_return]
    exact still_retain hw owner target
  | unretain owner target =>
    apply hstill
    intro id w hw
    rw [performSimple, run_return]
    exact still_unretain hw owner target
  | wrapNative native handle rooted =>
    apply hstill
    intro id w hw
    rw [performSimple, run_map]
    cases hpresent : e.wrappedAs? native handle with
    | none =>
      exact still_wrapNative hr hw native fun _ ↦ hwrap native handle rooted rfl hpresent hw
    | some id =>
      rw [wrapNative_eq, hpresent]
      exact .of_registry hw (.refl e) rfl
  | createObject native =>
    apply hstill
    intro id w hw
    rw [performSimple, run_map]
    exact still_createObject hr hw native
  | rootObject native =>
    rw [performSimple, run_return]
    exact mirrored_rootObject hindexed hs native
  | unrootObject native =>
    rw [performSimple, run_return]
    exact mirrored_unrootObject hindexed hs native
  | setPrivateData native payload =>
    apply hstill
    intro id w hw
    rw [performSimple, run_return]
    exact still_setPrivateData hw native payload
  | _ => exact hstill fun id w hw ↦ (quietly_performSimple rfl e).still hw

end Engine

end ScriptBridge
