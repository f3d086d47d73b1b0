import Mathlib.Logic.Relation
import ScriptBridge.Proofs.Engine.Reachable
import ScriptBridge.Proofs.Engine.Verdicts

/-!
# A rooted wrapper stays

A native object that has a rooted wrapper has it until it is unrooted, wrapped again with another
handle, or the engine is cleaned up. Whatever else happens, the wrapper keeps its number and its
handle, and stays rooted; in particular no pass removes it, since a pass asks about unrooted
wrappers only.
-/

namespace ScriptBridge

namespace Registry

variable {r : Registry} {native other : NativeId} {handle : Handle} {id another : WrapperId}

/-- The native object has this wrapper, which has this handle and is rooted. -/
structure RootedAs (r : Registry) (native : NativeId) (handle : Handle) (id : WrapperId) :
    Prop where
  find : r.find? native = some id
  wrapper : ∃ w, r.get? id = some w ∧ w.handle = handle ∧ 0 < w.roots

namespace RootedAs

/-- The wrapper of another native object is another one. -/
theorem ne_of_find? (h : r.RootedAs native handle id) (hr : r.Coherent) (hne : other ≠ native)
    (hother : r.find? other = some another) : another ≠ id := by
  rintro rfl
  obtain ⟨w, hw, hnative⟩ := hr.native_of_find? h.find
  obtain ⟨v, hv, hnative'⟩ := hr.native_of_find? hother
  cases hw.symm.trans hv
  exact hne (hnative'.symm.trans hnative)

/-- A wrapper may be changed if it keeps its handle and, should it be this one, a root. -/
theorem modify (h : r.RootedAs native handle id) (changed : WrapperId) {f : Wrapper → Wrapper}
    (hhandle : ∀ w, (f w).handle = w.handle)
    (hroots : ∀ w, changed = id → 0 < w.roots → 0 < (f w).roots) :
    (r.modify changed f).RootedAs native handle id := by
  obtain ⟨w, hw, hsame, hpos⟩ := h.wrapper
  refine ⟨h.find, ?_⟩
  rw [get?_modify, hw]
  split
  · next hchanged => exact ⟨f w, rfl, (hhandle w).trans hsame, hroots w hchanged hpos⟩
  · exact ⟨w, rfl, hsame, hpos⟩

theorem root (h : r.RootedAs native handle id) (changed : WrapperId) :
    (r.root changed).2.RootedAs native handle id :=
  h.modify changed (fun _ ↦ rfl) fun w _ _ ↦ w.roots_addRoot_pos

theorem unroot (h : r.RootedAs native handle id) (hne : another ≠ id) :
    (r.unroot another).2.RootedAs native handle id :=
  h.modify another (fun _ ↦ rfl) fun _ hsame ↦ absurd hsame hne

theorem markPrivateData (h : r.RootedAs native handle id) (changed : WrapperId) :
    (r.markPrivateData changed).RootedAs native handle id :=
  h.modify changed (fun _ ↦ rfl) fun _ _ hpos ↦ hpos

theorem attach (h : r.RootedAs native handle id) (owner child : WrapperId) :
    (r.attach owner child).2.RootedAs native handle id := by
  rw [attach_snd]
  split
  · have howner := h.modify owner (f := Wrapper.addChild child) (fun _ ↦ rfl) fun _ _ hpos ↦ hpos
    exact howner.modify child (fun _ ↦ rfl) fun _ _ hpos ↦ hpos
  · exact h

theorem detach (h : r.RootedAs native handle id) (owner child : WrapperId) :
    (r.detach owner child).2.RootedAs native handle id := by
  rw [detach_snd]
  split
  · have howner := h.modify owner (f := Wrapper.dropChild child) (fun _ ↦ rfl) fun _ _ hpos ↦ hpos
    exact howner.modify child (fun _ ↦ rfl) fun _ _ hpos ↦ hpos
  · exact h

theorem insert (h : r.RootedAs native handle id) (hr : r.Coherent) (hne : other ≠ native)
    (given : Handle) (rooted : Bool) :
    (r.insert other given rooted).2.RootedAs native handle id := by
  obtain ⟨w, hw, hsame, hpos⟩ := h.wrapper
  refine ⟨?_, w, hr.get?_insert_of_some other given rooted hw, hsame, hpos⟩
  rw [find?_insert, if_neg hne]
  exact h.find

theorem removeAll (h : r.RootedAs native handle id) (hr : r.Coherent) {ids : List WrapperId}
    (hids : id ∉ ids) : (r.removeAll ids).RootedAs native handle id := by
  obtain ⟨w, hw, hsame, hpos⟩ := h.wrapper
  have hrecord := Wrapper.sameRecord_withoutAll ids w
  refine ⟨(hr.find?_removeAll_iff ids).mpr ⟨h.find, hids⟩, w.withoutAll ids, ?_,
    hrecord.handle.trans hsame, hrecord.roots ▸ hpos⟩
  rw [hr.get?_removeAll, if_neg hids, hw]
  rfl

theorem remove (h : r.RootedAs native handle id) (hr : r.Coherent) (hne : another ≠ id) :
    (r.remove another).2.RootedAs native handle id :=
  h.removeAll hr (show id ∉ [another] by simpa using hne.symm)

end RootedAs

end Registry

namespace Reconcile

variable {σ α : Type} [Backend σ] {r : Registry} {native : NativeId} {handle : Handle}
  {id : WrapperId}

/-- No pass outside a cleanup removes a rooted wrapper, whatever the backend answers. -/
theorem rootedAs_pass (h : r.RootedAs native handle id) (hr : r.Coherent) (state : σ) :
    (pass r false state).registry.RootedAs native handle id := by
  obtain ⟨gone, hverdicts⟩ := exists_verdicts r false (nodup_order hr (.refl r.nativeEntries))
    (⟨[], state, []⟩ : Visited σ)
  rw [pass, (passIn_verdicts hverdicts).1]
  refine h.removeAll hr fun hid ↦ ?_
  obtain ⟨⟨id', v⟩, hdoomed, rfl⟩ := List.mem_map.mp hid
  obtain ⟨hmem, hdooms⟩ := List.mem_filter.mp hdoomed
  obtain ⟨w, hw, -, hpos⟩ := h.wrapper
  cases hw.symm.trans (mem_known.mp hmem).2
  simp [dooms, Wrapper.isRooted, hpos] at hdooms

/-- Nor does a whole report. -/
theorem rootedAs_run (h : r.RootedAs native handle id) (hr : r.Coherent) (report : Report σ α)
    (trace : List Event) : (run false report r trace).registry.RootedAs native handle id := by
  induction report generalizing r trace with
  | done o => exact h
  | events es next ih => exact ih h hr _
  | phase p next ih => exact ih h hr _
  | update state resume ih =>
    obtain ⟨ids, hregistry, -⟩ := passIn_prunes r.nativeEntries r false state
    have hcoherent : (pass r false state).registry.Coherent := by
      rw [pass, hregistry]
      exact hr.removeAll ids
    exact ih _ (rootedAs_pass h hr state) hcoherent _

end Reconcile

/-- The operation may end it that the native object has a rooted wrapper with this handle. -/
def Operation.Unsettles (native : NativeId) (handle : Handle) : Operation → Prop
  | .cleanup => True
  | .unrootObject other | .createObject other => other = native
  | .wrapNative other given _ => other = native ∧ given ≠ handle
  | _ => False

namespace Engine

variable {σ α : Type} [Backend σ] {e e' : Engine σ} {native other : NativeId} {handle : Handle}
  {id : WrapperId}

omit [Backend σ] in
theorem wrappedAs?_of_rootedAs (h : e.registry.RootedAs native handle id) :
    e.wrappedAs? native handle = some id := by
  obtain ⟨w, hw, hsame, -⟩ := h.wrapper
  simp [wrappedAs?, h.find, hw, hsame]

theorem rootedAs_askReporting? (h : e.registry.RootedAs native handle id)
    (hr : e.registry.Coherent) (hcleanup : e.inCleanup = false) (call : Call)
    (f : σ → Report σ α) :
    (askReporting? call f e).2.registry.RootedAs native handle id := by
  cases hs : e.backend with
  | none => rwa [askReporting?_none hs]
  | some s =>
    rw [askReporting?_some hs]
    change (e.follow call (f s)).registry.RootedAs native handle id
    rw [follow, hcleanup]
    exact Reconcile.rootedAs_run h hr _ _

theorem rootedAs_executeSource (h : e.registry.RootedAs native handle id)
    (hr : e.registry.Coherent) (hcleanup : e.inCleanup = false) (source : Script.Source)
    (file : Option String) :
    (executeSource source file e).2.registry.RootedAs native handle id := by
  rw [(executeSource_quiet source file e).registry]
  exact rootedAs_askReporting? h hr hcleanup _ _

omit [Backend σ] in
theorem rootedAs_withoutPrevious (h : e.registry.RootedAs native handle id)
    (hr : e.registry.Coherent) (hne : other ≠ native) :
    (e.withoutPrevious other).RootedAs native handle id ∧ (e.withoutPrevious other).Coherent := by
  rw [withoutPrevious]
  rcases hcurrent : e.current? other with _ | ⟨another, w⟩
  · exact ⟨h, hr⟩
  · have hfind := (current?_eq_some_iff.mp hcurrent).1
    exact ⟨h.remove hr (h.ne_of_find? hr hne hfind), hr.remove another⟩

/-- Wrapping another native object, or the same one with the same handle. -/
theorem rootedAs_wrapNative (h : e.registry.RootedAs native handle id)
    (hr : e.registry.Coherent) {given : Handle} (hsame : other = native → given = handle)
    (rooted : Bool) :
    (wrapNative other given rooted e).2.registry.RootedAs native handle id := by
  obtain ⟨hregistry, -⟩ | ⟨hnew, hregistry, -⟩ := wrapNative_cases other given rooted e
  · rwa [hregistry]
  · have hne : other ≠ native := by
      rintro rfl
      rw [hsame rfl, wrappedAs?_of_rootedAs h] at hnew
      cases hnew
    obtain ⟨hleft, hcoherent⟩ := rootedAs_withoutPrevious h hr hne
    rw [hregistry]
    exact hleft.insert hcoherent hne given rooted

/-- The step: a rooted wrapper is left alone by every operation that does not unsettle it. -/
theorem rootedAs_performSimple (hwf : WellFormed e) (h : e.registry.RootedAs native handle id)
    {op : Operation} (hop : ¬ op.Unsettles native handle) :
    (performSimple op e).2.registry.RootedAs native handle id := by
  have hr := hwf.orderly.coherent
  have hcleanup := hwf.inCleanup
  cases op with
  | cleanup => exact absurd trivial hop
  | executeBuffer bytes file =>
    rw [performSimple, run_map, executeBuffer_snd]
    split
    · exact rootedAs_executeSource h hr hcleanup _ file
    · exact h
  | executeSource source file =>
    rw [performSimple, run_map]
    exact rootedAs_executeSource h hr hcleanup source file
  | collectGarbage => exact rootedAs_askReporting? h hr hcleanup .collect Backend.collect
  | releaseValue value => exact (registry_releaseValue value e).symm ▸ h
  | retain owner target =>
    have hcleared := (quietly_clearException e).registry
    rw [performSimple, run_return, retain_eq]
    rcases e.endpoints? owner target with _ | ends
    · exact h
    · dsimp only
      split
      · simp only [registry_ask, hcleared]
        exact h.attach ends.owner ends.target
      · split <;> simpa only [registry_ask, hcleared] using h
  | unretain owner target =>
    have hcleared := (quietly_clearException e).registry
    rw [performSimple, run_return, unretain_eq]
    rcases e.endpoints? owner target with _ | ends
    · exact h
    · have hdetached := h.detach ends.owner ends.target
      dsimp only
      split
      · simpa only [registry_ask, hcleared] using hdetached
      · split
        · simpa only [registry_ask, hcleared] using hdetached
        · simpa only [registry_ask, hcleared] using h
  | wrapNative other given rooted =>
    rw [performSimple, run_map]
    exact rootedAs_wrapNative h hr (fun hsame ↦ not_not.mp fun hne ↦ hop ⟨hsame, hne⟩) rooted
  | createObject other =>
    have hask := registry_ask .createObject Backend.createObject e
    rw [performSimple, run_map, createObject_eq]
    dsimp only
    split
    · rwa [hask]
    · exact rootedAs_wrapNative (hask ▸ h) (hask ▸ hr) (fun hsame ↦ absurd hsame hop) true
  | rootObject other =>
    rw [performSimple, run_return, rootObject_eq]
    rcases e.current? other with _ | ⟨another, w⟩
    · exact h
    · dsimp only
      split
      · rw [registry_ask]
        exact h.root another
      · exact h.root another
  | unrootObject other =>
    rw [performSimple, run_return, unrootObject_eq]
    rcases hcurrent : e.current? other with _ | ⟨another, w⟩
    · exact h
    · have hne := h.ne_of_find? hr hop (current?_eq_some_iff.mp hcurrent).1
      dsimp only
      split
      · exact h
      · split
        · rw [registry_ask]
          exact h.unroot hne
        · exact h.unroot hne
  | setPrivateData other payload =>
    rw [performSimple, run_return, setPrivateData_eq]
    rcases e.current? other with _ | ⟨another, w⟩
    · exact h
    · dsimp only
      split <;> simp only [registry_ask]
      · exact h.markPrivateData another
      · exact h
  | _ => rwa [(quietly_performSimple rfl e).registry]

/-! ## From one move to many -/

/-- What can happen to an engine at one go, short of what unsettles a rooted wrapper. -/
inductive Sparing (native : NativeId) (handle : Handle) : Engine σ → Engine σ → Prop
  | operate (op : Operation) (hop : ¬ op.Unsettles native handle) (e : Engine σ) :
    Sparing native handle e (performSimple op e).2
  | begin (e : Engine σ) : Sparing native handle e { e with started := true, queue := [] }
  | trace (e : Engine σ) (events : List Event) : Sparing native handle e { e with trace := events }
  | drive {e : Engine σ} {s : σ} (hs : e.backend = some s) (s' : σ) :
    Sparing native handle e { e with backend := some s' }

theorem Sparing.move (h : Sparing native handle e e') : Move e e' := by
  cases h with
  | operate op => exact .operate op e
  | begin => exact .begin e
  | trace => exact .trace e _
  | drive hs s' => exact .drive hs s'

/-- The run: however long nothing unsettles it, a rooted wrapper stays. -/
theorem rootedAs_of_sparing (hreachable : Reachable e)
    (h : e.registry.RootedAs native handle id)
    (hmoves : Relation.ReflTransGen (Sparing native handle) e e') :
    Reachable e' ∧ e'.registry.RootedAs native handle id := by
  induction hmoves with
  | refl => exact ⟨hreachable, h⟩
  | tail _ hmove ih =>
    obtain ⟨hreachable', h'⟩ := ih
    refine ⟨hreachable'.moved hmove.move, ?_⟩
    cases hmove with
    | operate op hop => exact rootedAs_performSimple hreachable'.wellFormed h' hop
    | begin => exact h'
    | trace => exact h'
    | drive => exact h'

end Engine

end ScriptBridge
