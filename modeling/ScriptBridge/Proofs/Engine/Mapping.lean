import ScriptBridge.Proofs.Engine.Reachable
import ScriptBridge.Proofs.Engine.Verdicts

/-!
# Every wrapper is mapped

A registry by itself lets a wrapper be shadowed by a later one for the same native object. An engine
never gets into that state, since wrapping dismisses the previous wrapper first. So all wrappers of
a reachable engine are found by their native objects, a weak pass comes by every one of them, and
the ownership edges can be told in terms of native objects.
-/

namespace ScriptBridge

namespace Registry

variable {r : Registry} {id : WrapperId} {w : Wrapper}

/-- The mapped native objects lead to all wrappers, each once. -/
theorem Orderly.nativeEntries_perm (hr : r.Orderly) :
    (r.nativeEntries.map Prod.snd).Perm (r.entries.map Prod.fst) := by
  apply (List.perm_ext_iff_of_nodup hr.coherent.nodup_map_snd (nodup_entries r)).mpr
  intro id
  rw [mem_map_fst_entries]
  refine ⟨hr.coherent.live_of_mem, ?_⟩
  rintro ⟨w, hw⟩
  exact mem_map_snd_nativeEntries.mpr ⟨w.native, hr.mapped hw⟩

theorem Orderly.nativeCount_eq_size (hr : r.Orderly) : r.nativeCount = r.size := by
  have hlength := hr.nativeEntries_perm.length_eq
  rwa [List.length_map, List.length_map, nativeEntries, entries, Std.ExtTreeMap.length_toList,
    Std.ExtTreeMap.length_toList] at hlength

end Registry

namespace Reconcile

variable {σ : Type} [Backend σ] {r : Registry} {id : WrapperId} {w : Wrapper}

/-- A pass makes the call by which it decides about a wrapper, if there is one. -/
theorem decision_mem_pass (hr : r.Orderly) (inCleanup : Bool) (state : σ) {call : Call}
    (hw : r.get? id = some w) (hcall : decision? inCleanup (id, w) = some call) :
    call ∈ callsOf (Reconcile.pass r inCleanup state).events := by
  have horder : r.nativeEntries.Perm r.nativeEntries := .refl _
  obtain ⟨gone, h⟩ := exists_verdicts r inCleanup (nodup_order hr.coherent horder)
    (⟨[], state, []⟩ : Visited σ)
  have hexact := Verdicts.exact hr.coherent horder h
  have hvisited : (id, w) ∈ visited r.nativeEntries r :=
    (hexact.mem_visited id w).mpr ⟨hw, w.native, hr.mapped hw⟩
  rw [Reconcile.pass, hexact.calls, List.mem_append]
  exact .inl (List.mem_filterMap.mpr ⟨(id, w), hvisited, hcall⟩)

end Reconcile

namespace Engine

variable {σ : Type} {e : Engine σ} {native other : NativeId} {handle : Handle}

theorem nodup_childrenOf (hr : e.registry.Mapped) (native : NativeId) :
    (e.childrenOf native).Nodup := by
  unfold childrenOf
  split
  · exact .nil
  · next w _ =>
    have hchildren : w.children.toList.Nodup := by
      refine (Std.ExtTreeSet.distinct_toList (t := w.children)).imp ?_
      rintro a b hne rfl
      exact hne Std.ReflCmp.compare_self
    rw [List.map_filterMap]
    refine hchildren.filterMap fun a b m ha hb ↦ ?_
    obtain ⟨u, hu, rfl⟩ := Option.map_eq_some_iff.mp ha
    obtain ⟨v, hv, hsame⟩ := Option.map_eq_some_iff.mp hb
    exact hr.id_eq hv hu hsame.symm

/-- The children of a native object are told by the edges between the present wrappers. -/
theorem mem_childrenOf_iff (hr : e.registry.Orderly) : other ∈ e.childrenOf native ↔
    ∃ owner child, e.registry.find? native = some owner ∧ e.registry.find? other = some child ∧
      e.registry.hasEdge owner child = true := by
  constructor
  · unfold childrenOf
    split
    · exact fun h ↦ absurd h List.not_mem_nil
    · next w hw =>
      intro h
      obtain ⟨owner, hfind, hw⟩ := Option.bind_eq_some_iff.mp hw
      obtain ⟨v, hv, rfl⟩ := List.mem_map.mp h
      obtain ⟨child, hchild, hv⟩ := List.mem_filterMap.mp hv
      rw [Std.ExtTreeSet.mem_toList] at hchild
      exact ⟨owner, child, hfind, hr.mapped hv, Registry.hasEdge_iff.mpr ⟨w, hw, hchild⟩⟩
  · rintro ⟨owner, child, hfind, hother, hedge⟩
    obtain ⟨w, hw, hchild⟩ := Registry.hasEdge_iff.mp hedge
    obtain ⟨v, hv, rfl⟩ := hr.coherent.native_of_find? hother
    have hcurrent : (e.registry.find? native).bind e.registry.get? = some w :=
      Option.bind_eq_some_iff.mpr ⟨owner, hfind, hw⟩
    rw [childrenOf, hcurrent]
    refine List.mem_map_of_mem (List.mem_filterMap.mpr ⟨child, ?_, hv⟩)
    exact Std.ExtTreeSet.mem_toList.mpr hchild

/-- A handle that leads to a native object is the handle of that object's wrapper. -/
theorem objectHandle?_of_unwrapNative? (hr : e.registry.Orderly)
    (h : e.unwrapNative? handle = some native) : e.objectHandle? native = some handle := by
  obtain ⟨w, hbind, rfl⟩ := Option.map_eq_some_iff.mp h
  obtain ⟨id, hfound, hw⟩ := Option.bind_eq_some_iff.mp hbind
  obtain ⟨v, hv, rfl⟩ := hr.coherent.handle_of_findByHandle? hfound
  rw [hw, Option.some.injEq] at hv
  subst hv
  have hcurrent : (e.registry.find? w.native).bind e.registry.get? = some w :=
    Option.bind_eq_some_iff.mpr ⟨id, hr.mapped hw, hw⟩
  rw [objectHandle?, hcurrent, Option.map_some]

variable [Backend σ]

/-- What can be found in an engine by native objects and handles. -/
structure Mapping (e : Engine σ) : Prop where
  /-- A wrapper is the one that its native object has. -/
  find? : ∀ {id w}, e.registry.get? id = some w → e.registry.find? w.native = some id
  nativeCount : e.registry.nativeCount = e.registry.size
  /-- A weak pass comes by every wrapper, and by each once. -/
  visited : (e.registry.nativeEntries.map Prod.snd).Perm (e.registry.entries.map Prod.fst)
  /-- It asks about every wrapper that is not rooted. -/
  asked : ∀ (inCleanup : Bool) (state : σ) {id w}, e.registry.get? id = some w →
    w.isRooted = false →
      .queryDead w.handle ∈ callsOf (Reconcile.pass e.registry inCleanup state).events
  /-- During a cleanup it tears down every wrapper that is rooted. -/
  tornDown : ∀ (state : σ) {id w}, e.registry.get? id = some w → w.isRooted = true →
    .tearDown w.handle ∈ callsOf (Reconcile.pass e.registry true state).events
  nodup_children : ∀ native, (e.childrenOf native).Nodup
  /-- The children of a native object have wrappers of their own. -/
  wrapped : ∀ {native other}, other ∈ e.childrenOf native →
    ∃ id w, e.registry.find? other = some id ∧ e.registry.get? id = some w ∧ w.native = other
  mem_children_iff : ∀ native other, other ∈ e.childrenOf native ↔
    ∃ owner child, e.registry.find? native = some owner ∧ e.registry.find? other = some child ∧
      e.registry.hasEdge owner child = true
  objectHandle? : ∀ {handle native}, e.unwrapNative? handle = some native →
    e.objectHandle? native = some handle

/-- Whatever native objects and handles an engine was asked to wrap, all its wrappers are mapped. -/
theorem mapping_of_reachable (h : Reachable e) : Mapping e := by
  have hr : e.registry.Orderly := h.wellFormed.orderly
  exact
    { find? := fun hw ↦ hr.mapped hw
      nativeCount := hr.nativeCount_eq_size
      visited := hr.nativeEntries_perm
      asked := fun inCleanup state {id w} hw hrooted ↦
        Reconcile.decision_mem_pass hr inCleanup state hw (by simp [Reconcile.decision?, hrooted])
      tornDown := fun state {id w} hw hrooted ↦
        Reconcile.decision_mem_pass hr true state hw (by simp [Reconcile.decision?, hrooted])
      nodup_children := nodup_childrenOf hr.mapped
      wrapped := fun {native other} hmem ↦ by
        obtain ⟨-, child, -, hother, -⟩ := (mem_childrenOf_iff hr).mp hmem
        obtain ⟨w, hw, hname⟩ := hr.coherent.native_of_find? hother
        exact ⟨child, w, hother, hw, hname⟩
      mem_children_iff := fun native other ↦ mem_childrenOf_iff hr
      objectHandle? := objectHandle?_of_unwrapNative? hr }

/-- An engine in which one script object was wrapped for two native objects, and one of these was
wrapped again with another one. -/
def rewrapped : Engine Rehearsal :=
  performAll [.createObject ⟨1⟩, .createObject ⟨3⟩, .wrapNative ⟨2⟩ ⟨2⟩ true, .retain ⟨1⟩ ⟨3⟩,
    .retain ⟨1⟩ ⟨2⟩, .createObject ⟨2⟩, .retain ⟨1⟩ ⟨2⟩] rehearsed

/-- The edge to the replaced wrapper is gone, the one to the new wrapper is there. -/
theorem mapping_rewrapped :
    Reachable rewrapped ∧ Mapping rewrapped ∧ rewrapped.registry.nativeCount = 3 ∧
      rewrapped.childrenOf ⟨1⟩ = [⟨3⟩, ⟨2⟩] ∧ rewrapped.unwrapNative? ⟨2⟩ = none ∧
      rewrapped.objectHandle? ⟨2⟩ = some ⟨3⟩ :=
  have hreachable : Reachable rewrapped := reachable_rehearsed.performAll _
  ⟨hreachable, mapping_of_reachable hreachable, rfl, rfl, rfl, rfl⟩

end Engine

end ScriptBridge
