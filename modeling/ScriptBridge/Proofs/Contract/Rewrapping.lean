import ScriptBridge.Proofs.Contract.Run

/-!
# Wrapping again

When a native object is wrapped again, its wrapper before goes, and with it all edges to it. The
backend is only asked to give the handle back. The children that the edges stood for stay where they
are, so an object that owned the native object goes on keeping its former script object alive.
-/

namespace ScriptBridge

variable {ω : Type}

namespace Heap

/-- Between two heaps the bridge has attached and detached no children, and has given back no handle
other than the lost one. -/
structure Spares (lost : Handle) (H H' : Heap ω) : Prop where
  issued : ∀ {handle}, H.issued handle → H'.issued handle
  target : ∀ {handle}, H.issued handle → handle ≠ lost → H'.target handle = H.target handle
  made : ∀ {x}, H.made x → H'.made x
  gone : ∀ {x}, H.made x → H'.present x → H.present x
  meddled : H.meddled → H'.meddled
  child : ¬ H'.meddled → ∀ {x handle y}, H.made x → H'.present x →
    (H'.child x handle y ↔ H.child x handle y)

namespace Spares

variable {lost : Handle} {H H' H'' : Heap ω}

theorem refl (lost : Handle) (H : Heap ω) : Spares lost H H :=
  ⟨fun h ↦ h, fun _ _ ↦ rfl, fun h ↦ h, fun _ h ↦ h, fun h ↦ h, fun _ _ _ _ _ _ ↦ Iff.rfl⟩

theorem trans (first : Spares lost H H') (second : Spares lost H' H'') : Spares lost H H'' where
  issued h := second.issued (first.issued h)
  target h hne := (second.target (first.issued h) hne).trans (first.target h hne)
  made h := second.made (first.made h)
  gone h hpresent := first.gone h (second.gone (first.made h) hpresent)
  meddled h := second.meddled (first.meddled h)
  child hmeddled _ _ _ hmade hpresent :=
    (second.child hmeddled (first.made hmade) hpresent).trans
      (first.child (fun h ↦ hmeddled (second.meddled h)) hmade
        (second.gone (first.made hmade) hpresent))

theorem of_withoutRoot {handle : Handle} (h : (H.withoutRoot handle).Drift H') :
    Spares lost H H' :=
  ⟨h.issued, fun hissued _ ↦ h.target hissued, h.made, h.gone, h.meddled,
    fun hmeddled _ _ _ _ hpresent ↦ h.child hmeddled hpresent⟩

theorem of_withoutHandle (h : (H.withoutHandle lost).Drift H') : Spares lost H H' where
  issued := h.issued
  target hissued hne := (h.target hissued).trans (if_neg hne)
  made := h.made
  gone := h.gone
  meddled := h.meddled
  child hmeddled _ _ _ _ hpresent := h.child hmeddled hpresent

end Spares

end Heap

namespace Contract

open Engine

variable {σ : Type} [Backend σ] {C : Contract σ ω} {e : Engine σ} {seen : ω → Prop} {s : σ}
  {native : NativeId} {id new : WrapperId} {w : Wrapper} {handle : Handle} {rooted : Bool}

/-- A handle that the native object does not have yet is settled first. -/
theorem settled_of_wrapped (hs : e.backend = some s) (halive : C.alive s) (lost : Handle)
    (hok : (settleRoot handle rooted e).1 = .ok ()) :
    ∃ t, (settleRoot handle rooted e).2.backend = some t ∧ C.alive t ∧
      (C.heap s).Spares lost (C.heap t) := by
  cases rooted with
  | true =>
    rw [settleRoot_true]
    exact ⟨s, hs, halive, .refl lost _⟩
  | false =>
    rw [settleRoot_false, ask_some hs] at hok ⊢
    have hfollows := C.unroot handle halive
    rw [show (Backend.unroot handle s).result = .ok () from hok] at hfollows
    exact ⟨_, rfl, hfollows.alive, .of_withoutRoot hfollows.drift⟩

/-- Wrapping again replaces the wrapper in the registry, and spares all children in the backend. -/
theorem wrapNative_spares (hs : e.backend = some s) (halive : C.alive s)
    (hcurrent : e.current? native = some (id, w)) (hne : handle ≠ w.handle)
    (hok : (wrapNative native handle rooted e).1 = .ok new) :
    ∃ t, (wrapNative native handle rooted e).2.backend = some t ∧
      (wrapNative native handle rooted e).2.registry =
        ((e.registry.remove id).2.insert native handle rooted).2 ∧
      (C.heap s).Spares w.handle (C.heap t) := by
  obtain ⟨hfind, hget⟩ := current?_eq_some_iff.mp hcurrent
  have hother : e.wrappedAs? native handle = none := by
    simp [wrappedAs?, hfind, hget, Ne.symm hne]
  rw [wrapNative_eq, hother] at hok ⊢
  dsimp only at hok ⊢
  have hregistry := registry_settleRoot handle rooted e
  cases hsettled : (settleRoot handle rooted e).1 with
  | error failure =>
    rw [hsettled] at hok
    cases hok
  | ok _ =>
    obtain ⟨t, ht, halive', hspares⟩ := settled_of_wrapped hs halive w.handle hsettled
    have hcurrent' := (current?_congr hregistry native).trans hcurrent
    have hbackend : ({ (settleRoot handle rooted e).2 with
        registry := ((settleRoot handle rooted e).2.registry.remove id).2 } : Engine σ).backend =
          some t := ht
    dsimp only
    rw [dismissPrevious_eq, hcurrent']
    dsimp only
    rw [ask?_some hbackend, hregistry]
    exact ⟨_, rfl, rfl, hspares.trans (.of_withoutHandle (C.release w.handle halive').drift)⟩

/-! ## Edges that are left -/

/-- The wrappers after one was replaced: the new one, and those that were there, without the one
that was replaced. -/
theorem of_get?_replaced {r : Registry} (hr : r.Coherent) {asked : WrapperId} {v : Wrapper}
    (hv : ((r.remove id).2.insert native handle rooted).2.get? asked = some v) :
    (asked = ⟨r.next⟩ ∧ v = .fresh native handle rooted) ∨
      (asked ≠ id ∧ ∃ u, r.get? asked = some u ∧ v = u.without id) := by
  rw [Registry.get?_insert, Registry.next_remove] at hv
  split at hv
  · next hnext => exact .inl ⟨hnext.symm, (Option.some.inj hv).symm⟩
  · exact .inr (hr.of_get?_remove hv)

/-- The script object of some wrapper keeps an object alive as the child of a handle. -/
def KeptAs (C : Contract σ ω) (e : Engine σ) (handle : Handle) (y : ω) : Prop :=
  ∃ s owner v x, e.backend = some s ∧ e.registry.get? owner = some v ∧
    (C.heap s).target v.handle = some x ∧ (C.heap s).present x ∧ (C.heap s).child x handle y

section Replaced

variable {t : σ} {owner : WrapperId} {v : Wrapper} {x y : ω}

/-- What a handle leads to that another wrapper has. -/
theorem InStep.target_spared (h : C.InStep e.registry s seen)
    (hspares : (C.heap s).Spares w.handle (C.heap t)) (hw : e.registry.get? id = some w)
    (hv : e.registry.get? owner = some v) (hne : owner ≠ id) :
    (C.heap t).target v.handle = (C.heap s).target v.handle :=
  hspares.target (h.lockstep.issued h.sound.toRecorded hv)
    fun hsame ↦ hne (h.lockstep.indexed.id_eq hw hv hsame)

/-- An owner keeps the child if its wrapper had the edge, and only then. -/
theorem InStep.child_spared_iff (h : C.InStep e.registry s seen)
    (hspares : (C.heap s).Spares w.handle (C.heap t)) (hmeddled : ¬ (C.heap t).meddled)
    (hw : e.registry.get? id = some w) (hy : (C.heap s).target w.handle = some y)
    (hpresent : (C.heap t).present y) (hv : e.registry.get? owner = some v) (hne : owner ≠ id)
    (hx : (C.heap t).target v.handle = some x) (hpresent' : (C.heap t).present x) :
    (C.heap t).child x w.handle y ↔ id ∈ v.children := by
  rw [h.target_spared hspares hw hv hne] at hx
  have hmade : (C.heap s).made x := h.sound.made_of_target hx
  have hbefore : (C.heap s).present x := hspares.gone hmade hpresent'
  have hbefore' : (C.heap s).present y := hspares.gone (h.sound.made_of_target hy) hpresent
  have hunmeddled : ¬ (C.heap s).meddled := fun hold ↦ hmeddled (hspares.meddled hold)
  rw [hspares.child hmeddled hmade hpresent']
  exact ⟨h.lockstep.edge_of_child hunmeddled hv hw hx hy hbefore hbefore',
    fun hedge ↦ h.lockstep.child_of_edge hunmeddled hv hw hx hy hedge hbefore⟩

/-- An object that was never wrapped keeps no children for the bridge. -/
theorem InStep.not_child_of_unseen (h : C.InStep e.registry s seen)
    (hspares : (C.heap s).Spares w.handle (C.heap t)) (hmeddled : ¬ (C.heap t).meddled)
    (hx : (C.heap s).target handle = some x) (hseen : ¬ seen x) (hpresent : (C.heap t).present x)
    {other : Handle} : ¬ (C.heap t).child x other y := by
  intro hchild
  have hmade : (C.heap s).made x := h.sound.made_of_target hx
  rw [hspares.child hmeddled hmade hpresent] at hchild
  obtain ⟨hold, -⟩ := h.lockstep.traced (fun hold ↦ hmeddled (hspares.meddled hold))
    (hspares.gone hmade hpresent) hchild
  exact hseen hold

end Replaced

/-- When the wrapper of a native object is replaced, the registry drops all edges to it, and the
backend drops none of them: whatever owned the native object goes on keeping its former script
object alive. So nothing is left behind exactly if the native object was owned by no other wrapper
whose script object is there. -/
theorem kept_iff_owned (h : C.Runs e seen) (hs : e.backend = some s)
    (hadmissible : C.Admissible e seen (.wrapNative native handle rooted))
    (hcurrent : e.current? native = some (id, w)) (hne : handle ≠ w.handle)
    (hok : (wrapNative native handle rooted e).1 = .ok new) :
    let after := (wrapNative native handle rooted e).2
    ∃ t, after.backend = some t ∧ after.registry.get? id = none ∧
      (∀ owner v, after.registry.get? owner = some v → id ∉ v.children) ∧
      ∀ y, (C.heap s).target w.handle = some y → (C.heap t).present y → ¬ (C.heap t).meddled →
        (∀ owner v x, owner ≠ id → e.registry.get? owner = some v →
          (C.heap t).target v.handle = some x → (C.heap t).present x →
            ((C.heap t).child x w.handle y ↔ id ∈ v.children)) ∧
        (C.KeptAs after w.handle y ↔ ∃ owner v x, owner ≠ id ∧ e.registry.get? owner = some v ∧
          id ∈ v.children ∧ (C.heap t).target v.handle = some x ∧ (C.heap t).present x) := by
  intro after
  have hstep := h.aligned hs
  have hcoherent := hstep.lockstep.orderly.coherent
  obtain ⟨hfind, hw⟩ := current?_eq_some_iff.mp hcurrent
  obtain ⟨t, ht, hregistry, hspares⟩ := wrapNative_spares hs hstep.alive hcurrent hne hok
  have hregistry : after.registry = _ := hregistry
  refine ⟨t, ht, ?_, fun owner v hv ↦ ?_, fun y hy hpresent hmeddled ↦ ⟨?_, ?_⟩⟩
  · rw [hregistry, Registry.get?_insert, Registry.next_remove, if_neg (hcoherent.ne_next hw),
      hcoherent.get?_remove, if_pos rfl]
  · rw [hregistry] at hv
    obtain ⟨-, rfl⟩ | ⟨-, u, -, rfl⟩ := of_get?_replaced hcoherent hv
    · simp [Wrapper.fresh]
    · exact fun hmem ↦ (Wrapper.mem_children_without.mp hmem).1 rfl
  · exact fun owner v x howner hv hx hpresent' ↦
      hstep.child_spared_iff hspares hmeddled hw hy hpresent hv howner hx hpresent'
  · constructor
    · rintro ⟨t', owner, v, x, ht', hv, hx, hpresent', hchild⟩
      obtain rfl : t = t' := Option.some.inj (ht.symm.trans ht')
      rw [hregistry] at hv
      obtain ⟨-, rfl⟩ | ⟨howner, u, hu, rfl⟩ := of_get?_replaced hcoherent hv
      · -- The object of the new wrapper was never wrapped before.
        obtain hwrapped | hnew := hadmissible
        · simp [wrappedAs?, hfind, hw, Ne.symm hne] at hwrapped
        · obtain ⟨z, hz, -, hseen⟩ := hnew s hs
          have hissued := hstep.sound.issued_of_target hz
          obtain rfl : z = x := Option.some.inj
            (hz.symm.trans ((hspares.target hissued hne).symm.trans hx))
          exact absurd hchild
            (hstep.not_child_of_unseen hspares hmeddled hz hseen hpresent')
      · have hedge := (hstep.child_spared_iff hspares hmeddled hw hy hpresent hu howner hx
          hpresent').mp hchild
        exact ⟨owner, u, x, howner, hu, hedge, hx, hpresent'⟩
    · rintro ⟨owner, v, x, howner, hv, hedge, hx, hpresent'⟩
      have hchild := (hstep.child_spared_iff hspares hmeddled hw hy hpresent hv howner hx
        hpresent').mpr hedge
      have hkept : after.registry.get? owner = some (v.without id) := by
        rw [hregistry, Registry.get?_insert, Registry.next_remove, if_neg (hcoherent.ne_next hv),
          hcoherent.get?_remove, if_neg (Ne.symm howner), hv]
        rfl
      exact ⟨t, owner, v.without id, x, ht, hkept, hx, hpresent', hchild⟩

/-! ## An owner in an arena -/

/-- Of two wrapped objects in an arena the first owns the second. -/
def owned : Engine Arena :=
  performAll [.createObject ⟨1⟩, .createObject ⟨2⟩, .retain ⟨1⟩ ⟨2⟩] childless

/-- A third object was made that is not wrapped. -/
def owning : Engine Arena := { owned with backend := owned.backend.map Arena.addObject }

/-- The arena of the three objects. -/
def owningArena : Arena where
  issued := 4
  held := [⟨3⟩, ⟨2⟩, ⟨1⟩, ⟨0⟩]
  rooted := [⟨3⟩, ⟨2⟩, ⟨1⟩, ⟨0⟩]
  present := [⟨3⟩, ⟨2⟩, ⟨1⟩, ⟨0⟩]
  edges := [(⟨1⟩, ⟨2⟩)]

theorem backend_owning : owning.backend = some owningArena := rfl

theorem runs_owning : ∃ seen, Arena.contract.Runs owning seen ∧ ¬ seen ⟨3⟩ := by
  have hstart : Arena.contract.Runs childless fun _ ↦ False :=
    .created rfl Arena.sane_empty (by simp [Arena.contract, Arena.view, Arena.heap, Arena.empty])
  have howned := ((hstart.operate (.createObject ⟨1⟩) trivial).operate
    (.createObject ⟨2⟩) trivial).operate (.retain ⟨1⟩ ⟨2⟩) trivial
  have hstep := howned.aligned rfl
  refine ⟨_, howned.drive rfl (Arena.follows_addObject hstep.alive), fun hseen ↦ ?_⟩
  exact Nat.lt_irrefl 3 (hstep.lockstep.made hseen)

/-- The arena after the second native object has got the third script object. -/
def replacedArena : Arena :=
  { owningArena with held := [⟨3⟩, ⟨1⟩, ⟨0⟩], rooted := [⟨3⟩, ⟨1⟩, ⟨0⟩] }

theorem backend_replaced :
    (wrapNative ⟨2⟩ ⟨3⟩ true owning).2.backend = some replacedArena := rfl

/-- The first object goes on keeping the former second one. -/
theorem kept_iff_owned_owning :
    (∃ seen, Arena.contract.Runs owning seen) ∧
      (wrapNative ⟨2⟩ ⟨3⟩ true owning).1 = .ok ⟨2⟩ ∧
      Arena.contract.KeptAs (wrapNative ⟨2⟩ ⟨3⟩ true owning).2 ⟨2⟩ ⟨2⟩ := by
  obtain ⟨seen, hruns, hseen⟩ := runs_owning
  have hok : (wrapNative ⟨2⟩ ⟨3⟩ true owning).1 = .ok ⟨2⟩ := rfl
  have hadmissible : Arena.contract.Admissible owning seen (.wrapNative ⟨2⟩ ⟨3⟩ true) := by
    refine .inr fun s hs ↦ ?_
    obtain rfl := Option.some.inj (backend_owning.symm.trans hs)
    exact ⟨⟨3⟩, rfl, List.mem_cons_self, hseen⟩
  obtain ⟨t, ht, -, -, hkept⟩ :=
    kept_iff_owned hruns backend_owning hadmissible rfl (by decide) hok
  obtain rfl := Option.some.inj (backend_replaced.symm.trans ht)
  refine ⟨⟨seen, hruns⟩, hok, (hkept ⟨2⟩ rfl ?_ not_false).2.mpr ?_⟩
  · exact List.mem_cons_of_mem _ List.mem_cons_self
  · exact ⟨⟨0⟩, _, ⟨1⟩, by decide, rfl, by decide, rfl,
      List.mem_cons_of_mem _ (List.mem_cons_of_mem _ List.mem_cons_self)⟩

/-- The first native object owns the second. When that is wrapped again, the registry drops the
edge, but the first script object is rooted and still has the former second one as a child. -/
theorem replaced_wrapper_stays_owned :
    (∃ seen, Arena.contract.Runs owning seen) ∧ owning.childrenOf ⟨1⟩ = [⟨2⟩] ∧
      (wrapNative ⟨2⟩ ⟨3⟩ true owning).1 = .ok ⟨2⟩ ∧
      (wrapNative ⟨2⟩ ⟨3⟩ true owning).2.childrenOf ⟨1⟩ = [] ∧
      Arena.contract.KeptAs (wrapNative ⟨2⟩ ⟨3⟩ true owning).2 ⟨2⟩ ⟨2⟩ ∧
      replacedArena.heap.Reach ⟨2⟩ := by
  have hchild : replacedArena.heap.child ⟨1⟩ ⟨2⟩ ⟨2⟩ := ⟨List.mem_singleton_self _, rfl⟩
  have hrooted : (⟨1⟩ : Handle) ∈ replacedArena.rooted := List.mem_cons_of_mem _ List.mem_cons_self
  have hpresent : (⟨1⟩ : Handle) ∈ replacedArena.present := by decide
  obtain ⟨seen, hruns, -⟩ := runs_owning
  exact ⟨⟨seen, hruns⟩, rfl, rfl, rfl, ⟨replacedArena, ⟨0⟩, _, ⟨1⟩, rfl, rfl, rfl, hpresent,
    hchild⟩,
    .child (.root hrooted rfl) hchild⟩

end Contract

end ScriptBridge
