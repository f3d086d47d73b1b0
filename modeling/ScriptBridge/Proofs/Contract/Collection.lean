import ScriptBridge.Proofs.Contract.Run

/-!
# No premature release and no leak

A full collection leaves exactly the wrappers whose objects can be reached in the script heap. An
object is reached through references of scripts and through children, of which the bridge attaches
one for every edge; so whatever is rooted, or owned by something that is kept, is reached along with
it. The handles of all other wrappers are given back.
-/

namespace ScriptBridge

/-- The wrappers that native code keeps alive: rooted ones, and what such wrappers own, however many
edges away. -/
inductive Registry.Keeps (r : Registry) : WrapperId → Prop
  | rooted {id : WrapperId} {w : Wrapper} (hw : r.get? id = some w) (hroots : 0 < w.roots) :
    Keeps r id
  | owned {owner child : WrapperId} {w : Wrapper} (h : Keeps r owner)
    (hw : r.get? owner = some w) (hedge : child ∈ w.children) : Keeps r child

/-- What a full collection makes of a registry and a heap. -/
structure Registry.Collected {ω : Type} (r : Registry) (H : Heap ω) (r' : Registry)
    (H' : Heap ω) : Prop where
  /-- A wrapper whose object is reached stays, and so do its handle and the object. -/
  stays : ∀ {id w x}, r.get? id = some w → H.target w.handle = some x → H.Reach x →
    (∃ w', r'.get? id = some w') ∧ H'.target w.handle = some x ∧ H'.present x
  /-- Any other wrapper goes, and its handle is given back. -/
  goes : ∀ {id w x}, r.get? id = some w → H.target w.handle = some x → ¬ H.Reach x →
    r'.get? id = none ∧ H'.target w.handle = none
  /-- No wrapper is new. One that stays is what it was, without edges to wrappers that went. -/
  old : ∀ {id w'}, r'.get? id = some w' → ∃ w, r.get? id = some w ∧ SameRecord w w' ∧
    ∀ {child}, child ∈ w'.children ↔ child ∈ w.children ∧ ∃ v, r'.get? child = some v

namespace Contract

open Engine Reconcile

variable {σ ω α : Type} [Backend σ] {C : Contract σ ω} {e : Engine σ} {r : Registry}
variable {seen : ω → Prop} {s : σ}

/-! ## The collection -/

/-- Once the objects that cannot be reached are gone, a pass removes their wrappers. -/
theorem Passed.collected {H : Heap ω} {sweep : Sweep σ} (hpassed : Passed C seen r s sweep)
    (h : Lockstep r H seen) (hH : H.Recorded) (hd : H.Drift (C.heap s))
    (hpresent : ∀ x, (C.heap s).present x ↔ H.Reach x) :
    r.Collected H sweep.registry (C.heap sweep.state) := by
  have hcoherent := h.orderly.coherent
  obtain ⟨ids, hregistry, hids⟩ := hpassed.removed
  have htarget : ∀ {id w x}, r.get? id = some w → H.target w.handle = some x →
      (C.heap s).target w.handle = some x :=
    fun hw hx ↦ (hd.target (h.issued hH hw)).trans hx
  have hgone : ∀ {id w x}, r.get? id = some w → H.target w.handle = some x →
      ((C.heap s).Gone w.handle ↔ ¬ H.Reach x) := by
    intro id w x hw hx
    rw [Heap.Gone, htarget hw hx]
    simp [hpresent]
  constructor
  · intro id w x hw hx hreach
    have hleft : ¬ (C.heap s).Gone w.handle := fun hold ↦ (hgone hw hx).mp hold hreach
    refine ⟨⟨w.withoutAll ids, ?_⟩, ?_, ?_⟩
    · rw [hregistry, hcoherent.get?_removeAll, if_neg (fun hid ↦ hleft ((hids hw).mp hid)), hw]
      rfl
    · calc (C.heap sweep.state).target w.handle
          = (C.heap s).target w.handle := hpassed.kept hw hleft
        _ = some x := htarget hw hx
    · exact (hpassed.present x).mpr ((hpresent x).mpr hreach)
  · intro id w x hw hx hreach
    have hlost := (hgone hw hx).mpr hreach
    refine ⟨?_, hpassed.released hw hlost⟩
    rw [hregistry, hcoherent.get?_removeAll, if_pos ((hids hw).mpr hlost)]
  · intro id w' hw'
    rw [hregistry] at hw'
    obtain ⟨-, w, hw, rfl⟩ := hcoherent.of_get?_removeAll hw'
    refine ⟨w, hw, Wrapper.sameRecord_withoutAll ids w, fun {child} ↦ ?_⟩
    rw [Wrapper.mem_children_withoutAll, hregistry, hcoherent.get?_removeAll, and_comm]
    refine and_congr_right fun hedge ↦ ?_
    obtain ⟨v, hv, -⟩ := hcoherent.parent_of_child hw hedge
    by_cases hchild : child ∈ ids <;> simp [hchild, hv]

/-- What is left after the pass is left for good. -/
theorem collected_of_calm {H H' : Heap ω} {r' : Registry} (h : r.Collected H r' H')
    (hissued : ∀ {id w}, r.get? id = some w → H'.issued w.handle) (hcalm : C.Calm H' s) :
    r.Collected H r' (C.heap s) where
  stays hw hx hreach := by
    obtain ⟨hw', hx', hpresent⟩ := h.stays hw hx hreach
    refine ⟨hw', ?_, (hcalm.present _).mpr hpresent⟩
    calc (C.heap s).target _ = H'.target _ := hcalm.drift.target (hissued hw)
      _ = some _ := hx'
  goes hw hx hreach := by
    obtain ⟨hw', hx'⟩ := h.goes hw hx hreach
    refine ⟨hw', ?_⟩
    calc (C.heap s).target _ = H'.target _ := hcalm.drift.target (hissued hw)
      _ = none := hx'
  old := h.old

/-- A report without updates leaves the registry alone. -/
theorem settled_run {H : Heap ω} {report : Report σ α} (h : C.Settles H report) (r : Registry)
    (trace : List Event) : (run false report r trace).registry = r ∧
      C.Calm H (run false report r trace).state := by
  induction h generalizing trace with
  | done h => exact ⟨rfl, h⟩
  | events _ ih => exact ih _
  | phase _ ih => exact ih _

theorem collected_run {H : Heap ω} {report : Report σ α} (hreport : C.Collects H report)
    (h : Lockstep r H seen) (hH : H.Recorded) (trace : List Event) :
    r.Collected H (run false report r trace).registry
      (C.heap (run false report r trace).state) := by
  induction hreport generalizing trace with
  | events _ ih => exact ih _
  | phase _ ih => exact ih _
  | @update s resume hf hpresent hresume =>
    have hpassed := passed (inStep_of_follows h hH hf)
    have hcollected := hpassed.collected h hH hf.drift hpresent
    obtain ⟨hregistry, hcalm⟩ := settled_run (hresume _ hpassed.updates)
      (Reconcile.pass r false s).registry (trace ++ (Reconcile.pass r false s).events)
    rw [run, hregistry]
    exact collected_of_calm hcollected
      (fun hw ↦ hpassed.issued (hf.drift.issued (h.issued hH hw))) hcalm

/-! ## Wrappers that are kept -/

/-- Rooted wrappers, and those owned by wrappers that are kept, have objects that are reached. -/
theorem InStep.reach_of_keeps (h : C.InStep r s seen) (hmeddled : ¬ (C.heap s).meddled)
    {id : WrapperId} (hkeeps : r.Keeps id) :
    ∃ w x, r.get? id = some w ∧ (C.heap s).target w.handle = some x ∧ (C.heap s).Reach x := by
  induction hkeeps with
  | rooted hw hroots =>
    obtain ⟨x, hx, -⟩ := h.lockstep.object hw
    exact ⟨_, x, hw, hx, .root ((h.lockstep.rooted hw).mpr hroots) hx⟩
  | owned _ hw hedge ih =>
    obtain ⟨owner, x, howner, hx, hreach⟩ := ih
    cases hw.symm.trans howner
    obtain ⟨v, hv, -⟩ := h.lockstep.orderly.coherent.parent_of_child hw hedge
    obtain ⟨y, hy, -⟩ := h.lockstep.object hv
    have hpresent := h.sound.present_of_reach hreach
    have hchild := h.lockstep.child_of_edge hmeddled hw hv hx hy hedge hpresent
    exact ⟨v, y, hv, hy, .child hreach hchild⟩

/-- A full collection after a run leaves exactly the wrappers whose objects are reached, and gives
the handles of the others back. All wrappers that native code keeps alive are among those left, and
their objects are there. -/
theorem collects_exactly (h : C.Runs e seen) (hs : e.backend = some s) :
    ∃ s', (performSimple .collectGarbage e).2.backend = some s' ∧
      e.registry.Collected (C.heap s) (performSimple .collectGarbage e).2.registry (C.heap s') ∧
      (¬ (C.heap s).meddled → ∀ id, e.registry.Keeps id → ∃ w w' x,
        e.registry.get? id = some w ∧
        (performSimple .collectGarbage e).2.registry.get? id = some w' ∧
        (C.heap s').target w.handle = some x ∧ (C.heap s').present x) := by
  have hstep := h.aligned hs
  have hcleanup := h.reachable.wellFormed.inCleanup
  have hcollected := collected_run (C.collect hstep.alive) hstep.lockstep hstep.sound.toRecorded
    (e.trace ++ [.call .collect])
  have hperformed : (performSimple .collectGarbage e).2 =
      e.reconciled (run false (Backend.collect s) e.registry (e.trace ++ [.call .collect])) := by
    rw [performSimple, run_return, run_surely, collectGarbage_snd, askReporting?_some hs, follow,
      hcleanup]
  rw [hperformed]
  refine ⟨_, rfl, hcollected, fun hmeddled id hkeeps ↦ ?_⟩
  obtain ⟨w, x, hw, hx, hreach⟩ := hstep.reach_of_keeps hmeddled hkeeps
  obtain ⟨⟨w', hw'⟩, hx', hpresent⟩ := hcollected.stays hw hx hreach
  exact ⟨w, w', x, hw, hw', hx', hpresent⟩

theorem collects_exactly_family :
    (∃ seen, Arena.contract.Runs family seen) ∧ family.backend = some familyArena ∧
      ∃ s', (performSimple .collectGarbage family).2.backend = some s' ∧
        family.registry.Collected familyArena.heap
          (performSimple .collectGarbage family).2.registry s'.heap ∧
        ∀ id, family.registry.Keeps id → ∃ w w' x, family.registry.get? id = some w ∧
          (performSimple .collectGarbage family).2.registry.get? id = some w' ∧
          s'.heap.target w.handle = some x ∧ s'.heap.present x := by
  obtain ⟨seen, hruns⟩ := runs_family
  obtain ⟨s', hbackend, hcollected, hkeeps⟩ := collects_exactly hruns backend_family
  exact ⟨⟨seen, hruns⟩, backend_family, s', hbackend, hcollected, hkeeps id⟩

/-- The second object is kept as the child of the first, and the third one goes. -/
example : (performSimple .collectGarbage family).2.registry.nativeEntries.map Prod.fst =
    [⟨1⟩, ⟨2⟩] :=
  rfl

end Contract

end ScriptBridge
