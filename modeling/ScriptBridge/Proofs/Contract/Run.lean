import ScriptBridge.Proofs.Contract.Arena
import ScriptBridge.Proofs.Contract.Stepping
import ScriptBridge.Proofs.Engine.Mirroring

/-!
# Runs over a backend that honours its contract

A run begins with a new engine and consists of admissible operations, in any order and with any
outcome that admits them; between them the script heap moves on by itself. All along a run the
engine is in step with its backend, so counts are roots and edges are children on the other side.
-/

namespace ScriptBridge

/-- Roots and edges are the same on both sides. -/
structure Registry.Agrees {ω : Type} (r : Registry) (H : Heap ω) : Prop where
  rooted : ∀ {id w}, r.get? id = some w → 0 < w.roots →
    H.rooted w.handle ∧ ∃ x, H.target w.handle = some x ∧ H.present x
  not_rooted : ∀ {id w}, r.get? id = some w → w.roots = 0 → ¬ H.rooted w.handle
  /-- Someone else may have attached or detached children, but then nothing is known about edges. -/
  edge_iff : ¬ H.meddled → ∀ {owner child w v x y}, r.get? owner = some w →
    r.get? child = some v → H.target w.handle = some x → H.target v.handle = some y →
    H.present x → H.present y → (child ∈ w.children ↔ H.child x v.handle y)

namespace Contract

open Engine

variable {σ ω : Type} [Backend σ] {C : Contract σ ω} {e : Engine σ} {seen : ω → Prop} {s : σ}

/-- An engine after a run, with the objects that were wrapped on the way. A start is a flag, events
and the operations of its initializers. -/
inductive Runs (C : Contract σ ω) : Engine σ → (ω → Prop) → Prop
  | created {state : σ} {config : Config} {e : Engine σ} {events : List Event}
    (h : create state config = (.ok e, events)) (halive : C.alive state)
    (hbare : ∀ x handle y, ¬ (C.heap state).child x handle y) : Runs C e fun _ ↦ False
  | operate {e : Engine σ} {seen : ω → Prop} (h : Runs C e seen) (op : Operation)
    (hop : C.Admissible e seen op) :
    Runs C (performSimple op e).2 (C.Seen (performSimple op e).2 seen)
  | begin {e : Engine σ} {seen : ω → Prop} (h : Runs C e seen) :
    Runs C { e with started := true, queue := [] } seen
  | trace {e : Engine σ} {seen : ω → Prop} (h : Runs C e seen) (events : List Event) :
    Runs C { e with trace := events } seen
  /-- The script heap moves on by itself, or native code uses the backend in a way that leaves
  handles, roots and children alone. -/
  | drive {e : Engine σ} {seen : ω → Prop} {s s' : σ} (h : Runs C e seen)
    (hs : e.backend = some s) (hfollows : C.Follows (C.heap s) s') :
    Runs C { e with backend := some s' } seen

theorem Runs.reachable (h : C.Runs e seen) : Reachable e := by
  induction h with
  | created h => exact .created h
  | operate _ op _ ih => exact ih.moved (.operate op _)
  | begin _ ih => exact ih.moved (.begin _)
  | trace _ _ ih => exact ih.moved (.trace _ _)
  | drive _ hs _ ih => exact ih.moved (.drive hs _)

/-- All along a run the engine is in step with its backend. -/
theorem Runs.aligned (h : C.Runs e seen) : C.Aligned e seen := by
  induction h with
  | @created state _ _ _ h halive hbare =>
    have hempty : Lockstep .empty (C.heap state) fun _ ↦ False := lockstep_empty hbare
    have hstep := inStep_of_follows hempty (C.sound halive).toRecorded (C.globalObject halive)
    simp only [create] at h
    split at h
    · cases h
      exact hstep.aligned rfl
    · cases h
  | operate h _ hop ih => exact ih.performSimple h.reachable.wellFormed hop
  | begin _ ih => exact fun s hs ↦ ih hs
  | trace _ _ ih => exact fun s hs ↦ ih hs
  | drive _ hs hfollows ih =>
    have hstep := ih hs
    exact (inStep_of_follows hstep.lockstep hstep.sound.toRecorded hfollows).aligned rfl

theorem InStep.agrees {r : Registry} (h : C.InStep r s seen) : r.Agrees (C.heap s) where
  rooted hw hroots := by
    obtain ⟨x, hx, -⟩ := h.lockstep.object hw
    have hrooted := (h.lockstep.rooted hw).mpr hroots
    exact ⟨hrooted, x, hx, h.sound.present_of_reach (.root hrooted hx)⟩
  not_rooted hw hzero := by
    rw [h.lockstep.rooted hw, hzero]
    exact Nat.lt_irrefl 0
  edge_iff hmeddled _ _ _ _ _ _ hw hv hx hy hpresent hpresent' :=
    ⟨fun hedge ↦ h.lockstep.child_of_edge hmeddled hw hv hx hy hedge hpresent,
      h.lockstep.edge_of_child hmeddled hw hv hx hy hpresent hpresent'⟩

/-- After every run the two sides agree on roots and edges, and whichever operation comes next, a
wrapper's handle is rooted and unrooted only as its count leaves zero and comes back to it. -/
theorem agrees_and_mirrored (h : C.Runs e seen) (hs : e.backend = some s) :
    e.registry.Agrees (C.heap s) ∧
      ∀ op, op ≠ .cleanup → C.Admissible e seen op → Mirrored e (performSimple op e).2 := by
  have hstep := h.aligned hs
  refine ⟨hstep.agrees, fun op hop hadmissible ↦ ?_⟩
  apply mirrored_performSimple hstep.lockstep.orderly hstep.lockstep.indexed hs hop
  rintro native handle rooted rfl hpresent id w hw
  -- A handle to be wrapped leads to an object that no wrapper has.
  rcases hadmissible with hwrapped | hnew
  · rw [hpresent] at hwrapped
    cases hwrapped
  · obtain ⟨x, hx, -, hseen⟩ := hnew s hs
    exact hstep.lockstep.handle_ne hw hx hseen

/-! ## A run over an arena -/

/-- A new engine over an arena. -/
def childless : Engine Arena := (create Arena.empty default).1.toOption.get rfl

/-- Three objects, of which one is rooted and owns the second. -/
def family : Engine Arena :=
  performAll [.createObject ⟨1⟩, .createObject ⟨2⟩, .createObject ⟨3⟩, .retain ⟨1⟩ ⟨2⟩,
    .unrootObject ⟨2⟩, .unrootObject ⟨3⟩] childless

/-- The arena of the three objects. -/
def familyArena : Arena where
  issued := 4
  held := [⟨3⟩, ⟨2⟩, ⟨1⟩, ⟨0⟩]
  rooted := [⟨1⟩, ⟨0⟩]
  present := [⟨3⟩, ⟨2⟩, ⟨1⟩, ⟨0⟩]
  edges := [(⟨1⟩, ⟨2⟩)]

theorem backend_family : family.backend = some familyArena := rfl

theorem runs_family : ∃ seen, Arena.contract.Runs family seen := by
  have hstart : Arena.contract.Runs childless fun _ ↦ False :=
    .created rfl Arena.sane_empty (by simp [Arena.contract, Arena.view, Arena.heap, Arena.empty])
  have hmade := ((hstart.operate (.createObject ⟨1⟩) trivial).operate
    (.createObject ⟨2⟩) trivial).operate (.createObject ⟨3⟩) trivial
  have howned := hmade.operate (.retain ⟨1⟩ ⟨2⟩) trivial
  exact ⟨_, (howned.operate (.unrootObject ⟨2⟩) rfl).operate (.unrootObject ⟨3⟩) rfl⟩

theorem agrees_and_mirrored_family :
    (∃ seen, Arena.contract.Runs family seen) ∧ family.backend = some familyArena ∧
      family.registry.Agrees familyArena.heap ∧
      Mirrored family (performSimple (.rootObject ⟨2⟩) family).2 := by
  obtain ⟨seen, hruns⟩ := runs_family
  obtain ⟨hagrees, hmirrored⟩ := agrees_and_mirrored hruns backend_family
  exact ⟨⟨seen, hruns⟩, backend_family, hagrees,
    hmirrored (.rootObject ⟨2⟩) (by simp) rfl⟩

end Contract

end ScriptBridge
