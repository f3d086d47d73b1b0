import ScriptBridge.Failure

/-!
# Script heaps as the bridge can know them

The bridge knows a script heap by its handles. Behind them are objects, which are there as long as
they can be reached from a rooted handle or from a root that scripts have, through references of
scripts and through the children that the bridge has attached. Calls of the bridge change a heap at
one place; apart from that it moves on by itself, and a drift says what it may do then.
-/

namespace ScriptBridge

variable {ω : Type}

/-- A script heap with objects in `ω`. -/
@[ext]
structure Heap (ω : Type) where
  /-- The handle was given out at some time. -/
  issued : Handle → Prop
  /-- The object of a handle that was not given back. It may be gone. -/
  target : Handle → Option ω
  rooted : Handle → Prop
  /-- The object is or was there. -/
  made : ω → Prop
  present : ω → Prop
  /-- Scripts can use the object without a handle. -/
  scriptRoot : ω → Prop
  refers : ω → ω → Prop
  /-- The object keeps another one alive as the child of a handle. -/
  child : ω → Handle → ω → Prop
  /-- Someone other than the bridge has attached or detached a child. -/
  meddled : Prop

namespace Heap

/-! ## Reachable objects -/

/-- The objects that a full collection leaves. -/
inductive Reach (H : Heap ω) : ω → Prop
  | root {handle : Handle} {x : ω} (hroot : H.rooted handle) (htarget : H.target handle = some x) :
    Reach H x
  | scriptRoot {x : ω} (h : H.scriptRoot x) : Reach H x
  | refers {x y : ω} (hx : Reach H x) (h : H.refers x y) : Reach H y
  | child {x y : ω} {handle : Handle} (hx : Reach H x) (h : H.child x handle y) : Reach H y

/-- Whatever a handle or a child leads to was made, and such a handle was issued. -/
structure Recorded (H : Heap ω) : Prop where
  made_of_target : ∀ {handle x}, H.target handle = some x → H.made x
  made_of_child : ∀ {x handle y}, H.child x handle y → H.made x
  issued_of_target : ∀ {handle x}, H.target handle = some x → H.issued handle

/-- What holds of every script heap. -/
structure Sound (H : Heap ω) : Prop extends H.Recorded where
  present_of_reach : ∀ {x}, H.Reach x → H.present x
  made_of_present : ∀ {x}, H.present x → H.made x

/-- No object is behind the handle any more. -/
def Gone (H : Heap ω) (handle : Handle) : Prop :=
  ∀ x, H.target handle = some x → ¬ H.present x

/-! ## What the calls of the bridge change -/

def withRoot (H : Heap ω) (handle : Handle) : Heap ω :=
  { H with rooted := fun other ↦ other = handle ∨ H.rooted other }

def withoutRoot (H : Heap ω) (handle : Handle) : Heap ω :=
  { H with rooted := fun other ↦ other ≠ handle ∧ H.rooted other }

/-- The heap after a handle was given back. -/
def withoutHandle (H : Heap ω) (handle : Handle) : Heap ω :=
  { H with
    target := fun other ↦ if other = handle then none else H.target other
    rooted := fun other ↦ other ≠ handle ∧ H.rooted other }

/-- The heap after an object became the child of another one. The handle it has as a child leads to
nothing else from then on. -/
def withChild (H : Heap ω) (x : ω) (handle : Handle) (y : ω) : Heap ω :=
  { H with child := fun a k b ↦
      (a = x ∧ k = handle ∧ b = y) ∨ (¬ (a = x ∧ k = handle) ∧ H.child a k b) }

def withoutChild (H : Heap ω) (x : ω) (handle : Handle) : Heap ω :=
  { H with child := fun a k b ↦ ¬ (a = x ∧ k = handle) ∧ H.child a k b }

section Changed

variable {H : Heap ω} {handle other : Handle} {x y a b : ω}

theorem target_withoutHandle :
    (H.withoutHandle handle).target other = if other = handle then none else H.target other :=
  rfl

theorem child_withChild : (H.withChild x handle y).child a other b ↔
    (a = x ∧ other = handle ∧ b = y) ∨ (¬ (a = x ∧ other = handle) ∧ H.child a other b) :=
  Iff.rfl

theorem child_withoutChild : (H.withoutChild x handle).child a other b ↔
    ¬ (a = x ∧ other = handle) ∧ H.child a other b :=
  Iff.rfl

theorem Recorded.withRoot (h : H.Recorded) : (H.withRoot handle).Recorded :=
  ⟨h.made_of_target, h.made_of_child, h.issued_of_target⟩

theorem Recorded.withoutRoot (h : H.Recorded) : (H.withoutRoot handle).Recorded :=
  ⟨h.made_of_target, h.made_of_child, h.issued_of_target⟩

theorem Recorded.withoutHandle (h : H.Recorded) : (H.withoutHandle handle).Recorded := by
  have htarget : ∀ {other x}, (H.withoutHandle handle).target other = some x →
      H.target other = some x := by
    intro other x hx
    rw [target_withoutHandle] at hx
    split at hx
    · cases hx
    · exact hx
  exact ⟨fun hx ↦ h.made_of_target (htarget hx), h.made_of_child,
    fun hx ↦ h.issued_of_target (htarget hx)⟩

theorem Recorded.withChild (h : H.Recorded) (hx : H.made x) :
    (H.withChild x handle y).Recorded := by
  refine ⟨h.made_of_target, fun hchild ↦ ?_, h.issued_of_target⟩
  rcases child_withChild.mp hchild with ⟨rfl, -, -⟩ | ⟨-, hchild⟩
  · exact hx
  · exact h.made_of_child hchild

theorem Recorded.withoutChild (h : H.Recorded) : (H.withoutChild x handle).Recorded :=
  ⟨h.made_of_target, fun hchild ↦ h.made_of_child (child_withoutChild.mp hchild).2,
    h.issued_of_target⟩

end Changed

/-- What a call of the bridge changes, if it succeeds. -/
def after {α : Type} (H : Heap ω) (result : Except Failure α) (change : Heap ω → Heap ω) : Heap ω :=
  match result with
  | .ok _ => change H
  | .error _ => H

/-! ## What a heap does by itself -/

/-- A heap moves on without the bridge. Handles stay as they are, objects that are gone do not come
back, and children stay with their owners unless someone meddles. -/
structure Drift (H H' : Heap ω) : Prop where
  issued : ∀ {handle}, H.issued handle → H'.issued handle
  target : ∀ {handle}, H.issued handle → H'.target handle = H.target handle
  rooted : ∀ {handle}, H.issued handle → (H'.rooted handle ↔ H.rooted handle)
  made : ∀ {x}, H.made x → H'.made x
  gone : ∀ {x}, H.made x → H'.present x → H.present x
  meddled : H.meddled → H'.meddled
  child : ¬ H'.meddled → ∀ {x handle y}, H'.present x → (H'.child x handle y ↔ H.child x handle y)

theorem Drift.refl (H : Heap ω) : Drift H H where
  issued h := h
  target _ := rfl
  rooted _ := Iff.rfl
  made h := h
  gone _ h := h
  meddled h := h
  child _ _ _ _ _ := Iff.rfl

end Heap

end ScriptBridge
