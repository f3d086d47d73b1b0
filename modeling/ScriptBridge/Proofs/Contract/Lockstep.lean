import ScriptBridge.Proofs.Contract.Heap
import ScriptBridge.Proofs.Registry.Removal

/-!
# A registry in step with a script heap

The registry counts roots and the heap has rooted handles; the registry has edges and the heap has
children. Both are changed by separate calls. They are in step if counts above zero are roots, and
if edges are children wherever the objects are still there. What makes this an invariant is that
every object was wrapped at most once: then a child that the heap still has, although its edge went
with a wrapper, never leads from or to a wrapper again.
-/

namespace ScriptBridge

variable {ω : Type}

/-- A registry and a heap agree. `seen` are the objects that were ever wrapped. -/
structure Lockstep (r : Registry) (H : Heap ω) (seen : ω → Prop) : Prop where
  orderly : r.Orderly
  indexed : r.Indexed
  /-- Every wrapper has an object, which may be gone. -/
  object : ∀ {id w}, r.get? id = some w → ∃ x, H.target w.handle = some x ∧ seen x
  /-- No two wrappers have one object. -/
  sole : ∀ {id other w v x}, r.get? id = some w → r.get? other = some v →
    H.target w.handle = some x → H.target v.handle = some x → other = id
  rooted : ∀ {id w}, r.get? id = some w → (H.rooted w.handle ↔ 0 < w.roots)
  child_of_edge : ¬ H.meddled → ∀ {owner child w v x y}, r.get? owner = some w →
    r.get? child = some v → H.target w.handle = some x → H.target v.handle = some y →
    child ∈ w.children → H.present x → H.child x v.handle y
  edge_of_child : ¬ H.meddled → ∀ {owner child w v x y}, r.get? owner = some w →
    r.get? child = some v → H.target w.handle = some x → H.target v.handle = some y →
    H.present x → H.present y → H.child x v.handle y → child ∈ w.children
  /-- All children were attached by the bridge. -/
  traced : ¬ H.meddled → ∀ {x handle y}, H.present x → H.child x handle y →
    seen x ∧ seen y ∧ H.issued handle ∧ ∀ z, H.target handle = some z → z = y
  made : ∀ {x}, seen x → H.made x

/-- An empty registry is in step with a heap without children. -/
theorem lockstep_empty {H : Heap ω} (h : ∀ x handle y, ¬ H.child x handle y) :
    Lockstep .empty H fun _ ↦ False := by
  have hget : ∀ {id w}, Registry.empty.get? id ≠ some w := by simp [Registry.get?, Registry.empty]
  exact
    { orderly := Registry.orderly_empty
      indexed := fun _ _ hw ↦ absurd hw hget
      object := fun hw ↦ absurd hw hget
      sole := fun hw ↦ absurd hw hget
      rooted := fun hw ↦ absurd hw hget
      child_of_edge := fun _ _ _ _ _ _ _ hw ↦ absurd hw hget
      edge_of_child := fun _ _ _ _ _ _ _ hw ↦ absurd hw hget
      traced := fun _ _ _ _ _ hchild ↦ absurd hchild (h _ _ _)
      made := False.elim }

namespace Lockstep

variable {r : Registry} {H H' : Heap ω} {seen : ω → Prop} {id : WrapperId} {w : Wrapper} {x : ω}

theorem issued (h : Lockstep r H seen) (hH : H.Recorded) (hw : r.get? id = some w) :
    H.issued w.handle := by
  obtain ⟨x, hx, -⟩ := h.object hw
  exact hH.issued_of_target hx

/-- No wrapper has an object that was never wrapped. -/
theorem target_ne (h : Lockstep r H seen) (hw : r.get? id = some w) (hx : ¬ seen x) :
    H.target w.handle ≠ some x := by
  intro hsame
  obtain ⟨y, hy, hyseen⟩ := h.object hw
  rw [hsame, Option.some.injEq] at hy
  exact hx (hy ▸ hyseen)

theorem handle_ne (h : Lockstep r H seen) (hw : r.get? id = some w) {handle : Handle}
    (hx : H.target handle = some x) (hseen : ¬ seen x) : handle ≠ w.handle := by
  rintro rfl
  exact h.target_ne hw hseen hx

/-- A heap that moves on by itself stays in step. -/
theorem drift (h : Lockstep r H seen) (hH : H.Recorded) (hd : H.Drift H') : Lockstep r H' seen where
  orderly := h.orderly
  indexed := h.indexed
  object hw := by
    rw [hd.target (h.issued hH hw)]
    exact h.object hw
  sole hw hv := by
    rw [hd.target (h.issued hH hw), hd.target (h.issued hH hv)]
    exact h.sole hw hv
  rooted hw := (hd.rooted (h.issued hH hw)).trans (h.rooted hw)
  child_of_edge hmeddled owner child w v x y hw hv hx hy hedge hpresent := by
    rw [hd.target (h.issued hH hw)] at hx
    rw [hd.target (h.issued hH hv)] at hy
    apply (hd.child hmeddled hpresent).mpr
    have hpresent' := hd.gone (hH.made_of_target hx) hpresent
    exact h.child_of_edge (fun hold ↦ hmeddled (hd.meddled hold)) hw hv hx hy hedge hpresent'
  edge_of_child hmeddled owner child w v x y hw hv hx hy hpresent hpresent' hchild := by
    rw [hd.target (h.issued hH hw)] at hx
    rw [hd.target (h.issued hH hv)] at hy
    have hchild' := (hd.child hmeddled hpresent).mp hchild
    exact h.edge_of_child (fun hold ↦ hmeddled (hd.meddled hold)) hw hv hx hy
      (hd.gone (hH.made_of_target hx) hpresent) (hd.gone (hH.made_of_target hy) hpresent') hchild'
  traced hmeddled x handle y hpresent hchild := by
    have hchild' := (hd.child hmeddled hpresent).mp hchild
    have hpresent' := hd.gone (hH.made_of_child hchild') hpresent
    obtain ⟨hseen, hseen', hissued, hsole⟩ :=
      h.traced (fun hold ↦ hmeddled (hd.meddled hold)) hpresent' hchild'
    refine ⟨hseen, hseen', hd.issued hissued, fun z hz ↦ hsole z ?_⟩
    rwa [hd.target hissued] at hz
  made hx := hd.made (h.made hx)

/-! ## Roots -/

/-- Roots and counts may change together, one wrapper at a time. -/
theorem recount (h : Lockstep r H seen) (id : WrapperId) {f : Wrapper → Wrapper}
    (hnames : ∀ w, Registry.namesOf (f w) = Registry.namesOf w)
    (hchildren : ∀ w, (f w).children = w.children) (hparents : ∀ w, (f w).parents = w.parents)
    {rooted : Handle → Prop}
    (hself : ∀ {w}, r.get? id = some w → (rooted w.handle ↔ 0 < (f w).roots))
    (hother : ∀ {other w}, r.get? other = some w → other ≠ id →
      (rooted w.handle ↔ H.rooted w.handle)) :
    Lockstep (r.modify id f) { H with rooted := rooted } seen := by
  have hhandle : ∀ w, (f w).handle = w.handle := fun w ↦ congrArg Prod.snd (hnames w)
  have hget : ∀ {asked v}, (r.modify id f).get? asked = some v →
      ∃ w, r.get? asked = some w ∧ v.handle = w.handle ∧ v.children = w.children := by
    intro asked v hv
    rw [Registry.get?_modify] at hv
    split at hv
    · obtain ⟨w, hw, rfl⟩ := Option.map_eq_some_iff.mp hv
      exact ⟨w, hw, hhandle w, hchildren w⟩
    · exact ⟨v, hv, rfl, rfl⟩
  exact
    { orderly := ⟨h.orderly.coherent.modify id hnames hchildren hparents,
        h.orderly.mapped.modify id fun w ↦ congrArg Prod.fst (hnames w)⟩
      indexed := h.indexed.modify id hhandle
      object := fun hv ↦ by
        obtain ⟨w, hw, hsame, -⟩ := hget hv
        rw [hsame]
        exact h.object hw
      sole := fun hv hv' ↦ by
        obtain ⟨w, hw, hsame, -⟩ := hget hv
        obtain ⟨w', hw', hsame', -⟩ := hget hv'
        rw [hsame, hsame']
        exact h.sole hw hw'
      rooted := fun {asked v} hv ↦ by
        rw [Registry.get?_modify] at hv
        split at hv
        · next hid =>
          subst hid
          obtain ⟨w, hw, rfl⟩ := Option.map_eq_some_iff.mp hv
          rw [hhandle]
          exact hself hw
        · next hid => exact (hother hv (Ne.symm hid)).trans (h.rooted hv)
      child_of_edge := fun hmeddled {_ _ _ _ _ _} hv hv' ↦ by
        obtain ⟨w, hw, hsame, hedges⟩ := hget hv
        obtain ⟨w', hw', hsame', -⟩ := hget hv'
        rw [hsame, hsame', hedges]
        exact h.child_of_edge hmeddled hw hw'
      edge_of_child := fun hmeddled {_ _ _ _ _ _} hv hv' ↦ by
        obtain ⟨w, hw, hsame, hedges⟩ := hget hv
        obtain ⟨w', hw', hsame', -⟩ := hget hv'
        rw [hsame, hsame', hedges]
        exact h.edge_of_child hmeddled hw hw'
      traced := h.traced
      made := h.made }

/-- A handle may be rooted as a root is counted. -/
theorem root (h : Lockstep r H seen) (hw : r.get? id = some w) :
    Lockstep (r.root id).2 (H.withRoot w.handle) seen := by
  refine h.recount id (f := Wrapper.addRoot) (fun _ ↦ rfl) (fun _ ↦ rfl)
    (fun _ ↦ rfl) (fun hv ↦ ?_) fun hv hne ↦ ?_
  · rw [hw, Option.some.injEq] at hv
    subst hv
    exact iff_of_true (.inl rfl) w.roots_addRoot_pos
  · exact or_iff_right fun hsame ↦ hne (h.indexed.id_eq hw hv hsame)

/-- Another root is counted only. -/
theorem root_again (h : Lockstep r H seen) (hw : r.get? id = some w) (hroots : 0 < w.roots) :
    Lockstep (r.root id).2 H seen := by
  refine h.recount id (f := Wrapper.addRoot) (fun _ ↦ rfl) (fun _ ↦ rfl)
    (fun _ ↦ rfl) (fun hv ↦ ?_) fun _ _ ↦ Iff.rfl
  rw [hw, Option.some.injEq] at hv
  subst hv
  exact iff_of_true ((h.rooted hw).mpr hroots) w.roots_addRoot_pos

/-- A handle may lose its root as the last one is taken away. -/
theorem unroot (h : Lockstep r H seen) (hw : r.get? id = some w) (hone : w.roots = 1) :
    Lockstep (r.unroot id).2 (H.withoutRoot w.handle) seen := by
  refine h.recount id (f := Wrapper.dropRoot) (fun _ ↦ rfl) (fun _ ↦ rfl)
    (fun _ ↦ rfl) (fun hv ↦ ?_) fun hv hne ↦ ?_
  · rw [hw, Option.some.injEq] at hv
    subst hv
    exact iff_of_false (fun hboth ↦ hboth.1 rfl) (by simp [hone])
  · exact and_iff_right fun hsame ↦ hne (h.indexed.id_eq hw hv hsame)

/-- One root of several is taken away in the count only. -/
theorem unroot_again (h : Lockstep r H seen) (hw : r.get? id = some w) (hmany : 1 < w.roots) :
    Lockstep (r.unroot id).2 H seen := by
  refine h.recount id (f := Wrapper.dropRoot) (fun _ ↦ rfl) (fun _ ↦ rfl)
    (fun _ ↦ rfl) (fun hv ↦ ?_) fun _ _ ↦ Iff.rfl
  rw [hw, Option.some.injEq] at hv
  subst hv
  exact iff_of_true ((h.rooted hw).mpr (Nat.zero_lt_of_lt hmany)) (Nat.sub_pos_of_lt hmany)

theorem markPrivateData (h : Lockstep r H seen) (id : WrapperId) :
    Lockstep (r.markPrivateData id) H seen :=
  h.recount id (f := fun w ↦ { w with hasPrivateData := true }) (fun _ ↦ rfl) (fun _ ↦ rfl)
    (fun _ ↦ rfl) h.rooted fun _ _ ↦ Iff.rfl

/-- Roots of handles that no wrapper has may change freely. -/
theorem reroot (h : Lockstep r H seen) {rooted : Handle → Prop}
    (hother : ∀ {id w}, r.get? id = some w → (rooted w.handle ↔ H.rooted w.handle)) :
    Lockstep r { H with rooted := rooted } seen where
  orderly := h.orderly
  indexed := h.indexed
  object := h.object
  sole := h.sole
  rooted hw := (hother hw).trans (h.rooted hw)
  child_of_edge := h.child_of_edge
  edge_of_child := h.edge_of_child
  traced := h.traced
  made := h.made

/-! ## Wrappers come and go -/

/-- A handle that no wrapper has may be given back. -/
theorem release (h : Lockstep r H seen) {handle : Handle}
    (hfree : ∀ {id w}, r.get? id = some w → w.handle ≠ handle) :
    Lockstep r (H.withoutHandle handle) seen := by
  have htarget : ∀ {id w}, r.get? id = some w →
      (H.withoutHandle handle).target w.handle = H.target w.handle :=
    fun hw ↦ if_neg (hfree hw)
  exact
    { orderly := h.orderly
      indexed := h.indexed
      object := fun hw ↦ by
        rw [htarget hw]
        exact h.object hw
      sole := fun hw hv ↦ by
        rw [htarget hw, htarget hv]
        exact h.sole hw hv
      rooted := fun hw ↦ (and_iff_right (hfree hw)).trans (h.rooted hw)
      child_of_edge := fun hmeddled {_ _ _ _ _ _} hw hv ↦ by
        rw [htarget hw, htarget hv]
        exact h.child_of_edge hmeddled hw hv
      edge_of_child := fun hmeddled {_ _ _ _ _ _} hw hv ↦ by
        rw [htarget hw, htarget hv]
        exact h.edge_of_child hmeddled hw hv
      traced := fun hmeddled {_ k _} hpresent hchild ↦ by
        obtain ⟨hseen, hseen', hissued, hsole⟩ := h.traced hmeddled hpresent hchild
        refine ⟨hseen, hseen', hissued, fun z hz ↦ hsole z ?_⟩
        by_cases hk : k = handle
        · rw [Heap.target_withoutHandle, if_pos hk] at hz
          cases hz
        · rwa [Heap.target_withoutHandle, if_neg hk] at hz
      made := h.made }

/-- A wrapper may be removed. The heap keeps the children that its edges stood for. -/
theorem remove (h : Lockstep r H seen) (id : WrapperId) : Lockstep (r.remove id).2 H seen := by
  have hget : ∀ {asked v}, (r.remove id).2.get? asked = some v → ∃ w, r.get? asked = some w ∧
      asked ≠ id ∧ v.handle = w.handle ∧ v.roots = w.roots ∧
      ∀ {child}, child ∈ v.children ↔ child ≠ id ∧ child ∈ w.children := by
    intro asked v hv
    obtain ⟨hne, w, hw, rfl⟩ := h.orderly.coherent.of_get?_remove hv
    exact ⟨w, hw, hne, rfl, rfl, Wrapper.mem_children_without⟩
  exact
    { orderly := h.orderly.remove id
      indexed := h.indexed.remove h.orderly.coherent id
      object := fun hv ↦ by
        obtain ⟨w, hw, -, hsame, -, -⟩ := hget hv
        rw [hsame]
        exact h.object hw
      sole := fun hv hv' ↦ by
        obtain ⟨w, hw, -, hsame, -, -⟩ := hget hv
        obtain ⟨w', hw', -, hsame', -, -⟩ := hget hv'
        rw [hsame, hsame']
        exact h.sole hw hw'
      rooted := fun hv ↦ by
        obtain ⟨w, hw, -, hsame, hroots, -⟩ := hget hv
        rw [hsame, hroots]
        exact h.rooted hw
      child_of_edge := fun hmeddled {_ _ _ _ _ _} hv hv' hx hy hedge ↦ by
        obtain ⟨w, hw, -, hsame, -, hedges⟩ := hget hv
        obtain ⟨w', hw', -, hsame', -, -⟩ := hget hv'
        rw [hsame] at hx
        rw [hsame'] at hy ⊢
        exact h.child_of_edge hmeddled hw hw' hx hy (hedges.mp hedge).2
      edge_of_child := fun hmeddled {_ _ _ _ _ _} hv hv' hx hy hpresent hpresent' hchild ↦ by
        obtain ⟨w, hw, -, hsame, -, hedges⟩ := hget hv
        obtain ⟨w', hw', hne, hsame', -, -⟩ := hget hv'
        rw [hsame] at hx
        rw [hsame'] at hy hchild
        exact hedges.mpr ⟨hne, h.edge_of_child hmeddled hw hw' hx hy hpresent hpresent' hchild⟩
      traced := h.traced
      made := h.made }

/-- A removed wrapper's handle may be given back with it. -/
theorem dismiss (h : Lockstep r H seen) {handle : Handle}
    (hown : ∀ {other w}, r.get? other = some w → w.handle = handle → other = id) :
    Lockstep (r.remove id).2 (H.withoutHandle handle) seen := by
  apply (h.remove id).release
  intro other v hv hsame
  obtain ⟨hne, w, hw, rfl⟩ := h.orderly.coherent.of_get?_remove hv
  exact hne (hown hw hsame)

/-- An object that was never wrapped before may be wrapped. -/
theorem insert (h : Lockstep r H seen) (hH : H.Recorded) {native : NativeId} {handle : Handle}
    {rooted : Bool} (hnew : r.find? native = none) (hx : H.target handle = some x)
    (hseen : ¬ seen x) (hroot : H.rooted handle ↔ rooted = true) :
    Lockstep (r.insert native handle rooted).2 H (fun y ↦ seen y ∨ y = x) := by
  have hget : ∀ {asked v}, (r.insert native handle rooted).2.get? asked = some v →
      (asked = ⟨r.next⟩ ∧ v = .fresh native handle rooted) ∨ r.get? asked = some v := by
    intro asked v hv
    rw [Registry.get?_insert] at hv
    split at hv
    · next hid => exact .inl ⟨hid.symm, (Option.some.inj hv).symm⟩
    · exact .inr hv
  exact
    { orderly := h.orderly.insert handle rooted hnew
      indexed := h.indexed.insert native rooted fun hw ↦ h.handle_ne hw hx hseen
      object := fun hv ↦ by
        rcases hget hv with ⟨-, rfl⟩ | hw
        · exact ⟨x, hx, .inr rfl⟩
        · obtain ⟨y, hy, hyseen⟩ := h.object hw
          exact ⟨y, hy, .inl hyseen⟩
      sole := fun {_ _ _ _ y} hv hv' hy hy' ↦ by
        rcases hget hv with ⟨rfl, rfl⟩ | hw <;> rcases hget hv' with ⟨rfl, rfl⟩ | hw'
        · rfl
        · apply absurd _ (h.target_ne hw' hseen)
          calc H.target _ = some y := hy'
            _ = H.target handle := hy.symm
            _ = some x := hx
        · apply absurd _ (h.target_ne hw hseen)
          calc H.target _ = some y := hy
            _ = H.target handle := hy'.symm
            _ = some x := hx
        · exact h.sole hw hw' hy hy'
      rooted := fun hv ↦ by
        rcases hget hv with ⟨-, rfl⟩ | hw
        · cases rooted <;> simpa [Wrapper.fresh] using hroot
        · exact h.rooted hw
      child_of_edge := fun hmeddled {_ _ _ _ _ _} hv hv' hy hy' hedge ↦ by
        rcases hget hv with ⟨-, rfl⟩ | hw
        · exact absurd hedge Std.ExtTreeSet.not_mem_empty
        · rcases hget hv' with ⟨rfl, rfl⟩ | hw'
          · obtain ⟨u, hu, -⟩ := h.orderly.coherent.parent_of_child hw hedge
            rw [h.orderly.coherent.get?_next] at hu
            cases hu
          · exact h.child_of_edge hmeddled hw hw' hy hy' hedge
      edge_of_child := fun hmeddled {_ _ _ _ _ _} hv hv' hy hy' hpresent hpresent' hchild ↦ by
        obtain ⟨hyseen, hyseen', -⟩ := h.traced hmeddled hpresent hchild
        rcases hget hv with ⟨-, rfl⟩ | hw
        · cases hx.symm.trans hy
          exact absurd hyseen hseen
        · rcases hget hv' with ⟨-, rfl⟩ | hw'
          · cases hx.symm.trans hy'
            exact absurd hyseen' hseen
          · exact h.edge_of_child hmeddled hw hw' hy hy' hpresent hpresent' hchild
      traced := fun hmeddled {_ _ _} hpresent hchild ↦ by
        obtain ⟨hyseen, hyseen', hrest⟩ := h.traced hmeddled hpresent hchild
        exact ⟨.inl hyseen, .inl hyseen', hrest⟩
      made := fun hy ↦ by
        rcases hy with hy | rfl
        · exact h.made hy
        · exact hH.made_of_target hx }

/-! ## Edges -/

section Edges

variable {owner child : WrapperId} {v : Wrapper} {y : ω}

/-- An edge and a child may be added together. -/
theorem attach (h : Lockstep r H seen) (hH : H.Recorded) (hw : r.get? owner = some w)
    (hv : r.get? child = some v) (hx : H.target w.handle = some x)
    (hy : H.target v.handle = some y) :
    Lockstep (r.attach owner child).2 (H.withChild x v.handle y) seen := by
  have hget : ∀ {id u}, (r.attach owner child).2.get? id = some u → ∃ old, r.get? id = some old ∧
      Registry.SameRecord old u ∧ ∀ {other}, other ∈ u.children ↔
        other ∈ old.children ∨ (id = owner ∧ other = child) :=
    Registry.of_get?_attach hw hv
  exact
    { orderly := h.orderly.attach owner child
      indexed := h.indexed.attach owner child
      object := fun hu ↦ by
        obtain ⟨old, hold, hsame, -⟩ := hget hu
        rw [hsame.handle]
        exact h.object hold
      sole := fun hu hu' ↦ by
        obtain ⟨old, hold, hsame, -⟩ := hget hu
        obtain ⟨old', hold', hsame', -⟩ := hget hu'
        rw [hsame.handle, hsame'.handle]
        exact h.sole hold hold'
      rooted := fun hu ↦ by
        obtain ⟨old, hold, hsame, -⟩ := hget hu
        rw [hsame.handle, hsame.roots]
        exact h.rooted hold
      child_of_edge := fun hmeddled {a b _ _ xa yb} hu hu' hxa hyb hedge hpresent ↦ by
        obtain ⟨old, hold, hsame, hedges⟩ := hget hu
        obtain ⟨old', hold', hsame', -⟩ := hget hu'
        rw [hsame.handle] at hxa
        rw [hsame'.handle] at hyb ⊢
        rw [Heap.child_withChild]
        by_cases hslot : xa = x ∧ old'.handle = v.handle
        · refine .inl ⟨hslot.1, hslot.2, ?_⟩
          have htarget : H.target old'.handle = some yb := hyb
          rw [hslot.2, hy, Option.some.injEq] at htarget
          exact htarget.symm
        · refine .inr ⟨hslot, ?_⟩
          rcases hedges.mp hedge with hedge | ⟨rfl, rfl⟩
          · exact h.child_of_edge hmeddled hold hold' hxa hyb hedge hpresent
          · rw [hw, Option.some.injEq] at hold
            rw [hv, Option.some.injEq] at hold'
            subst hold hold'
            have htarget : H.target w.handle = some xa := hxa
            rw [hx, Option.some.injEq] at htarget
            exact absurd ⟨htarget.symm, rfl⟩ hslot
      edge_of_child := fun hmeddled {a b _ _ xa yb} hu hu' hxa hyb hpresent hpresent' hchild ↦ by
        obtain ⟨old, hold, hsame, hedges⟩ := hget hu
        obtain ⟨old', hold', hsame', -⟩ := hget hu'
        rw [hsame.handle] at hxa
        rw [hsame'.handle] at hyb hchild
        apply hedges.mpr
        rcases Heap.child_withChild.mp hchild with ⟨rfl, hslot, -⟩ | ⟨-, hchild⟩
        · exact .inr ⟨h.sole hw hold hx hxa, h.indexed.id_eq hv hold' hslot⟩
        · exact .inl (h.edge_of_child hmeddled hold hold' hxa hyb hpresent hpresent' hchild)
      traced := fun hmeddled {_ _ _} hpresent hchild ↦ by
        rcases Heap.child_withChild.mp hchild with ⟨rfl, rfl, rfl⟩ | ⟨-, hchild⟩
        · obtain ⟨_, hx', hseen⟩ := h.object hw
          obtain ⟨_, hy', hseen'⟩ := h.object hv
          cases hx.symm.trans hx'
          cases hy.symm.trans hy'
          exact ⟨hseen, hseen', h.issued hH hv, fun z hz ↦ Option.some.inj (hz.symm.trans hy)⟩
        · exact h.traced hmeddled hpresent hchild
      made := h.made }

/-- An edge may be taken away if the child goes as well, or is none any more because one of the two
objects is gone. -/
theorem detach (h : Lockstep r H seen) (hw : r.get? owner = some w) (hv : r.get? child = some v)
    (hx : H.target w.handle = some x) (hy : H.target v.handle = some y)
    {left : ω → Handle → ω → Prop} (hsub : ∀ {a k b}, left a k b → H.child a k b)
    (hsup : ∀ {a k b}, H.child a k b → ¬ (a = x ∧ k = v.handle) → left a k b)
    (hlost : H.present x → H.present y → ¬ left x v.handle y) :
    Lockstep (r.detach owner child).2 { H with child := left } seen := by
  have hget : ∀ {id u}, (r.detach owner child).2.get? id = some u → ∃ old, r.get? id = some old ∧
      Registry.SameRecord old u ∧ ∀ {other}, other ∈ u.children ↔
        other ∈ old.children ∧ ¬ (id = owner ∧ other = child) :=
    Registry.of_get?_detach
  exact
    { orderly := h.orderly.detach owner child
      indexed := h.indexed.detach owner child
      object := fun hu ↦ by
        obtain ⟨old, hold, hsame, -⟩ := hget hu
        rw [hsame.handle]
        exact h.object hold
      sole := fun hu hu' ↦ by
        obtain ⟨old, hold, hsame, -⟩ := hget hu
        obtain ⟨old', hold', hsame', -⟩ := hget hu'
        rw [hsame.handle, hsame'.handle]
        exact h.sole hold hold'
      rooted := fun hu ↦ by
        obtain ⟨old, hold, hsame, -⟩ := hget hu
        rw [hsame.handle, hsame.roots]
        exact h.rooted hold
      child_of_edge := fun hmeddled {a b _ _ xa yb} hu hu' hxa hyb hedge hpresent ↦ by
        obtain ⟨old, hold, hsame, hedges⟩ := hget hu
        obtain ⟨old', hold', hsame', -⟩ := hget hu'
        rw [hsame.handle] at hxa
        rw [hsame'.handle] at hyb ⊢
        obtain ⟨hedge, hother⟩ := hedges.mp hedge
        apply hsup (h.child_of_edge hmeddled hold hold' hxa hyb hedge hpresent)
        rintro ⟨rfl, hslot⟩
        exact hother ⟨h.sole hw hold hx hxa, h.indexed.id_eq hv hold' hslot⟩
      edge_of_child := fun hmeddled {a b _ _ xa yb} hu hu' hxa hyb hpresent hpresent' hleft ↦ by
        obtain ⟨old, hold, hsame, hedges⟩ := hget hu
        obtain ⟨old', hold', hsame', -⟩ := hget hu'
        rw [hsame.handle] at hxa
        rw [hsame'.handle] at hyb hleft
        refine hedges.mpr ⟨h.edge_of_child hmeddled hold hold' hxa hyb hpresent hpresent'
          (hsub hleft), ?_⟩
        rintro ⟨rfl, rfl⟩
        cases hw.symm.trans hold
        cases hv.symm.trans hold'
        cases hx.symm.trans hxa
        cases hy.symm.trans hyb
        exact hlost hpresent hpresent' hleft
      traced := fun hmeddled {_ _ _} hpresent hleft ↦ h.traced hmeddled hpresent (hsub hleft)
      made := h.made }

end Edges

end Lockstep

end ScriptBridge
