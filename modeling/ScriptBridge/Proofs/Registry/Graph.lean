import ScriptBridge.Proofs.Registry.History

/-!
# The graph of ownership

The edges of a registry are what its history says: an edge is there if it was attached between two
wrappers that were there, was not detached later, and both wrappers have stayed. Every wrapper
keeps its own side of an edge, and the sides agree, which is why a removal that asks the removed
wrapper alone for its edges misses none.
-/

namespace ScriptBridge.Registry

variable {r : Registry} {owner child : WrapperId} {changes : List Change}

/-- The edge was attached while both wrappers were there, and was not detached later. -/
def Attached (changes : List Change) (owner child : WrapperId) : Prop :=
  Since changes (fun r change ↦ change = .attach owner child ∧ r.Live owner ∧ r.Live child)
    (· = .detach owner child)

theorem hasEdge_empty (owner child : WrapperId) : empty.hasEdge owner child = false := by
  simp [hasEdge, get?, empty]

theorem hasEdge_drain (r : Registry) (owner child : WrapperId) :
    r.drain.2.hasEdge owner child = false := by
  rw [hasEdge, get?_drain, Option.any_none]

/-- What attaches is what is between two wrappers that are there and is not there yet. -/
theorem attach_true_iff : (r.attach owner child).1 = true ↔
    r.Live owner ∧ r.Live child ∧ ¬ r.hasEdge owner child = true := by
  rw [attach_fst_iff, Bool.not_eq_true]
  rfl

theorem hasEdge_attach_iff {a b : WrapperId} : (r.attach owner child).2.hasEdge a b = true ↔
    (owner = a ∧ child = b ∧ r.Live a ∧ r.Live b) ∨ r.hasEdge a b = true := by
  rw [hasEdge_attach, attach_true_iff]
  constructor
  · rintro (h | ⟨⟨howner, hchild, -⟩, rfl, rfl⟩)
    · exact .inr h
    · exact .inl ⟨rfl, rfl, howner, hchild⟩
  · rintro (⟨rfl, rfl, howner, hchild⟩ | h)
    · by_cases hold : r.hasEdge owner child = true
      · exact .inl hold
      · exact .inr ⟨⟨howner, hchild, hold⟩, rfl, rfl⟩
    · exact .inl h

/-- An edge is there after a change if the change attaches it, or if it was there and the change
neither detaches it nor takes one of its ends away. -/
theorem Coherent.hasEdge_apply_iff (hr : r.Coherent) {change : Change} :
    (r.apply change).hasEdge owner child = true ↔
      (change = .attach owner child ∧ r.Live owner ∧ r.Live child) ∨
      (r.hasEdge owner child = true ∧ change ≠ .detach owner child ∧
        ¬ change.Ends owner ∧ ¬ change.Ends child) := by
  cases change with
  | insert native handle rooted => simp [Registry.apply, Change.Ends, hr.hasEdge_insert]
  | root id =>
    have hedge : (r.root id).2.hasEdge owner child = r.hasEdge owner child :=
      hasEdge_modify r id (f := Wrapper.addRoot) (fun _ ↦ rfl) owner child
    simp [Registry.apply, Change.Ends, hedge]
  | unroot id =>
    have hedge : (r.unroot id).2.hasEdge owner child = r.hasEdge owner child :=
      hasEdge_modify r id (f := Wrapper.dropRoot) (fun _ ↦ rfl) owner child
    simp [Registry.apply, Change.Ends, hedge]
  | clearRoots id => simp [Registry.apply, Change.Ends, Registry.clearRoots, hasEdge_modify]
  | markPrivateData id =>
    simp [Registry.apply, Change.Ends, Registry.markPrivateData, hasEdge_modify]
  | attach a b => simp [Registry.apply, Change.Ends, hasEdge_attach_iff, and_assoc]
  | detach a b =>
    rw [Registry.apply, hasEdge_detach, @eq_comm _ owner, @eq_comm _ child]
    simp [Change.Ends]
  | remove id =>
    rw [Registry.apply, hr.hasEdge_remove, ne_comm, @ne_comm _ child, ← and_assoc, and_comm]
    simp [Change.Ends]
  | drain => simp [Registry.apply, Change.Ends, hasEdge_drain]

/-- An edge is there if it was attached and both its ends are there. -/
theorem hasEdge_replay_iff (changes : List Change) (owner child : WrapperId) :
    (replay changes).hasEdge owner child = true ↔
      (replay changes).Live owner ∧ (replay changes).Live child ∧
        Attached changes owner child := by
  induction changes using List.reverseRecOn with
  | nil => simp [hasEdge_empty, Attached, not_since_nil]
  | append_singleton changes last ih =>
    have hr : (replay changes).Coherent := coherent_replay changes
    rw [replay_concat, hr.hasEdge_apply_iff, hr.live_apply_iff, hr.live_apply_iff, Attached,
      since_concat_iff, ← Attached, ih]
    constructor
    · rintro (⟨rfl, howner, hchild⟩ | ⟨⟨howner, hchild, hatt⟩, hlast, hendo, hendc⟩)
      · exact ⟨.inr ⟨howner, by simp [Change.Ends]⟩, .inr ⟨hchild, by simp [Change.Ends]⟩,
          .inl ⟨rfl, howner, hchild⟩⟩
      · exact ⟨.inr ⟨howner, hendo⟩, .inr ⟨hchild, hendc⟩, .inr ⟨hatt, hlast⟩⟩
    · rintro ⟨howner, hchild, hbegins | ⟨hatt, hlast⟩⟩
      · exact .inl hbegins
      · -- Both ends were there when the edge was attached, so neither number is given out now.
        have howner := howner.resolve_left (hatt.ne_issue? (fun hbegins ↦ hbegins.2.1) last)
        have hchild := hchild.resolve_left (hatt.ne_issue? (fun hbegins ↦ hbegins.2.2) last)
        exact .inr ⟨⟨howner.1, hchild.1, hatt⟩, hlast, howner.2, hchild.2⟩

/-- The edges of a registry with a history. -/
structure OwnershipGraph (changes : List Change) (r : Registry) : Prop where
  /-- The two sides of an edge agree. -/
  child_iff_parent : ∀ owner child, (∃ w, r.get? owner = some w ∧ child ∈ w.children) ↔
    ∃ v, r.get? child = some v ∧ owner ∈ v.parents
  /-- An edge is between wrappers that are there. -/
  live : ∀ {owner child w}, r.get? owner = some w → child ∈ w.children →
    r.Live owner ∧ r.Live child
  hasEdge_iff : ∀ owner child, r.hasEdge owner child = true ↔
    r.Live owner ∧ r.Live child ∧ Attached changes owner child
  attach_iff : ∀ owner child, (r.attach owner child).1 = true ↔
    r.Live owner ∧ r.Live child ∧ ¬ r.hasEdge owner child = true
  detach_iff : ∀ owner child, (r.detach owner child).1 = true ↔ r.hasEdge owner child = true
  /-- A removal takes away the edges that touch the wrapper, and no others. -/
  remove_iff : ∀ id owner child, (r.remove id).2.hasEdge owner child = true ↔
    r.hasEdge owner child = true ∧ owner ≠ id ∧ child ≠ id

/-- Whatever changes made a registry, its edges form the graph of their history. -/
theorem ownershipGraph_replay (changes : List Change) :
    OwnershipGraph changes (replay changes) where
  child_iff_parent owner child := by
    rw [← hasEdge_iff, (coherent_replay changes).hasEdge_iff_knowsParent]
    rfl
  live hw hchild := (coherent_replay changes).live_of_hasEdge (hasEdge_iff.mpr ⟨_, hw, hchild⟩)
  hasEdge_iff := hasEdge_replay_iff changes
  attach_iff _ _ := attach_true_iff
  detach_iff owner child := by rw [detach_fst]
  remove_iff id owner child := by
    rw [(coherent_replay changes).hasEdge_remove]
    constructor
    · rintro ⟨howner, hchild, h⟩
      exact ⟨h, howner, hchild⟩
    · rintro ⟨h, howner, hchild⟩
      exact ⟨howner, hchild, h⟩

end ScriptBridge.Registry
