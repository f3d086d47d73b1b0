import Mathlib.Data.List.Induction
import ScriptBridge.Proofs.Registry.Entries
import ScriptBridge.Proofs.Registry.Removal

/-!
# Histories of a registry

A registry is what its changes have made of a new one. The changes may come in any order and name
any wrappers, also such as were never there or have left. What holds of a registry can be said of
its history: a change of one kind came, and none of another kind came later. Going one change
further is then a matter of the last change alone.
-/

namespace ScriptBridge.Registry

/-- A change that a registry may be asked for. -/
inductive Change where
  | insert (native : NativeId) (handle : Handle) (rooted : Bool)
  | root (id : WrapperId)
  | unroot (id : WrapperId)
  | clearRoots (id : WrapperId)
  | attach (owner child : WrapperId)
  | detach (owner child : WrapperId)
  | markPrivateData (id : WrapperId)
  | remove (id : WrapperId)
  | drain
  deriving DecidableEq, Repr

/-- The registry after a change. -/
def apply (r : Registry) : Change → Registry
  | .insert native handle rooted => (r.insert native handle rooted).2
  | .root id => (r.root id).2
  | .unroot id => (r.unroot id).2
  | .clearRoots id => r.clearRoots id
  | .attach owner child => (r.attach owner child).2
  | .detach owner child => (r.detach owner child).2
  | .markPrivateData id => r.markPrivateData id
  | .remove id => (r.remove id).2
  | .drain => r.drain.2

/-- What changes make of a new registry, one after the other. -/
def replay (changes : List Change) : Registry := changes.foldl apply empty

@[simp]
theorem replay_nil : replay [] = empty :=
  rfl

@[simp]
theorem replay_concat (changes : List Change) (last : Change) :
    replay (changes ++ [last]) = (replay changes).apply last := by
  rw [replay, List.foldl_append]
  rfl

variable {r : Registry} {id owner child : WrapperId} {changes : List Change}

/-- Every change keeps a registry coherent. -/
theorem Coherent.apply (hr : r.Coherent) (change : Change) : (r.apply change).Coherent := by
  cases change with
  | insert native handle rooted => exact hr.insert native handle rooted
  | root id => exact hr.root id
  | unroot id => exact hr.unroot id
  | clearRoots id => exact hr.clearRoots id
  | attach owner child => exact hr.attach owner child
  | detach owner child => exact hr.detach owner child
  | markPrivateData id => exact hr.markPrivateData id
  | remove id => exact hr.remove id
  | drain => exact (orderly_drain r).coherent

theorem coherent_replay (changes : List Change) : (replay changes).Coherent := by
  induction changes using List.reverseRecOn with
  | nil => exact orderly_empty.coherent
  | append_singleton changes last ih =>
    rw [replay_concat]
    exact ih.apply last

/-! ## What came, and what came later -/

/-- A change of one kind came, and none of the other kind came later. Whether a change begins may
depend on the registry that it met. -/
def Since (changes : List Change) (begins : Registry → Change → Prop) (ends : Change → Prop) :
    Prop :=
  ∃ before change later, changes = before ++ change :: later ∧ begins (replay before) change ∧
    ∀ c ∈ later, ¬ ends c

variable {begins : Registry → Change → Prop} {ends : Change → Prop} {last : Change}

/-- A history that ends in a change is split at that change or before it. -/
theorem concat_eq_append_cons_iff {before later : List Change} {change : Change} :
    changes ++ [last] = before ++ change :: later ↔
      (changes = before ∧ last = change ∧ later = []) ∨
      ∃ later', later = later' ++ [last] ∧ changes = before ++ change :: later' := by
  rcases later.eq_nil_or_concat with rfl | ⟨later', c, rfl⟩
  · rw [List.append_singleton_inj]
    simp
  · rw [List.concat_eq_append, ← List.cons_append, ← List.append_assoc, List.append_singleton_inj]
    constructor
    · rintro ⟨rfl, rfl⟩
      exact .inr ⟨later', rfl, rfl⟩
    · rintro (⟨-, -, hnil⟩ | ⟨later'', heq, rfl⟩)
      · simp at hnil
      · obtain ⟨rfl, rfl⟩ := List.append_singleton_inj.mp heq
        exact ⟨rfl, rfl⟩

theorem not_since_nil : ¬ Since [] begins ends := by
  rintro ⟨before, change, later, hsplit, -⟩
  simp at hsplit

/-- The last change begins, or it does not end what came before. -/
theorem since_concat_iff : Since (changes ++ [last]) begins ends ↔
    begins (replay changes) last ∨ (Since changes begins ends ∧ ¬ ends last) := by
  constructor
  · rintro ⟨before, change, later, hsplit, hbegins, hlater⟩
    rcases concat_eq_append_cons_iff.mp hsplit with ⟨rfl, rfl, -⟩ | ⟨later', rfl, rfl⟩
    · exact .inl hbegins
    · rw [List.forall_mem_append, List.forall_mem_singleton] at hlater
      exact .inr ⟨⟨before, change, later', rfl, hbegins, hlater.1⟩, hlater.2⟩
  · rintro (hbegins | ⟨⟨before, change, later, rfl, hbegins, hlater⟩, hlast⟩)
    · exact ⟨changes, last, [], rfl, hbegins, by simp⟩
    · refine ⟨before, change, later ++ [last], by simp, hbegins, ?_⟩
      rw [List.forall_mem_append, List.forall_mem_singleton]
      exact ⟨hlater, hlast⟩

/-- What begins with some changes and lasts until others, change by change, is said by a history. -/
theorem since_iff_of_apply {P : Registry → Prop} (hempty : ¬ P empty)
    (happly : ∀ {r change}, r.Coherent →
      (P (r.apply change) ↔ begins r change ∨ (P r ∧ ¬ ends change)))
    (changes : List Change) : P (replay changes) ↔ Since changes begins ends := by
  induction changes using List.reverseRecOn with
  | nil => exact iff_of_false hempty not_since_nil
  | append_singleton changes last ih =>
    rw [replay_concat, happly (coherent_replay changes), since_concat_iff, ih]

/-! ## Numbers -/

/-- The number that a change gives out. -/
def issue? (r : Registry) : Change → Option WrapperId
  | .insert native handle rooted => some (r.insert native handle rooted).1
  | _ => none

theorem eq_insert_of_issue? {change : Change} (h : r.issue? change = some id) :
    ∃ native handle rooted, change = .insert native handle rooted := by
  cases change with
  | insert native handle rooted => exact ⟨native, handle, rooted, rfl⟩
  | _ => cases h

theorem eq_next_of_issue? {change : Change} (h : r.issue? change = some id) : id = ⟨r.next⟩ := by
  cases change <;> cases h
  rfl

/-- A number below the next one is not given out any more. -/
theorem ne_issue? (h : id.index < r.next) (change : Change) : r.issue? change ≠ some id := by
  intro hissue
  rw [eq_next_of_issue? hissue] at h
  exact Nat.lt_irrefl _ h

/-- A change moves the next number on if it gives one out. -/
theorem next_apply (r : Registry) (change : Change) : (r.apply change).next =
    if (r.issue? change).isSome then r.next + 1 else r.next := by
  cases change with
  | attach owner child =>
    rw [apply, attach_snd]
    split <;> rfl
  | detach owner child =>
    rw [apply, detach_snd]
    split <;> rfl
  | remove id => exact next_remove r id
  | _ => rfl

theorem next_le_apply (r : Registry) (change : Change) : r.next ≤ (r.apply change).next := by
  rw [next_apply]
  split <;> omega

theorem next_le_foldl (r : Registry) (changes : List Change) :
    r.next ≤ (changes.foldl apply r).next := by
  induction changes generalizing r with
  | nil => exact Nat.le_refl _
  | cons change changes ih => exact Nat.le_trans (next_le_apply r change) (ih (r.apply change))

/-- A wrapper that was there has a number that is not given out any more. -/
theorem Since.ne_issue? (h : Since changes begins ends)
    (hlive : ∀ {r change}, begins r change → r.Live id) (change : Change) :
    (replay changes).issue? change ≠ some id := by
  obtain ⟨before, first, later, rfl, hbegins, -⟩ := h
  obtain ⟨w, hw⟩ := hlive hbegins
  apply Registry.ne_issue?
  calc id.index < (replay before).next := (coherent_replay before).index_lt hw
    _ ≤ (replay (before ++ first :: later)).next := by
      rw [replay, replay, List.foldl_append]
      exact next_le_foldl _ _

/-! ## Records -/

/-- The change takes the wrapper away, if it is there. -/
def Change.Ends (id : WrapperId) (change : Change) : Prop := change = .remove id ∨ change = .drain

/-- What a change makes of a count of roots. -/
def Change.recount (id : WrapperId) (count : Nat) : Change → Nat
  | .root other => if other = id then min (count + 1) Wrapper.rootLimit else count
  | .unroot other => if other = id then count - 1 else count
  | .clearRoots other => if other = id then 0 else count
  | _ => count

/-- What a wrapper is called on either side, and how many roots it has. -/
def record? (r : Registry) (id : WrapperId) : Option (NativeId × Handle × Nat) :=
  (r.get? id).map fun w ↦ (w.native, w.handle, w.roots)

theorem live_iff_record? : r.Live id ↔ (r.record? id).isSome = true := by
  rw [Live, record?, Option.isSome_map, Option.isSome_iff_exists]

theorem namesOf_of_sameRecord {w v : Wrapper} (h : SameRecord w v) : namesOf v = namesOf w := by
  rw [namesOf, namesOf, h.native, h.handle]

/-- A change in place that keeps all names. -/
theorem record?_of_ite {r' : Registry} {c : Prop} [Decidable c] {f : Wrapper → Wrapper}
    (count : Nat → Nat) (hget : r'.get? id = if c then (r.get? id).map f else r.get? id)
    (hnames : ∀ w, namesOf (f w) = namesOf w)
    (hcount : ∀ w : Wrapper, (if c then (f w).roots else w.roots) = count w.roots) :
    r'.record? id = (r.record? id).map fun (native, handle, roots) ↦
      (native, handle, count roots) := by
  rw [record?, record?, hget]
  cases r.get? id with
  | none => split <;> rfl
  | some w =>
    simp only [Option.map_some, ← hcount]
    obtain ⟨hnative, hhandle⟩ := Prod.mk.inj (hnames w)
    split
    · rw [Option.map_some, hnative, hhandle]
    · rfl

theorem record?_modify (other : WrapperId) {f : Wrapper → Wrapper} (count : Nat → Nat)
    (hnames : ∀ w, namesOf (f w) = namesOf w)
    (hcount : ∀ w : Wrapper, (if other = id then (f w).roots else w.roots) = count w.roots) :
    (r.modify other f).record? id = (r.record? id).map fun (native, handle, roots) ↦
      (native, handle, count roots) :=
  record?_of_ite count (get?_modify r other id f) hnames hcount

/-- Unless it gives the number out or takes the wrapper away, a change recounts the roots. -/
theorem Coherent.record?_apply (hr : r.Coherent) {change : Change}
    (hissue : r.issue? change ≠ some id) (hends : ¬ change.Ends id) :
    (r.apply change).record? id = (r.record? id).map fun (native, handle, roots) ↦
      (native, handle, change.recount id roots) := by
  cases change with
  | insert native handle rooted =>
    have hne : (⟨r.next⟩ : WrapperId) ≠ id := fun hnext ↦ hissue (congrArg some hnext)
    have hget := (get?_insert r native handle rooted id).trans (if_neg hne)
    exact record?_of_ite (fun roots ↦ roots) (hget.trans (if_neg not_false).symm)
      (fun _ ↦ rfl) fun _ ↦ if_neg not_false
  | root other =>
    exact record?_modify other (fun roots ↦ Change.recount id roots (.root other)) (fun _ ↦ rfl)
      fun _ ↦ rfl
  | unroot other =>
    exact record?_modify other (fun roots ↦ Change.recount id roots (.unroot other)) (fun _ ↦ rfl)
      fun _ ↦ rfl
  | clearRoots other =>
    exact record?_modify other (fun roots ↦ Change.recount id roots (.clearRoots other))
      (fun _ ↦ rfl) fun _ ↦ rfl
  | markPrivateData other =>
    exact record?_modify other (fun roots ↦ roots) (fun _ ↦ rfl) fun _ ↦ ite_self _
  | attach owner child =>
    have hrecord := sameRecord_linked owner child id
    refine record?_of_ite (fun roots ↦ roots) (get?_attach r owner child id)
      (fun w ↦ namesOf_of_sameRecord (hrecord w)) fun w ↦ ?_
    rw [(hrecord w).roots, ite_self]
  | detach owner child =>
    have hrecord := sameRecord_unlinked owner child id
    refine record?_of_ite (fun roots ↦ roots) (get?_detach r owner child id)
      (fun w ↦ namesOf_of_sameRecord (hrecord w)) fun w ↦ ?_
    rw [(hrecord w).roots, ite_self]
  | remove other =>
    -- Another wrapper is removed, which at most cuts edges of this one.
    have hne : id ≠ other := fun hid ↦ hends (.inl (congrArg Change.remove hid.symm))
    have hget := hr.get?_remove_of_ne hne
    exact record?_of_ite (fun roots ↦ roots) (hget.trans (if_pos trivial).symm) (fun _ ↦ rfl)
      fun _ ↦ if_pos trivial
  | drain => exact absurd (.inr rfl) hends

theorem live_apply_of_issue? {change : Change} (h : r.issue? change = some id) :
    (r.apply change).Live id := by
  obtain ⟨native, handle, rooted, rfl⟩ := eq_insert_of_issue? h
  obtain rfl := Option.some.inj h
  exact ⟨_, get?_insert_self r native handle rooted⟩

theorem record?_apply_of_ends {change : Change} (hr : r.Coherent) (h : change.Ends id) :
    (r.apply change).record? id = none := by
  rcases h with rfl | rfl
  · rw [apply, record?, hr.get?_remove, if_pos rfl, Option.map_none]
  · rw [apply, record?, get?_drain, Option.map_none]

/-- A wrapper is there after a change if its number has just been given out, or if it was there and
was not taken away. -/
theorem Coherent.live_apply_iff (hr : r.Coherent) {change : Change} : (r.apply change).Live id ↔
    r.issue? change = some id ∨ (r.Live id ∧ ¬ change.Ends id) := by
  by_cases hissue : r.issue? change = some id
  · simp [hissue, live_apply_of_issue?]
  · simp only [live_iff_record?]
    by_cases hends : change.Ends id
    · simp [hissue, hends, record?_apply_of_ends hr hends]
    · simp [hissue, hends, hr.record?_apply hissue hends]

end ScriptBridge.Registry
