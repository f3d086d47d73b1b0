import ScriptBridge.Proofs.Registry.History

/-!
# What the indexes of a registry say of its history

An index leads to the wrapper of the latest insertion under a name, as long as that wrapper has not
been taken away; when it has been, the wrapper of an earlier insertion does not come back. A wrapper
is there from its insertion until it is taken away, with the names it was given and the roots it was
given since. Numbers are given out once.
-/

namespace ScriptBridge.Registry

variable {r : Registry} {id : WrapperId} {changes : List Change} {change : Change}

/-! ## The two indexes -/

/-- The change records a wrapper for the native object. -/
def Change.Wraps (native : NativeId) (change : Change) : Prop :=
  ∃ handle rooted, change = .insert native handle rooted

/-- The change records a wrapper for the handle. -/
def Change.Holds (handle : Handle) (change : Change) : Prop :=
  ∃ native rooted, change = .insert native handle rooted

/-- The latest change that records a wrapper under a name gave out the number, and the wrapper was
not taken away later. -/
def Latest (changes : List Change) (records : Change → Prop) (id : WrapperId) : Prop :=
  Since changes (fun r change ↦ records change ∧ r.issue? change = some id)
    (fun change ↦ records change ∨ change.Ends id)

/-- What an entry of an index is after an operation, if some of the changes record a wrapper under
its name. -/
structure Indexing (lead : Registry → Option WrapperId) (records : Change → Prop) : Prop where
  empty : lead empty = none
  insert : ∀ r native handle rooted id, lead (Registry.insert r native handle rooted).2 = some id ↔
    (records (.insert native handle rooted) ∧ (Registry.insert r native handle rooted).1 = id) ∨
      (lead r = some id ∧ ¬ records (.insert native handle rooted))
  modify : ∀ r id f, lead (Registry.modify r id f) = lead r
  remove : ∀ {r}, Coherent r → ∀ id found,
    lead (Registry.remove r id).2 = some found ↔ lead r = some found ∧ found ≠ id
  drain : ∀ r, lead (Registry.drain r).2 = none
  /-- What records a wrapper gives out a number. -/
  records_issue? : ∀ {change}, records change → ∀ r, (issue? r change).isSome = true

theorem indexing_find? (native : NativeId) :
    Indexing (·.find? native) (Change.Wraps native) where
  empty := by simp [find?, empty]
  insert r other handle rooted id := by
    rw [find?_insert]
    by_cases heq : other = native
    · simp [Change.Wraps, heq, Registry.insert]
    · simp [Change.Wraps, heq]
  modify _ _ _ := rfl
  remove hr _ _ := hr.find?_remove_iff
  drain r := by simp [find?, drain]
  records_issue? := by
    rintro change ⟨handle, rooted, rfl⟩ r
    rfl

theorem indexing_findByHandle? (handle : Handle) :
    Indexing (·.findByHandle? handle) (Change.Holds handle) where
  empty := by simp [findByHandle?, empty]
  insert r native other rooted id := by
    rw [findByHandle?_insert]
    by_cases heq : other = handle
    · simp [Change.Holds, heq, Registry.insert]
    · simp [Change.Holds, heq]
  modify _ _ _ := rfl
  remove hr _ _ := hr.findByHandle?_remove_iff
  drain r := by simp [findByHandle?, drain]
  records_issue? := by
    rintro change ⟨native, rooted, rfl⟩ r
    rfl

namespace Indexing

variable {lead : Registry → Option WrapperId} {records : Change → Prop}

theorem attach (h : Indexing lead records) (r : Registry) (owner child : WrapperId) :
    lead (r.attach owner child).2 = lead r := by
  rw [attach_snd]
  split
  · rw [h.modify, h.modify]
  · rfl

theorem detach (h : Indexing lead records) (r : Registry) (owner child : WrapperId) :
    lead (r.detach owner child).2 = lead r := by
  rw [detach_snd]
  split
  · rw [h.modify, h.modify]
  · rfl

theorem not_records (h : Indexing lead records) (hissue : r.issue? change = none) :
    ¬ records change := by
  intro hrecords
  have hsome := h.records_issue? hrecords r
  rw [hissue] at hsome
  cases hsome

/-- An entry leads to a wrapper after a change if the change has recorded it under the name, or if
the entry led there before and the change neither records another one nor takes the wrapper away. -/
theorem apply_iff (h : Indexing lead records) (hr : r.Coherent) :
    lead (r.apply change) = some id ↔
      (records change ∧ r.issue? change = some id) ∨
        (lead r = some id ∧ ¬ (records change ∨ change.Ends id)) := by
  -- What leaves the index alone neither records nor ends anything.
  have hsame : lead (r.apply change) = lead r → r.issue? change = none → ¬ change.Ends id →
      (lead (r.apply change) = some id ↔ (records change ∧ r.issue? change = some id) ∨
        (lead r = some id ∧ ¬ (records change ∨ change.Ends id))) := by
    intro hlead hissue hends
    simp [hlead, hends, h.not_records hissue]
  cases change with
  | insert native handle rooted =>
    rw [Registry.apply, h.insert]
    simp [issue?, Change.Ends]
  | root other => exact hsame (h.modify r other _) rfl (by simp [Change.Ends])
  | unroot other => exact hsame (h.modify r other _) rfl (by simp [Change.Ends])
  | clearRoots other => exact hsame (h.modify r other _) rfl (by simp [Change.Ends])
  | markPrivateData other => exact hsame (h.modify r other _) rfl (by simp [Change.Ends])
  | attach owner child => exact hsame (h.attach r owner child) rfl (by simp [Change.Ends])
  | detach owner child => exact hsame (h.detach r owner child) rfl (by simp [Change.Ends])
  | remove other =>
    have hnot : ¬ records (.remove other) := h.not_records (r := r) rfl
    rw [Registry.apply, h.remove hr, ne_comm]
    simp [hnot, Change.Ends]
  | drain =>
    have hnot : ¬ records .drain := h.not_records (r := r) rfl
    rw [Registry.apply, h.drain]
    simp [hnot, Change.Ends]

/-- An entry leads to the latest wrapper recorded under its name. -/
theorem replay_iff (h : Indexing lead records) (changes : List Change) (id : WrapperId) :
    lead (replay changes) = some id ↔ Latest changes records id := by
  have hempty : ¬ lead Registry.empty = some id := by simp [h.empty]
  exact since_iff_of_apply (P := fun r ↦ lead r = some id) hempty (fun hr ↦ h.apply_iff hr) changes

end Indexing

/-! ## The wrappers -/

/-- A wrapper is there from the time its number is given out until it is taken away. -/
theorem live_replay_iff (changes : List Change) (id : WrapperId) : (replay changes).Live id ↔
    Since changes (fun r change ↦ r.issue? change = some id) (Change.Ends id) := by
  have hempty : ¬ empty.Live id := by simp [Live, get?, empty]
  exact since_iff_of_apply (P := (·.Live id)) hempty (fun hr ↦ hr.live_apply_iff) changes

/-- Until it is taken away, a wrapper has the names it was given and the roots counted since. -/
theorem record?_replay {before later : List Change} {native : NativeId} {handle : Handle}
    {rooted : Bool} (hid : ((replay before).insert native handle rooted).1 = id)
    (hlater : ∀ c ∈ later, ¬ c.Ends id) :
    (replay (before ++ .insert native handle rooted :: later)).record? id =
      some (native, handle, later.foldl (Change.recount id) (if rooted then 1 else 0)) := by
  subst hid
  induction later using List.reverseRecOn with
  | nil =>
    rw [replay_concat, Registry.apply, record?, get?_insert_self]
    rfl
  | append_singleton later last ih =>
    rw [List.forall_mem_append, List.forall_mem_singleton] at hlater
    have hrecord := ih hlater.1
    have hr := coherent_replay (before ++ .insert native handle rooted :: later)
    obtain ⟨w, hw⟩ := live_iff_record?.mpr (by rw [hrecord]; rfl)
    rw [← List.cons_append, ← List.append_assoc, replay_concat,
      hr.record?_apply (ne_issue? (hr.index_lt hw) last) hlater.2, hrecord, List.foldl_append]
    rfl

/-- A wrapper is there if its number was given out and it was not taken away later. It has the names
it was given then, and the roots counted since. -/
theorem record?_replay_iff {changes : List Change} {native : NativeId} {handle : Handle}
    {roots : Nat} : (replay changes).record? id = some (native, handle, roots) ↔
      ∃ before rooted later, changes = before ++ .insert native handle rooted :: later ∧
        ((replay before).insert native handle rooted).1 = id ∧ (∀ c ∈ later, ¬ c.Ends id) ∧
        roots = later.foldl (Change.recount id) (if rooted then 1 else 0) := by
  constructor
  · intro hrecord
    have hlive : (replay changes).Live id := live_iff_record?.mpr (by rw [hrecord]; rfl)
    obtain ⟨before, first, later, rfl, hissue, hlater⟩ := (live_replay_iff changes id).mp hlive
    obtain ⟨native', handle', rooted, rfl⟩ := eq_insert_of_issue? hissue
    have hid := Option.some.inj hissue
    rw [record?_replay hid hlater] at hrecord
    cases hrecord
    exact ⟨before, rooted, later, rfl, hid, hlater, rfl⟩
  · rintro ⟨before, rooted, later, rfl, hid, hlater, rfl⟩
    exact record?_replay hid hlater

/-! ## The numbers -/

/-- The numbers that changes give out, one after the other. -/
def issuedFrom (r : Registry) : List Change → List WrapperId
  | [] => []
  | change :: changes => (r.issue? change).toList ++ issuedFrom (r.apply change) changes

theorem next_le_of_mem_issuedFrom (h : id ∈ issuedFrom r changes) : r.next ≤ id.index := by
  induction changes generalizing r with
  | nil => cases h
  | cons change changes ih =>
    rw [issuedFrom, List.mem_append, Option.mem_toList] at h
    rcases h with hissue | hlater
    · obtain rfl := eq_next_of_issue? hissue
      exact Nat.le_refl _
    · exact Nat.le_trans (next_le_apply r change) (ih hlater)

/-- Numbers are given out in ascending order, so none is given out twice. -/
theorem pairwise_issuedFrom (r : Registry) (changes : List Change) :
    (issuedFrom r changes).Pairwise (·.index < ·.index) := by
  induction changes generalizing r with
  | nil => exact .nil
  | cons change changes ih =>
    rw [issuedFrom]
    cases hissue : r.issue? change with
    | none => exact ih (r.apply change)
    | some first =>
      obtain rfl := eq_next_of_issue? hissue
      have hnext : (r.apply change).next = r.next + 1 := by
        rw [next_apply, hissue]
        rfl
      refine List.pairwise_cons.mpr ⟨fun later hlater ↦ ?_, ih (r.apply change)⟩
      have hle := next_le_of_mem_issuedFrom hlater
      show r.next < later.index
      omega

/-! ## All of it -/

/-- What can be read off a registry with a history. -/
structure FollowsHistory (changes : List Change) (r : Registry) : Prop where
  find?_iff : ∀ native id, r.find? native = some id ↔ Latest changes (Change.Wraps native) id
  findByHandle?_iff : ∀ handle id,
    r.findByHandle? handle = some id ↔ Latest changes (Change.Holds handle) id
  live_iff : ∀ id, r.Live id ↔
    Since changes (fun r change ↦ r.issue? change = some id) (Change.Ends id)
  record?_iff : ∀ id native handle roots, r.record? id = some (native, handle, roots) ↔
    ∃ before rooted later, changes = before ++ .insert native handle rooted :: later ∧
      ((replay before).insert native handle rooted).1 = id ∧ (∀ c ∈ later, ¬ c.Ends id) ∧
      roots = later.foldl (Change.recount id) (if rooted then 1 else 0)
  pairwise_issued : (issuedFrom empty changes).Pairwise (·.index < ·.index)
  /-- Draining gives every wrapper once, in the order in which the numbers were given out. -/
  drained : ∃ ids : List WrapperId, ids.Pairwise (·.index < ·.index) ∧
    (∀ id, id ∈ ids ↔ r.Live id) ∧ r.drain.1.map some = ids.map r.get?
  nativeCount_le_size : r.nativeCount ≤ r.size
  isEmpty_iff : r.isEmpty = true ↔ ∀ id, ¬ r.Live id

/-- Whatever changes made a registry, it says what their history says. -/
theorem followsHistory_replay (changes : List Change) :
    FollowsHistory changes (replay changes) where
  find?_iff native := (indexing_find? native).replay_iff changes
  findByHandle?_iff handle := (indexing_findByHandle? handle).replay_iff changes
  live_iff := live_replay_iff changes
  record?_iff _ _ _ _ := record?_replay_iff
  pairwise_issued := pairwise_issuedFrom empty changes
  drained := ⟨(replay changes).entries.map Prod.fst, pairwise_entries _,
    fun _ ↦ mem_map_fst_entries, drain_fst _⟩
  nativeCount_le_size := (coherent_replay changes).nativeCount_le_size
  isEmpty_iff := (coherent_replay changes).isEmpty_iff

/-- The wrapper of an earlier insertion does not come back. -/
example : (replay [.insert ⟨1⟩ ⟨1⟩ true, .insert ⟨1⟩ ⟨2⟩ false, .remove ⟨1⟩]).find? ⟨1⟩ = none := by
  cbv

end ScriptBridge.Registry
