import ScriptBridge.Proofs.Registry.Edges

/-!
# Mapped registries, and removals one after the other

A wrapper is mapped if it is the one its native object leads to, and indexed if it is the one its
handle leads to. Every operation of the bridge keeps all wrappers mapped. They stay indexed only as
long as no two of them share a handle. A weak pass removes several wrappers; taken together these
removals cut the removed wrappers out of all others, in whatever order they come.
-/

namespace ScriptBridge

namespace Wrapper

/-- A wrapper after others have left. -/
def withoutAll (ids : List WrapperId) (w : Wrapper) : Wrapper :=
  ids.foldl (fun w id ↦ w.without id) w

variable {ids : List WrapperId} {w : Wrapper}

theorem sameRecord_withoutAll (ids : List WrapperId) (w : Wrapper) :
    Registry.SameRecord w (w.withoutAll ids) := by
  induction ids generalizing w with
  | nil => exact ⟨rfl, rfl, rfl, rfl⟩
  | cons id ids ih =>
    have hrest := ih (w.without id)
    exact ⟨hrest.native, hrest.handle, hrest.roots, hrest.hasPrivateData⟩

/-- Whatever edges each one takes along when it leaves, they all take along together. -/
theorem mem_withoutAll {side : Wrapper → Std.ExtTreeSet WrapperId} {other : WrapperId}
    (hside : ∀ {id : WrapperId} {w : Wrapper},
      other ∈ side (w.without id) ↔ other ≠ id ∧ other ∈ side w) :
    other ∈ side (w.withoutAll ids) ↔ other ∉ ids ∧ other ∈ side w := by
  induction ids generalizing w with
  | nil => simp [withoutAll]
  | cons id ids ih => calc
      other ∈ side (w.withoutAll (id :: ids))
        ↔ other ∉ ids ∧ other ∈ side (w.without id) := ih
      _ ↔ other ∉ ids ∧ other ≠ id ∧ other ∈ side w := by rw [hside]
      _ ↔ other ∉ id :: ids ∧ other ∈ side w := by
        rw [List.mem_cons, not_or, ← and_assoc, and_comm (a := other ∉ ids)]

theorem mem_children_withoutAll {child : WrapperId} :
    child ∈ (w.withoutAll ids).children ↔ child ∉ ids ∧ child ∈ w.children :=
  mem_withoutAll mem_children_without

theorem mem_parents_withoutAll {parent : WrapperId} :
    parent ∈ (w.withoutAll ids).parents ↔ parent ∉ ids ∧ parent ∈ w.parents :=
  mem_withoutAll mem_parents_without

/-- Wrappers are the same if they have the same record and the same edges. -/
theorem ext_edges {v : Wrapper} (hrecord : Registry.SameRecord w v)
    (hchildren : ∀ id, id ∈ v.children ↔ id ∈ w.children)
    (hparents : ∀ id, id ∈ v.parents ↔ id ∈ w.parents) : v = w := by
  cases v
  cases w
  cases hrecord.native
  cases hrecord.handle
  cases hrecord.roots
  cases hrecord.hasPrivateData
  cases Std.ExtTreeSet.ext_mem hchildren
  cases Std.ExtTreeSet.ext_mem hparents
  rfl

/-- It does not matter in which order the others have left. -/
theorem withoutAll_congr {more : List WrapperId} (hsame : ∀ id, id ∈ ids ↔ id ∈ more)
    (w : Wrapper) : w.withoutAll ids = w.withoutAll more := by
  have hids := sameRecord_withoutAll ids w
  have hmore := sameRecord_withoutAll more w
  apply ext_edges
  · exact ⟨hids.native.trans hmore.native.symm, hids.handle.trans hmore.handle.symm,
      hids.roots.trans hmore.roots.symm, hids.hasPrivateData.trans hmore.hasPrivateData.symm⟩
  · intro id
    rw [mem_children_withoutAll, mem_children_withoutAll, hsame]
  · intro id
    rw [mem_parents_withoutAll, mem_parents_withoutAll, hsame]

end Wrapper

namespace Registry

variable {r : Registry} {id asked : WrapperId} {w : Wrapper}

/-! ## One removal after the other -/

/-- Removes wrappers one after the other. -/
def removeAll (r : Registry) (ids : List WrapperId) : Registry :=
  ids.foldl (fun r id ↦ (r.remove id).2) r

theorem removeAll_append (r : Registry) (ids more : List WrapperId) :
    r.removeAll (ids ++ more) = (r.removeAll ids).removeAll more :=
  List.foldl_append

theorem Coherent.removeAll (hr : r.Coherent) (ids : List WrapperId) :
    (r.removeAll ids).Coherent := by
  induction ids generalizing r with
  | nil => exact hr
  | cons id ids ih => exact ih (hr.remove id)

theorem Coherent.get?_removeAll (hr : r.Coherent) (ids : List WrapperId) (asked : WrapperId) :
    (r.removeAll ids).get? asked =
      if asked ∈ ids then none else (r.get? asked).map (Wrapper.withoutAll ids) := by
  induction ids generalizing r with
  | nil =>
    rw [if_neg List.not_mem_nil]
    exact Option.map_id'.symm
  | cons id ids ih =>
    rw [Registry.removeAll, List.foldl_cons, ← Registry.removeAll, ih (hr.remove id),
      hr.get?_remove]
    by_cases hid : id = asked
    · simp [hid]
    · have hne : asked ≠ id := Ne.symm hid
      simp only [hid, hne, List.mem_cons, false_or, if_false, Option.map_map]
      rfl

/-- What is left after removals was there before, with the same record. -/
theorem Coherent.of_get?_removeAll (hr : r.Coherent) {ids : List WrapperId}
    (h : (r.removeAll ids).get? id = some w) :
    id ∉ ids ∧ ∃ v, r.get? id = some v ∧ w = v.withoutAll ids := by
  rw [hr.get?_removeAll] at h
  split at h
  · cases h
  · next hkept =>
    obtain ⟨v, hv, rfl⟩ := Option.map_eq_some_iff.mp h
    exact ⟨hkept, v, hv, rfl⟩

/-! ## Indexes -/

section Index

variable {κ : Type} [DecidableEq κ] {name : Wrapper → κ} {lead lead' : κ → Option WrapperId}

/-- A removal takes from an index exactly the entry that leads to the removed wrapper. -/
theorem lead_remove_iff
    (hlead : ∀ {k found}, lead k = some found → ∃ w, r.get? found = some w ∧ name w = k)
    (hunknown : r.get? id = none → lead' = lead)
    (hremove : ∀ {w}, r.get? id = some w → ∀ k,
      lead' k = if name w = k ∧ lead (name w) = some id then none else lead k)
    (k : κ) (found : WrapperId) : lead' k = some found ↔ lead k = some found ∧ found ≠ id := by
  cases hid : r.get? id with
  | none =>
    rw [hunknown hid, iff_self_and]
    rintro hfound rfl
    obtain ⟨w, hw, -⟩ := hlead hfound
    rw [hid] at hw
    cases hw
  | some w =>
    rw [hremove hid]
    constructor
    · intro h
      split at h
      · cases h
      · next hother =>
        refine ⟨h, ?_⟩
        rintro rfl
        obtain ⟨v, hv, rfl⟩ := hlead h
        rw [hid, Option.some.injEq] at hv
        subst hv
        exact hother ⟨rfl, h⟩
    · rintro ⟨h, hne⟩
      rw [if_neg, h]
      rintro ⟨rfl, hown⟩
      rw [h, Option.some.injEq] at hown
      exact hne hown

end Index

theorem Coherent.find?_remove_iff (hr : r.Coherent) {native : NativeId} {found : WrapperId} :
    (r.remove id).2.find? native = some found ↔ r.find? native = some found ∧ found ≠ id :=
  lead_remove_iff hr.native_of_find? (fun hid ↦ by rw [remove_of_unknown hid]) find?_remove
    native found

theorem Coherent.findByHandle?_remove_iff (hr : r.Coherent) {handle : Handle}
    {found : WrapperId} : (r.remove id).2.findByHandle? handle = some found ↔
      r.findByHandle? handle = some found ∧ found ≠ id :=
  lead_remove_iff hr.handle_of_findByHandle? (fun hid ↦ by rw [remove_of_unknown hid])
    findByHandle?_remove handle found

/-- Whatever a removal takes from an index entry by entry, removals take together. -/
theorem Coherent.lead_removeAll_iff {κ : Type} {lead : Registry → κ → Option WrapperId} {k : κ}
    {found : WrapperId} (hremove : ∀ {r : Registry} {id}, r.Coherent →
      (lead (r.remove id).2 k = some found ↔ lead r k = some found ∧ found ≠ id))
    (hr : r.Coherent) (ids : List WrapperId) :
    lead (r.removeAll ids) k = some found ↔ lead r k = some found ∧ found ∉ ids := by
  induction ids generalizing r with
  | nil => simp [Registry.removeAll]
  | cons id ids ih => calc
      lead (r.removeAll (id :: ids)) k = some found
        ↔ lead (r.remove id).2 k = some found ∧ found ∉ ids := ih (hr.remove id)
      _ ↔ (lead r k = some found ∧ found ≠ id) ∧ found ∉ ids := by rw [hremove hr]
      _ ↔ lead r k = some found ∧ found ∉ id :: ids := by
        rw [List.mem_cons, not_or, and_assoc]

theorem Coherent.find?_removeAll_iff (hr : r.Coherent) (ids : List WrapperId) {native : NativeId}
    {found : WrapperId} :
    (r.removeAll ids).find? native = some found ↔ r.find? native = some found ∧ found ∉ ids :=
  Coherent.lead_removeAll_iff (fun hr ↦ hr.find?_remove_iff) hr ids

theorem Coherent.findByHandle?_removeAll_iff (hr : r.Coherent) (ids : List WrapperId)
    {handle : Handle} {found : WrapperId} : (r.removeAll ids).findByHandle? handle = some found ↔
      r.findByHandle? handle = some found ∧ found ∉ ids :=
  Coherent.lead_removeAll_iff (fun hr ↦ hr.findByHandle?_remove_iff) hr ids

/-! ## The order of removals -/

/-- A registry is known by its look-ups and its next number. -/
theorem ext_lookups {r' : Registry} (hnative : ∀ native, r.find? native = r'.find? native)
    (hhandle : ∀ handle, r.findByHandle? handle = r'.findByHandle? handle)
    (hwrapper : ∀ id, r.get? id = r'.get? id) (hnext : r.next = r'.next) : r = r' := by
  cases r
  cases r'
  cases Std.ExtTreeMap.ext_getElem? hnative
  cases Std.ExtTreeMap.ext_getElem? hhandle
  cases Std.ExtTreeMap.ext_getElem? hwrapper
  cases hnext
  rfl

theorem next_removeAll (r : Registry) (ids : List WrapperId) : (r.removeAll ids).next = r.next := by
  induction ids generalizing r with
  | nil => rfl
  | cons id ids ih => exact (ih (r.remove id).2).trans (next_remove r id)

/-- Removals come to the same in every order. -/
theorem Coherent.removeAll_congr (hr : r.Coherent) {ids more : List WrapperId}
    (hsame : ∀ id, id ∈ ids ↔ id ∈ more) : r.removeAll ids = r.removeAll more := by
  apply ext_lookups
  · intro native
    ext found
    rw [hr.find?_removeAll_iff, hr.find?_removeAll_iff, hsame]
  · intro handle
    ext found
    rw [hr.findByHandle?_removeAll_iff, hr.findByHandle?_removeAll_iff, hsame]
  · intro id
    rw [hr.get?_removeAll, hr.get?_removeAll, funext (Wrapper.withoutAll_congr hsame)]
    simp only [hsame]
  · rw [next_removeAll, next_removeAll]

/-! ## Wrappers and their names -/

section Led

variable {κ : Type} {name : Wrapper → κ} {lead lead' : κ → Option WrapperId} {r' : Registry}

/-- Every wrapper is the one that its name leads to. -/
def Led (r : Registry) (name : Wrapper → κ) (lead : κ → Option WrapperId) : Prop :=
  ∀ ⦃id w⦄, r.get? id = some w → lead (name w) = some id

/-- Two wrappers with one name are one and the same. -/
theorem Led.id_eq (hr : r.Led name lead) {other : WrapperId} {v : Wrapper}
    (hw : r.get? id = some w) (hv : r.get? other = some v) (hsame : name v = name w) :
    other = id := by
  have hother := hr hv
  rw [hsame, hr hw, Option.some.injEq] at hother
  exact hother.symm

/-- Changes in place that keep all names. -/
theorem Led.of_names (hr : r.Led name lead) (hlead : ∀ k, lead' k = lead k)
    (hnames : ∀ {id v}, r'.get? id = some v → ∃ w, r.get? id = some w ∧ name v = name w) :
    r'.Led name lead' := by
  intro id v hv
  obtain ⟨w, hw, hname⟩ := hnames hv
  rw [hlead, hname]
  exact hr hw

theorem Led.modify (hr : r.Led name lead) (id : WrapperId) {f : Wrapper → Wrapper}
    (hf : ∀ w, name (f w) = name w) : (r.modify id f).Led name lead := by
  refine hr.of_names (fun _ ↦ rfl) fun {asked v} hv ↦ ?_
  rw [get?_modify] at hv
  split at hv
  · obtain ⟨w, hw, rfl⟩ := Option.map_eq_some_iff.mp hv
    exact ⟨w, hw, hf w⟩
  · exact ⟨v, hv, rfl⟩

variable [DecidableEq κ]

/-- A removal takes the removed wrapper's own name away and no other. -/
theorem Led.remove (hr : r.Led name lead) (hc : r.Coherent) (id : WrapperId)
    (hname : ∀ w, name (w.without id) = name w) (hunknown : r.get? id = none → lead' = lead)
    (hlead : ∀ {w}, r.get? id = some w → ∀ k,
      lead' k = if name w = k ∧ lead (name w) = some id then none else lead k) :
    (r.remove id).2.Led name lead' := by
  intro left v hv
  obtain ⟨hne, u, hu, rfl⟩ := hc.of_get?_remove hv
  rw [hname]
  have hfind := hr hu
  cases hgone : r.get? id with
  | none => rwa [hunknown hgone]
  | some w =>
    rw [hlead hgone, if_neg, hfind]
    rintro ⟨hsame, hid⟩
    rw [hsame, hfind, Option.some.injEq] at hid
    exact hne hid

/-- A new wrapper may take a name over that nobody bears. -/
theorem Led.insert (hr : r.Led name lead) {native : NativeId} {handle : Handle} {rooted : Bool}
    (hnew : ∀ {id w}, r.get? id = some w → name (.fresh native handle rooted) ≠ name w)
    (hlead : ∀ k, lead' k = if name (.fresh native handle rooted) = k then some ⟨r.next⟩
      else lead k) :
    (r.insert native handle rooted).2.Led name lead' := by
  intro id w hw
  rw [get?_insert] at hw
  rw [hlead]
  split at hw
  · next hid =>
    cases hw
    rw [if_pos rfl, hid]
  · rw [if_neg (hnew hw)]
    exact hr hw

end Led

/-- Every wrapper is the one that its native object leads to. -/
def Mapped (r : Registry) : Prop := r.Led Wrapper.native r.find?

/-- Every wrapper is the one that its handle leads to. -/
def Indexed (r : Registry) : Prop := r.Led Wrapper.handle r.findByHandle?

theorem Mapped.attach (hr : r.Mapped) (owner child : WrapperId) :
    (r.attach owner child).2.Mapped := by
  refine hr.of_names (fun native ↦ ?_) fun {id v} hv ↦ ?_
  · rw [attach_snd]
    split <;> rfl
  · obtain ⟨w, hw, hsame⟩ := sameRecord_of_attach hv
    exact ⟨w, hw, hsame.native⟩

theorem Mapped.detach (hr : r.Mapped) (owner child : WrapperId) :
    (r.detach owner child).2.Mapped := by
  refine hr.of_names (fun native ↦ ?_) fun {id v} hv ↦ ?_
  · rw [detach_snd]
    split <;> rfl
  · obtain ⟨w, hw, hsame, -⟩ := of_get?_detach hv
    exact ⟨w, hw, hsame.native⟩

theorem Mapped.remove (hr : r.Mapped) (hc : r.Coherent) (id : WrapperId) :
    (r.remove id).2.Mapped := by
  apply Led.remove hr hc id fun _ ↦ rfl
  · intro hgone
    rw [remove_of_unknown hgone]
  · exact find?_remove

/-- A new wrapper keeps all wrappers mapped if its native object has no other. -/
theorem Mapped.insert (hr : r.Mapped) {native : NativeId} (handle : Handle) (rooted : Bool)
    (hnew : r.find? native = none) : (r.insert native handle rooted).2.Mapped := by
  apply Led.insert hr
  · intro id w hw heq
    have hfind : r.find? native = some id := by
      rw [show native = w.native from heq]
      exact hr hw
    rw [hnew] at hfind
    cases hfind
  · exact find?_insert r native handle rooted

/-- A new wrapper keeps all wrappers indexed if no other one has its handle. -/
theorem Indexed.insert (hr : r.Indexed) (native : NativeId) {handle : Handle} (rooted : Bool)
    (hnew : ∀ {id w}, r.get? id = some w → handle ≠ w.handle) :
    (r.insert native handle rooted).2.Indexed :=
  Led.insert hr hnew (findByHandle?_insert r native handle rooted)

theorem Indexed.attach (hr : r.Indexed) (owner child : WrapperId) :
    (r.attach owner child).2.Indexed := by
  refine hr.of_names (fun handle ↦ ?_) fun {id v} hv ↦ ?_
  · rw [attach_snd]
    split <;> rfl
  · obtain ⟨w, hw, hsame⟩ := sameRecord_of_attach hv
    exact ⟨w, hw, hsame.handle⟩

theorem Indexed.detach (hr : r.Indexed) (owner child : WrapperId) :
    (r.detach owner child).2.Indexed := by
  refine hr.of_names (fun handle ↦ ?_) fun {id v} hv ↦ ?_
  · rw [detach_snd]
    split <;> rfl
  · obtain ⟨w, hw, hsame, -⟩ := of_get?_detach hv
    exact ⟨w, hw, hsame.handle⟩

theorem Indexed.remove (hr : r.Indexed) (hc : r.Coherent) (id : WrapperId) :
    (r.remove id).2.Indexed := by
  apply Led.remove hr hc id fun _ ↦ rfl
  · intro hgone
    rw [remove_of_unknown hgone]
  · exact findByHandle?_remove

theorem Mapped.removeAll (hr : r.Mapped) (hc : r.Coherent) (ids : List WrapperId) :
    (r.removeAll ids).Mapped := by
  induction ids generalizing r with
  | nil => exact hr
  | cons id ids ih => exact ih (hr.remove hc id) (hc.remove id)

/-! ## Orderly registries -/

/-- What every operation of the bridge keeps up. -/
structure Orderly (r : Registry) : Prop where
  coherent : r.Coherent
  mapped : r.Mapped

namespace Orderly

theorem root (hr : r.Orderly) (id : WrapperId) : (r.root id).2.Orderly :=
  ⟨hr.coherent.root id, hr.mapped.modify id fun _ ↦ rfl⟩

theorem unroot (hr : r.Orderly) (id : WrapperId) : (r.unroot id).2.Orderly :=
  ⟨hr.coherent.unroot id, hr.mapped.modify id fun _ ↦ rfl⟩

theorem markPrivateData (hr : r.Orderly) (id : WrapperId) : (r.markPrivateData id).Orderly :=
  ⟨hr.coherent.markPrivateData id, hr.mapped.modify id fun _ ↦ rfl⟩

theorem attach (hr : r.Orderly) (owner child : WrapperId) : (r.attach owner child).2.Orderly :=
  ⟨hr.coherent.attach owner child, hr.mapped.attach owner child⟩

theorem detach (hr : r.Orderly) (owner child : WrapperId) : (r.detach owner child).2.Orderly :=
  ⟨hr.coherent.detach owner child, hr.mapped.detach owner child⟩

theorem remove (hr : r.Orderly) (id : WrapperId) : (r.remove id).2.Orderly :=
  ⟨hr.coherent.remove id, hr.mapped.remove hr.coherent id⟩

theorem removeAll (hr : r.Orderly) (ids : List WrapperId) : (r.removeAll ids).Orderly :=
  ⟨hr.coherent.removeAll ids, hr.mapped.removeAll hr.coherent ids⟩

/-- Nothing leads to a wrapper that was removed, and nothing else has taken its place. -/
theorem unmapped_removeAll (hr : r.Orderly) {ids : List WrapperId} (hw : r.get? id = some w)
    (hgone : (r.removeAll ids).get? id = none) : (r.removeAll ids).find? w.native = none ∧
      ∀ handle, (r.removeAll ids).findByHandle? handle ≠ some id := by
  have hleft := hr.coherent.removeAll ids
  constructor
  · refine Option.eq_none_iff_forall_ne_some.mpr fun other hother ↦ ?_
    obtain ⟨v, hv, -⟩ := hleft.native_of_find? hother
    obtain ⟨hbefore, -⟩ := (hr.coherent.find?_removeAll_iff ids).mp hother
    rw [hr.mapped hw, Option.some.injEq] at hbefore
    rw [← hbefore, hgone] at hv
    cases hv
  · intro handle hfound
    obtain ⟨v, hv, -⟩ := hleft.handle_of_findByHandle? hfound
    rw [hgone] at hv
    cases hv

theorem insert (hr : r.Orderly) {native : NativeId} (handle : Handle) (rooted : Bool)
    (hnew : r.find? native = none) : (r.insert native handle rooted).2.Orderly :=
  ⟨hr.coherent.insert native handle rooted, hr.mapped.insert handle rooted hnew⟩

/-- Once its wrapper is removed, a native object leads nowhere. -/
theorem find?_remove_self (hr : r.Orderly) (h : r.get? id = some w) :
    (r.remove id).2.find? w.native = none := by
  rw [find?_remove h, if_pos ⟨rfl, hr.mapped h⟩]

end Orderly

/-- Draining leaves nothing behind. -/
theorem get?_drain (r : Registry) (id : WrapperId) : r.drain.2.get? id = none := by
  simp [drain, get?]

theorem orderly_of_vacant (hnative : ∀ native, r.find? native = none)
    (hhandle : ∀ handle, r.findByHandle? handle = none) (hget : ∀ id, r.get? id = none) :
    r.Orderly where
  coherent := by
    constructor
    · intro native id h
      rw [hnative] at h
      cases h
    · intro handle id h
      rw [hhandle] at h
      cases h
    · intro id w h
      rw [hget] at h
      cases h
    · intro owner child w h
      rw [hget] at h
      cases h
    · intro owner child v h
      rw [hget] at h
      cases h
  mapped id w h := by
    rw [hget] at h
    cases h

theorem orderly_empty : Orderly empty := orderly_of_vacant (by simp [find?, empty])
  (by simp [findByHandle?, empty]) (by simp [get?, empty])

theorem orderly_drain (r : Registry) : r.drain.2.Orderly := orderly_of_vacant
  (by simp [find?, drain]) (by simp [findByHandle?, drain]) r.get?_drain

end Registry

end ScriptBridge
