import ScriptBridge.Proofs.Script.Soundness
import ScriptBridge.Script.Service

/-!
# Changes that leave a machine sound

A machine is changed in few ways: an object is put at a new place, or changed where it stands,
something is held that was not held before or no longer, and handles are given out or change. Each
of them leaves a machine sound as long as all that is newly referred to is offered.
-/

namespace ScriptBridge.Script.Machine

variable {m m' : Machine} {id x c : ObjectId} {o : Object}

theorem Offers.congr (hheap : m'.heap = m.heap) (hledger : m'.ledger = m.ledger)
    (h : m.Offers id) : m'.Offers id := by
  rw [Offers, carriers, hheap, hledger]
  exact h

/-! ## Roots -/

theorem mem_rooted {id : ObjectId} : id ∈ m.rooted ↔
    ∃ (k : Handle) (s : Slot), m.slots[k]? = some s ∧ s.isRooted = true ∧ s.target = id := by
  simp [rooted, Std.ExtTreeMap.mem_toList_iff_getElem?_eq_some, and_assoc]

theorem mem_roots : id ∈ m.roots ↔
    id ∈ m.anchors ∨ id ∈ m.rooted ∨ ∃ d ∈ m.held, id ∈ d.references := by
  simp [roots]

theorem mem_held {d : Datum} :
    d ∈ m.held ↔ d = m.retained ∨ m.pending = some d ∨ d ∈ m.pins ∨ d ∈ m.jobs := by
  simp [held]

/-- What the machine holds may be exchanged for what it offers. -/
theorem Sound.withHeld (h : Sound m) (hheap : m'.heap = m.heap)
    (hobject : m'.nextObject = m.nextObject) (hslots : m'.slots = m.slots)
    (hhandle : m'.nextHandle = m.nextHandle) (hanchors : m'.anchors = m.anchors)
    (hledger : m'.ledger = m.ledger)
    (hheld : ∀ {d id}, d ∈ m'.held → id ∈ d.references → d ∈ m.held ∨ m.Offers id) :
    Sound m' where
  heap_lt hmem := by rw [hheap] at hmem; rw [hobject]; exact h.heap_lt hmem
  slots_lt hs := by rw [hslots] at hs; rw [hhandle]; exact h.slots_lt hs
  target_lt hs := by rw [hslots] at hs; rw [hobject]; exact h.target_lt hs
  carriers_lt hc := by rw [carriers, hledger] at hc; rw [hobject]; exact h.carriers_lt hc
  nodup_carriers := by rw [carriers, hledger]; exact h.nodup_carriers
  given_subset hc := by rw [hledger] at hc; rw [carriers, hledger]; exact h.given_subset hc
  nodup_given := by rw [hledger]; exact h.nodup_given
  owners_lt hx := by rw [hledger] at hx; rw [hobject]; exact h.owners_lt hx
  payload? hx := by rw [hheap] at hx; rw [hledger]; exact h.payload? hx
  anchors := hanchors.trans h.anchors
  roots {id} hid := by
    apply Offers.congr hheap hledger
    rw [mem_roots, hanchors, rooted, hslots] at hid
    rcases hid with hid | hid | ⟨d, hd, hid⟩
    · exact h.roots (mem_roots.mpr (.inl hid))
    · exact h.roots (mem_roots.mpr (.inr (.inl hid)))
    · rcases hheld hd hid with hold | hoffers
      · exact h.roots (mem_roots.mpr (.inr (.inr ⟨d, hold, hid⟩)))
      · exact hoffers
  targets hs htouched := by
    rw [hslots] at hs
    rw [hledger] at htouched
    rw [carriers, hledger]
    exact h.targets hs htouched
  shown hx hid := by
    rw [hheap] at hx
    exact (h.shown hx hid).congr hheap hledger
  references hx hid := by
    rw [hheap] at hx ⊢
    exact h.references hx hid
  hidden htouched hx := by
    rw [hledger] at htouched
    rw [hheap] at hx
    rw [current, hledger]
    exact h.hidden htouched hx

/-- What is offered may be pinned. -/
theorem Sound.pinning (h : Sound m) {values : List Datum}
    (hvalues : ∀ id ∈ values.flatMap Datum.references, m.Offers id) :
    Sound { m with pins := values ++ m.pins } := by
  refine h.withHeld rfl rfl rfl rfl rfl rfl fun {d id} hd hid ↦ ?_
  rcases mem_held.mp hd with hd | hd | hd | hd
  · exact .inl (mem_held.mpr (.inl hd))
  · exact .inl (mem_held.mpr (.inr (.inl hd)))
  · rcases List.mem_append.mp hd with hd | hd
    · exact .inr (hvalues id (List.mem_flatMap.mpr ⟨d, hd, hid⟩))
    · exact .inl (mem_held.mpr (.inr (.inr (.inl hd))))
  · exact .inl (mem_held.mpr (.inr (.inr (.inr hd))))

/-- What is pinned may be so no longer. -/
theorem Sound.unpinning (h : Sound m) {values pins : List Datum} (hpins : m.pins = values ++ pins) :
    Sound { m with pins } := by
  refine h.withHeld rfl rfl rfl rfl rfl rfl fun {d id} hd hid ↦ ?_
  rcases mem_held.mp hd with hd | hd | hd | hd
  · exact .inl (mem_held.mpr (.inl hd))
  · exact .inl (mem_held.mpr (.inr (.inl hd)))
  · refine .inl (mem_held.mpr (.inr (.inr (.inl ?_))))
    rw [hpins]
    exact List.mem_append_right values hd
  · exact .inl (mem_held.mpr (.inr (.inr (.inr hd))))

/-! ## New objects -/

/-- The next place. -/
def fresh (m : Machine) : ObjectId := ⟨m.nextObject⟩

/-- A machine with one more object. If that carries a payload, the ledger says so. -/
def placed (o : Object) (m : Machine) : Machine :=
  { m with
    heap := m.heap.insert m.fresh o
    nextObject := m.nextObject + 1
    ledger :=
      { m.ledger with made := m.ledger.made ++ o.payload?.toList.map fun p ↦ (m.fresh, p) } }

theorem allocate_eq (h : o.payload? = none) : m.allocate o = (m.fresh, m.placed o) := by
  simp only [allocate, placed, h, Option.toList_none, List.map_nil, List.append_nil]
  rfl

theorem getElem?_heap_placed (m : Machine) (o : Object) (x : ObjectId) :
    (m.placed o).heap[x]? = if x = m.fresh then some o else m.heap[x]? := by
  by_cases h : x = m.fresh
  · simp [placed, h]
  · simp [placed, h, Std.ExtTreeMap.getElem?_insert, Ne.symm h]

theorem mem_heap_placed : x ∈ (m.placed o).heap ↔ x = m.fresh ∨ x ∈ m.heap := by
  rw [placed, Std.ExtTreeMap.mem_insert, Std.compare_eq_iff_eq, eq_comm]

theorem Tidy.fresh_notMem (h : Tidy m) : m.fresh ∉ m.heap :=
  fun hmem ↦ Nat.lt_irrefl _ (h.heap_lt hmem)

theorem Tidy.ne_fresh (h : Tidy m) (hx : x ∈ m.heap) : x ≠ m.fresh :=
  fun heq ↦ h.fresh_notMem (heq ▸ hx)

theorem Tidy.fresh_notMem_carriers (h : Tidy m) : m.fresh ∉ m.carriers :=
  fun hmem ↦ Nat.lt_irrefl _ (h.carriers_lt hmem)

theorem carriers_placed (m : Machine) (o : Object) :
    (m.placed o).carriers = m.carriers ++ o.payload?.toList.map fun _ ↦ m.fresh := by
  rw [carriers, placed, List.map_append, List.map_map]
  rfl

theorem mem_carriers_placed (h : c ∈ (m.placed o).carriers) :
    c ∈ m.carriers ∨ (c = m.fresh ∧ o.payload?.isSome = true) := by
  rw [carriers_placed, List.mem_append] at h
  refine h.imp_right fun hnew ↦ ?_
  cases hpayload : o.payload? <;> simp_all

theorem Tidy.offers_placed (h : Tidy m) (hid : m.Offers id) : (m.placed o).Offers id := by
  refine ⟨mem_heap_placed.mpr (.inr hid.1), fun htouched hmem ↦ ?_⟩
  rcases mem_carriers_placed hmem with hold | ⟨hnew, -⟩
  · exact hid.2 htouched hold
  · exact h.ne_fresh hid.1 hnew

theorem Tidy.offers_fresh (h : Tidy m) (hpayload : o.payload? = none) :
    (m.placed o).Offers m.fresh := by
  refine ⟨mem_heap_placed.mpr (.inl rfl), fun _ hmem ↦ ?_⟩
  rcases mem_carriers_placed hmem with hold | ⟨-, hsome⟩
  · exact h.fresh_notMem_carriers hold
  · rw [hpayload] at hsome
    cases hsome

theorem Tidy.current_fresh (h : Tidy m) : m.current m.fresh = none := by
  cases hc : m.current m.fresh with
  | none => rfl
  | some c => exact absurd (h.owners_lt (mem_given_of_current hc)) (Nat.lt_irrefl _)

theorem Tidy.placed (h : Tidy m) (o : Object) : Tidy (m.placed o) where
  heap_lt {id} hmem := by
    show id.index < m.nextObject + 1
    rcases mem_heap_placed.mp hmem with rfl | hold
    · exact Nat.lt_succ_self _
    · exact Nat.lt_succ_of_lt (h.heap_lt hold)
  slots_lt := h.slots_lt
  target_lt hs := Nat.lt_succ_of_lt (h.target_lt hs)
  carriers_lt {c} hc := by
    show c.index < m.nextObject + 1
    rcases mem_carriers_placed hc with hold | ⟨rfl, -⟩
    · exact Nat.lt_succ_of_lt (h.carriers_lt hold)
    · exact Nat.lt_succ_self _
  nodup_carriers := by
    rw [carriers_placed, List.nodup_append]
    refine ⟨h.nodup_carriers, ?_, ?_⟩
    · cases o.payload? <;> simp
    · intro a ha b hb heq
      cases hpayload : o.payload? with
      | none => simp [hpayload] at hb
      | some p =>
        rw [hpayload, Option.toList_some, List.map_singleton, List.mem_singleton] at hb
        exact h.fresh_notMem_carriers (hb ▸ heq ▸ ha)
  given_subset hc := by
    rw [carriers_placed]
    exact List.mem_append_left _ (h.given_subset hc)
  nodup_given := h.nodup_given
  owners_lt hx := Nat.lt_succ_of_lt (h.owners_lt hx)
  payload? {id o'} hx := by
    show o'.payload? = (m.ledger.made ++ _).lookup id
    rw [getElem?_heap_placed] at hx
    rw [List.lookup_append]
    split at hx
    · next heq =>
      cases hx
      have hnone : m.ledger.made.lookup id = none := by
        rw [List.lookup_eq_none_iff]
        intro entry hentry
        have hne : entry.1 ≠ id := by
          rintro rfl
          exact h.fresh_notMem_carriers (heq ▸ List.mem_map_of_mem hentry)
        simpa using hne.symm
      rw [hnone, heq]
      cases o.payload? <;> simp
    · next hne =>
      rw [h.payload? hx]
      have hnone : (o.payload?.toList.map fun p ↦ (m.fresh, p)).lookup id = none := by
        have hne : (id == m.fresh) = false := by simpa using hne
        cases o.payload? <;> simp [List.lookup_cons, hne]
      rw [hnone]
      cases m.ledger.made.lookup id <;> rfl

theorem native?_placed (m : Machine) (o : Object) (x : ObjectId) :
    (m.placed o).native? x = if x = m.fresh then o.native? else m.native? x := by
  rw [native?, getElem?_heap_placed]
  split <;> rfl

/-- An object that is made may be the constructor of a native class. -/
theorem Tidy.evolves_placed (h : Tidy m) (o : Object) :
    Evolves o.native?.toList m (m.placed o) where
  nextObject := Nat.le_succ _
  nextHandle := Nat.le_refl _
  slots := rfl
  pins := rfl
  isOpen := rfl
  globalHandle := rfl
  gone {id} hlt hmem := by
    rcases mem_heap_placed.mp hmem with rfl | hold
    · exact absurd hlt (Nat.lt_irrefl _)
    · exact hold
  kept {id} hlt _ := by
    rw [native?_placed, if_neg]
    rintro rfl
    exact Nat.lt_irrefl _ hlt
  makes id spec hspec := by
    rw [native?_placed] at hspec
    split at hspec
    · next heq =>
      rw [heq]
      exact .inr ⟨Nat.le_refl _, Option.mem_toList.mpr hspec⟩
    · exact .inl hspec
  made := by
    refine ⟨_, rfl, fun entry hentry ↦ ?_⟩
    obtain ⟨p, -, rfl⟩ := List.mem_map.mp hentry
    exact Nat.le_refl _
  given := ⟨[], (List.append_nil _).symm, by simp⟩
  isTouched h := h
  counts := .refl m
  trace := by
    refine ⟨[], (List.append_nil _).symm, .none rfl rfl, fun payload ↦ ?_⟩
    have hcontains : ∀ x, (m.placed o).heap.contains x = (x == m.fresh || m.heap.contains x) := by
      intro x
      rw [Bool.eq_iff_iff, Std.ExtTreeMap.contains_iff_mem, mem_heap_placed, Bool.or_eq_true,
        beq_iff_eq, Std.ExtTreeMap.contains_iff_mem]
    have hold : ∀ entry ∈ m.ledger.made, (m.placed o).heap.contains entry.1 =
        m.heap.contains entry.1 := by
      intro entry hentry
      have hne : entry.1 ≠ m.fresh := fun heq ↦
        h.fresh_notMem_carriers (heq ▸ List.mem_map_of_mem hentry)
      rw [hcontains, show (entry.1 == m.fresh) = false by simpa using hne, Bool.false_or]
    have hnew : (o.payload?.toList.map fun p ↦ (m.fresh, p)).countP (fun entry ↦
        !(m.placed o).heap.contains entry.1 &&
          entry.2 = (⟨payload.2, some payload.1⟩ : Payload)) = 0 := by
      rw [List.countP_eq_zero]
      intro entry hentry
      obtain ⟨p, -, rfl⟩ := List.mem_map.mp hentry
      simp [hcontains]
    rw [List.countP_nil, Nat.zero_add, lost, lost]
    show _ = (m.ledger.made ++ _).countP _
    rw [List.countP_append, hnew, Nat.add_zero]
    apply List.countP_congr
    intro entry hentry
    rw [hold entry hentry]

/-- A new object refers to what is offered. -/
theorem Sound.placed (h : Sound m) (hrefs : ∀ id ∈ o.references, m.Offers id)
    (hhidden : o.hidden = []) : Sound (m.placed o) where
  toTidy := h.toTidy.placed o
  anchors := h.anchors
  roots hid := h.toTidy.offers_placed (h.roots hid)
  targets {k s} hs htouched hmem := by
    rcases mem_carriers_placed hmem with hold | ⟨heq, -⟩
    · exact h.targets hs htouched hold
    · have hlt : s.target.index < m.nextObject := h.target_lt hs
      rw [heq] at hlt
      exact Nat.lt_irrefl _ hlt
  shown {x o' id} hx hid := by
    apply h.toTidy.offers_placed
    rw [getElem?_heap_placed] at hx
    split at hx
    · cases hx
      exact hrefs id (Object.mem_references_of_shown hid)
    · exact h.shown hx hid
  references {x o' id} hx hid := by
    apply mem_heap_placed.mpr
    rw [getElem?_heap_placed] at hx
    split at hx
    · cases hx
      exact .inr (hrefs id hid).1
    · exact .inr (h.references hx hid)
  hidden {x o'} htouched hx := by
    show o'.hidden = (m.current x).toList.map _
    rw [getElem?_heap_placed] at hx
    split at hx
    · next heq =>
      cases hx
      rw [heq, h.toTidy.current_fresh, hhidden]
      rfl
    · exact h.hidden htouched hx

/-! ## Changed objects -/

theorem getElem?_heap_update (m : Machine) (id x : ObjectId) (f : Object → Object) :
    (m.update id f).heap[x]? = if x = id then (m.heap[id]?).map f else m.heap[x]? := by
  by_cases h : x = id
  · simp [update, h]
  · simp [update, h, Std.ExtTreeMap.getElem?_modify, Ne.symm h]

theorem mem_heap_update {f : Object → Object} : x ∈ (m.update id f).heap ↔ x ∈ m.heap :=
  Std.ExtTreeMap.mem_modify

theorem offers_update {f : Object → Object} (h : m.Offers x) : (m.update id f).Offers x :=
  ⟨mem_heap_update.mpr h.1, h.2⟩

theorem native?_of_update {f : Object → Object} (hf : ∀ o, (f o).native? = o.native?)
    (ho : (m.update id f).heap[x]? = some o) :
    ∃ before, m.heap[x]? = some before ∧ o.native? = before.native? := by
  rw [getElem?_heap_update] at ho
  split at ho
  · next heq =>
    obtain ⟨before, hbefore, rfl⟩ := Option.map_eq_some_iff.mp ho
    exact ⟨before, heq ▸ hbefore, hf before⟩
  · exact ⟨o, ho, rfl⟩

theorem evolves_update (m : Machine) (id : ObjectId) {f : Object → Object}
    (hf : ∀ o, (f o).native? = o.native?) : Evolves [] m (m.update id f) where
  nextObject := Nat.le_refl _
  nextHandle := Nat.le_refl _
  slots := rfl
  pins := rfl
  isOpen := rfl
  globalHandle := rfl
  gone _ hmem := mem_heap_update.mp hmem
  kept _ := native?_eq_of_heap (native?_of_update hf)
  makes := .of_heap (native?_of_update hf)
  made := ⟨[], (List.append_nil _).symm, by simp⟩
  given := ⟨[], (List.append_nil _).symm, by simp⟩
  isTouched h := h
  counts := .refl m
  trace := by
    refine ⟨[], (List.append_nil _).symm, .none rfl rfl, fun payload ↦ ?_⟩
    rw [List.countP_nil, Nat.zero_add, lost, lost]
    apply List.countP_congr
    intro entry _
    have hcontains : (m.update id f).heap.contains entry.1 = m.heap.contains entry.1 := by
      rw [Bool.eq_iff_iff, Std.ExtTreeMap.contains_iff_mem, Std.ExtTreeMap.contains_iff_mem]
      exact mem_heap_update
    rw [hcontains]

/-- What a change of objects may do: it neither makes nor unmakes a carrier or a constructor, it
refers to nothing new but what is offered, and unless the property of carriers has been named it
leaves that alone. -/
structure Revises (m : Machine) (f : Object → Object) : Prop where
  payload? : ∀ o, (f o).payload? = o.payload?
  native? : ∀ o, (f o).native? = o.native?
  references : ∀ {o id}, id ∈ (f o).references → id ∈ o.references ∨ m.Offers id
  shown : m.ledger.isTouched = false → ∀ {o id}, id ∈ (f o).shown → id ∈ o.shown ∨ m.Offers id
  hidden : m.ledger.isTouched = false → ∀ o, (f o).hidden = o.hidden

theorem Tidy.update {f : Object → Object} (h : Tidy m) (hf : ∀ o, (f o).payload? = o.payload?)
    (id : ObjectId) : Tidy (m.update id f) where
  heap_lt hmem := h.heap_lt (mem_heap_update.mp hmem)
  slots_lt := h.slots_lt
  target_lt := h.target_lt
  carriers_lt := h.carriers_lt
  nodup_carriers := h.nodup_carriers
  given_subset := h.given_subset
  nodup_given := h.nodup_given
  owners_lt := h.owners_lt
  payload? {x o'} hx := by
    show o'.payload? = m.ledger.made.lookup x
    rw [getElem?_heap_update] at hx
    split at hx
    · next heq =>
      obtain ⟨o, ho, rfl⟩ := Option.map_eq_some_iff.mp hx
      rw [hf, heq, h.payload? ho]
    · exact h.payload? hx

theorem Sound.update {f : Object → Object} (h : Sound m) (hf : m.Revises f) (id : ObjectId) :
    Sound (m.update id f) where
  toTidy := h.toTidy.update hf.payload? id
  anchors := h.anchors
  roots hid := offers_update (h.roots hid)
  targets := h.targets
  shown {x o' r} hx hr := by
    apply offers_update
    rw [getElem?_heap_update] at hx
    split at hx
    · obtain ⟨o, ho, rfl⟩ := Option.map_eq_some_iff.mp hx
      cases htouched : m.ledger.isTouched with
      | false => exact (hf.shown htouched hr).elim (h.shown ho) fun hoffers ↦ hoffers
      | true =>
        refine ⟨?_, fun hfalse ↦ by rw [htouched] at hfalse; cases hfalse⟩
        exact (hf.references (Object.mem_references_of_shown hr)).elim (h.references ho)
          fun hoffers ↦ hoffers.1
    · exact h.shown hx hr
  references {x o' r} hx hr := by
    apply mem_heap_update.mpr
    rw [getElem?_heap_update] at hx
    split at hx
    · obtain ⟨o, ho, rfl⟩ := Option.map_eq_some_iff.mp hx
      exact (hf.references hr).elim (h.references ho) fun hoffers ↦ hoffers.1
    · exact h.references hx hr
  hidden {x o'} htouched hx := by
    show o'.hidden = (m.current x).toList.map _
    rw [getElem?_heap_update] at hx
    split at hx
    · next heq =>
      obtain ⟨o, ho, rfl⟩ := Option.map_eq_some_iff.mp hx
      rw [hf.hidden htouched, heq, h.hidden htouched ho]
    · exact h.hidden htouched hx

/-! ## Handles -/

/-- Handles may be given out for what is offered, and they may lose their root or go. -/
theorem Sound.withSlots (h : Sound m) {slots : Std.ExtTreeMap Handle Slot} (next : Nat)
    (hslots : ∀ {k : Handle} {s : Slot}, slots[k]? = some s → k.index < next ∧
      ((∃ s₀ : Slot, m.slots[k]? = some s₀ ∧ s₀.target = s.target ∧
        (s.isRooted = true → s₀.isRooted = true)) ∨ m.Offers s.target)) :
    Sound { m with slots := slots, nextHandle := next } where
  heap_lt := h.heap_lt
  slots_lt hs := (hslots hs).1
  target_lt hs := by
    rcases (hslots hs).2 with ⟨s₀, hs₀, htarget, -⟩ | hoffers
    · rw [← htarget]
      exact h.target_lt hs₀
    · exact h.heap_lt hoffers.1
  carriers_lt := h.carriers_lt
  nodup_carriers := h.nodup_carriers
  given_subset := h.given_subset
  nodup_given := h.nodup_given
  owners_lt := h.owners_lt
  payload? := h.payload?
  anchors := h.anchors
  roots {id} hid := by
    show m.Offers id
    rcases mem_roots.mp hid with hid | hid | ⟨d, hd, hid⟩
    · exact h.roots (mem_roots.mpr (.inl hid))
    · obtain ⟨k, s, hs, hrooted, rfl⟩ := mem_rooted.mp hid
      rcases (hslots hs).2 with ⟨s₀, hs₀, htarget, hroot⟩ | hoffers
      · exact h.roots (mem_roots.mpr (.inr (.inl
          (mem_rooted.mpr ⟨k, s₀, hs₀, hroot hrooted, htarget⟩))))
      · exact hoffers
    · exact h.roots (mem_roots.mpr (.inr (.inr ⟨d, hd, hid⟩)))
  targets hs htouched := by
    rcases (hslots hs).2 with ⟨s₀, hs₀, htarget, -⟩ | hoffers
    · rw [← htarget]
      exact h.targets hs₀ htouched
    · exact hoffers.2 htouched
  shown := h.shown
  references := h.references
  hidden := h.hidden

/-! ## Naming the property of carriers -/

/-- A machine whose property of carriers has been named. -/
def exposed (m : Machine) : Machine := { m with ledger := { m.ledger with isTouched := true } }

theorem offers_exposed (h : m.Offers id) : m.exposed.Offers id :=
  ⟨h.1, fun hfalse ↦ by cases hfalse⟩

theorem evolves_exposed (m : Machine) : Evolves [] m m.exposed where
  nextObject := Nat.le_refl _
  nextHandle := Nat.le_refl _
  slots := rfl
  pins := rfl
  isOpen := rfl
  globalHandle := rfl
  gone _ hmem := hmem
  kept _ _ := rfl
  makes := .refl m
  made := ⟨[], (List.append_nil _).symm, by simp⟩
  given := ⟨[], (List.append_nil _).symm, by simp⟩
  isTouched _ := rfl
  counts := .refl m
  trace := ⟨[], (List.append_nil _).symm, .none rfl rfl, fun payload ↦ by
    rw [List.countP_nil, Nat.zero_add]
    rfl⟩

theorem Sound.exposed (h : Sound m) : Sound m.exposed where
  heap_lt := h.heap_lt
  slots_lt := h.slots_lt
  target_lt := h.target_lt
  carriers_lt := h.carriers_lt
  nodup_carriers := h.nodup_carriers
  given_subset := h.given_subset
  nodup_given := h.nodup_given
  owners_lt := h.owners_lt
  payload? := h.payload?
  anchors := h.anchors
  roots hid := offers_exposed (h.roots hid)
  targets _ hfalse := by cases hfalse
  shown hx hid := offers_exposed (h.shown hx hid)
  references := h.references
  hidden hfalse := by cases hfalse

end ScriptBridge.Script.Machine
