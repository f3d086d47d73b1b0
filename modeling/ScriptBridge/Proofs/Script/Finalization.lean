import ScriptBridge.Proofs.Script.Entrusting

/-!
# The end of payloads

A payload is over when its object is gone, when the object was given a later one, and when the
machine has ended. As long as nobody names the property of carriers, the finalizer has been told of
exactly the payloads that are over; whoever does name it may keep carriers alive, or take them away,
but in the end every finalizer has been told once of each of its payloads.
-/

namespace ScriptBridge.Script.Machine

open Backend

variable {m m' m'' : Machine} {exchanges : List Exchange} {id x c : ObjectId} {payload : Payload}
  {made : List NativeClass} {k : Handle}

/-! ## When a payload is over -/

/-- The payload of a carrier is over: no object that is there has it as its last one. -/
def isOver (m : Machine) (c : ObjectId) : Bool := m.heap.keys.all fun x ↦ m.current x ≠ some c

/-- How many payloads with a tag and a text were ever carried. -/
def total (m : Machine) (payload : String × String) : Nat :=
  m.ledger.made.countP fun entry ↦ entry.2 = (⟨payload.2, some payload.1⟩ : Payload)

/-- How many of them are over. -/
def ended (m : Machine) (payload : String × String) : Nat :=
  m.ledger.made.countP fun entry ↦
    m.isOver entry.1 && entry.2 = (⟨payload.2, some payload.1⟩ : Payload)

theorem isOver_iff : m.isOver c = true ↔ ∀ x ∈ m.heap, m.current x ≠ some c := by
  simp [isOver]

/-- The payload that was given to an object is over when the object is gone or was given another. -/
theorem Tidy.isOver_iff (h : Tidy m) (hgiven : (x, c) ∈ m.ledger.given) :
    m.isOver c = true ↔ x ∉ m.heap ∨ m.current x ≠ some c := by
  rw [Machine.isOver_iff, ← not_and_or]
  constructor
  · exact fun hover hboth ↦ hover x hboth.1 hboth.2
  · intro hnot y hy hcurrent
    obtain rfl := h.given_unique hgiven (mem_given_of_current hcurrent)
    exact hnot ⟨hy, hcurrent⟩

/-- An object refers to its carrier. -/
theorem Sound.mem_references_of_current (h : Sound m) (htouched : m.ledger.isTouched = false)
    (hx : x ∈ m.heap) (hcurrent : m.current x = some c) : c ∈ (m.object x).references := by
  refine Object.mem_references_iff.mpr (.inr ⟨.data (.object c), ?_, List.mem_singleton_self c⟩)
  rw [h.hidden htouched (getElem?_of_mem hx), hcurrent]
  exact List.mem_singleton_self _

/-- Between requests a carrier is gone just if its payload is over. -/
theorem Steady.notMem_heap_iff (h : Steady m) (htouched : m.ledger.isTouched = false)
    (hcarrier : c ∈ m.carriers) : c ∉ m.heap ↔ m.isOver c = true := by
  rw [Machine.isOver_iff]
  constructor
  · intro hgone x hx hcurrent
    have hopen : m.isOpen = true := h.isOpen_of_mem hx
    have hreferred := (h.sound hopen).mem_references_of_current htouched hx hcurrent
    exact hgone ((h.sound hopen).closed.mem_of_object hreferred)
  · intro hover hc
    obtain ⟨x, hx, hcurrent⟩ := h.owner htouched hc hcarrier
    exact hover x hx hcurrent

theorem Steady.lost_eq_ended (h : Steady m) (htouched : m.ledger.isTouched = false)
    (payload : String × String) : m.lost payload = m.ended payload := by
  refine List.countP_congr fun entry hentry ↦ ?_
  have hgone := h.notMem_heap_iff htouched (List.mem_map_of_mem (f := Prod.fst) hentry)
  rw [← Std.ExtTreeMap.contains_iff_mem] at hgone
  simp only [Bool.and_eq_true, Bool.not_eq_true', ← hgone, Bool.not_eq_true]

/-- When the machine has ended, all carriers are gone. -/
theorem Steady.lost_eq_total (h : Steady m) (hclosed : m.isOpen = false)
    (payload : String × String) : m.lost payload = m.total payload := by
  unfold lost total
  rw [(h.spent hclosed).2.1]
  simp

/-- What was last given to an object before remains so unless the object is given something new. -/
theorem current_append {new : List (ObjectId × ObjectId)}
    (hgiven : m'.ledger.given = m.ledger.given ++ new) (hcurrent : m'.current x = some c)
    (hnew : (x, c) ∉ new) : m.current x = some c := by
  unfold current at hcurrent ⊢
  rw [hgiven, List.reverse_append, List.lookup_append] at hcurrent
  rcases Option.or_eq_some_iff.mp hcurrent with hlater | ⟨-, hbefore⟩
  · obtain ⟨before, after, hsplit, -⟩ := List.lookup_eq_some_iff.mp hlater
    refine absurd ?_ hnew
    rw [← List.mem_reverse, hsplit]
    simp
  · exact hbefore

/-- What is over stays over. -/
theorem Advances.isOver (hadvances : Advances made m exchanges m') (h : Steady m) (h' : Steady m')
    (hgiven : (x, c) ∈ m.ledger.given) (hover : m.isOver c = true) : m'.isOver c = true := by
  rw [Machine.isOver_iff] at hover ⊢
  intro y hy hcurrent
  obtain ⟨new, hextends, hnew⟩ := hadvances.given
  have hgiven' : (x, c) ∈ m'.ledger.given := by
    rw [hextends]
    exact List.mem_append_left _ hgiven
  obtain rfl := h'.given_unique hgiven' (mem_given_of_current hcurrent)
  have hold : c.index < m.nextObject :=
    h.carriers_lt (h.given_subset (List.mem_map.mpr ⟨(x, c), hgiven, rfl⟩))
  refine hover x (hadvances.gone (h.owners_lt hgiven) hy) (current_append hextends hcurrent ?_)
  intro hmem
  exact absurd (hnew _ hmem) (Nat.not_le.mpr hold)

/-! ## What can be reached -/

/-- The payload of an object that can be reached is left alone, at any moment of a script. -/
theorem Sound.keeps_payload (h : Sound m) (htouched : m.ledger.isTouched = false)
    (hreach : m.Reaches x) (hcurrent : m.current x = some c) (kept : List ObjectId) :
    c ∈ (m.settle kept).heap ∧ c ∈ m.sweep.heap := by
  have hx := h.closed.mem_of_reaches hreach
  have hcarrier : m.Reaches c :=
    hreach.step (getElem?_of_mem hx) (h.mem_references_of_current htouched hx hcurrent)
  refine ⟨h.closed.mem_settle kept hcarrier, ?_⟩
  rw [sweep_eq, mem_heap_freeAll]
  exact ⟨fun hswept ↦ (mem_swept.mp hswept).2 (h.closed.mem_reachable hcarrier),
    h.closed.mem_of_reaches hcarrier⟩

end ScriptBridge.Script.Machine
