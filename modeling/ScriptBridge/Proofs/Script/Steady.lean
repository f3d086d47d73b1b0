import ScriptBridge.Proofs.Script.Beginning
import ScriptBridge.Proofs.Script.Requests

/-!
# Machines between requests

Between two requests a machine is steady: it is sound and nothing is in use, or it is over and holds
nothing. Every request, whatever it makes scripts and native constructors do, leaves a steady
machine, and what it does to handles and payloads is told by what passed meanwhile.
-/

namespace ScriptBridge

open Script

/-! ## Exchanges -/

namespace Exchange

@[simp]
theorem issued_notices (notices : List Notice) :
    (notices.map Exchange.notice).map issued = notices.map Notice.handles := by
  rw [List.map_map]
  rfl

@[simp]
theorem countP_notices (payload : String × String) (notices : List Notice) :
    (notices.map Exchange.notice).countP (finalizes payload) =
      notices.countP (Notice.finalizes payload) := by
  rw [List.countP_map]
  rfl

@[simp]
theorem owing_notices (notices : List Notice) (handles : List Handle) :
    (notices.map Exchange.notice).foldl owing handles = handles := by
  rw [List.foldl_map]
  exact List.foldl_fixed notices

@[simp]
theorem rooting_notices (notices : List Notice) (handles : List Handle) :
    (notices.map Exchange.notice).foldl rooting handles = handles := by
  rw [List.foldl_map]
  exact List.foldl_fixed notices

end Exchange

namespace Script.Machine

variable {m m' m'' : Machine} {exchanges more extra : List Exchange} {events : List Notice}
  {made : List NativeClass} {id : ObjectId} {α : Type}

/-! ## What requests do to handles and payloads -/

/-- A handle is known, and it has a root. -/
def IsRooted (m : Machine) (k : Handle) : Prop := ∃ x, m.slots[k]? = some ⟨x, true⟩

/-- What becomes of a machine while something passes between it and native code, and which
constructors it makes meanwhile. -/
structure Advances (made : List NativeClass) (m : Machine) (exchanges : List Exchange)
    (m' : Machine) : Prop where
  nextObject : m.nextObject ≤ m'.nextObject
  nextHandle : m.nextHandle ≤ m'.nextHandle
  isOpen : m'.isOpen = true → m.isOpen = true
  /-- No object comes back. -/
  gone : ∀ {id}, id.index < m.nextObject → id ∈ m'.heap → id ∈ m.heap
  /-- The constructor of a native class stays that, and nothing becomes one. -/
  kept : ∀ {id}, id.index < m.nextObject → id ∈ m'.heap → m'.native? id = m.native? id
  makes : Makes made m m'
  made : ∃ new, m'.ledger.made = m.ledger.made ++ new ∧
    ∀ entry ∈ new, m.nextObject ≤ entry.1.index
  given : ∃ new, m'.ledger.given = m.ledger.given ++ new ∧
    ∀ entry ∈ new, m.nextObject ≤ entry.2.index
  isTouched : m.ledger.isTouched = true → m'.ledger.isTouched = true
  /-- A handle that is not new leads where it led before. -/
  targets : ∀ {h : Handle} {s' : Slot}, m'.slots[h]? = some s' → h.index < m.nextHandle →
    ∃ s : Slot, m.slots[h]? = some s ∧ s.target = s'.target
  issued : Issues m m' (exchanges.map Exchange.issued)
  finalized : ∀ payload,
    exchanges.countP (Exchange.finalizes payload) + m.lost payload = m'.lost payload
  /-- The handles are those that native code has to give back. -/
  owed : m'.isOpen = true → ∀ handles, (∀ h, h ∈ m.slots ↔ h ∈ handles) →
    ∀ h, h ∈ m'.slots ↔ h ∈ exchanges.foldl Exchange.owing handles
  /-- The rooted handles are those that native code has got or rooted and not unrooted since. -/
  rooted : m'.isOpen = true → ∀ handles, (∀ h, m.IsRooted h ↔ h ∈ handles) →
    ∀ h, m'.IsRooted h ↔ h ∈ exchanges.foldl Exchange.rooting handles

theorem Advances.refl (m : Machine) : Advances made m [] m where
  nextObject := Nat.le_refl _
  nextHandle := Nat.le_refl _
  isOpen h := h
  gone _ h := h
  kept _ _ := rfl
  makes := .refl m
  made := ⟨[], (List.append_nil _).symm, by simp⟩
  given := ⟨[], (List.append_nil _).symm, by simp⟩
  isTouched h := h
  targets hs _ := ⟨_, hs, rfl⟩
  issued := .none rfl rfl
  finalized _ := Nat.zero_add _
  owed _ _ h := h
  rooted _ _ h := h

theorem Advances.trans (first : Advances made m exchanges m')
    (second : Advances made m' more m'') : Advances made m (exchanges ++ more) m'' where
  nextObject := Nat.le_trans first.nextObject second.nextObject
  nextHandle := Nat.le_trans first.nextHandle second.nextHandle
  isOpen h := first.isOpen (second.isOpen h)
  gone hlt hmem :=
    first.gone hlt (second.gone (Nat.lt_of_lt_of_le hlt first.nextObject) hmem)
  kept hlt hmem := by
    have hlt' := Nat.lt_of_lt_of_le hlt first.nextObject
    rw [second.kept hlt' hmem, first.kept hlt (second.gone hlt' hmem)]
  makes := first.makes.trans second.makes first.nextObject
  made := exists_append_trans first.made second.made fun _ ↦ Nat.le_trans first.nextObject
  given := exists_append_trans first.given second.given fun _ ↦ Nat.le_trans first.nextObject
  isTouched h := second.isTouched (first.isTouched h)
  targets hs hlt := by
    obtain ⟨s', hs', htarget'⟩ := second.targets hs (Nat.lt_of_lt_of_le hlt first.nextHandle)
    obtain ⟨s, hs, htarget⟩ := first.targets hs' hlt
    exact ⟨s, hs, htarget.trans htarget'⟩
  issued := by
    rw [List.map_append]
    exact first.issued.trans second.issued first.nextHandle second.nextHandle
  finalized payload := by
    rw [List.countP_append, ← second.finalized, ← first.finalized]
    omega
  owed hopen handles hhandles := by
    rw [List.foldl_append]
    exact second.owed hopen _ (first.owed (second.isOpen hopen) handles hhandles)
  rooted hopen handles hhandles := by
    rw [List.foldl_append]
    exact second.rooted hopen _ (first.rooted (second.isOpen hopen) handles hhandles)

/-- Constructors may be made besides. -/
theorem Advances.of_subset {besides : List NativeClass} (h : Advances made m exchanges m')
    (hsubset : made ⊆ besides) : Advances besides m exchanges m' :=
  { h with makes := h.makes.of_subset hsubset }

/-- Notices may as well have come before the handles that passed first. -/
theorem Advances.merge {notices later : List Notice} {after : List Exchange}
    (first : Advances made m (notices.map .notice ++ extra) m')
    (second : Advances made m' (later.map .notice ++ after) m'') :
    Advances made m ((notices ++ later).map .notice ++ (extra ++ after)) m'' := by
  have hall := first.trans second
  exact { hall with
    issued := by
      have hperm :
          (notices.map Exchange.notice ++ extra ++ (later.map Exchange.notice ++ after)).Perm
          ((notices ++ later).map Exchange.notice ++ (extra ++ after)) := by
        rw [List.map_append, List.append_assoc, List.append_assoc]
        exact (List.perm_append_comm_assoc extra _ after).append_left _
      exact hall.issued.subperm (hperm.symm.map _).subperm
    finalized := fun payload ↦ by
      have hcount := hall.finalized payload
      simp only [List.map_append, List.countP_append] at hcount ⊢
      omega
    owed := fun hopen handles hhandles ↦ by
      simpa using hall.owed hopen handles hhandles
    rooted := fun hopen handles hhandles ↦ by
      simpa using hall.rooted hopen handles hhandles }

/-- What a machine does by itself it tells by notices. -/
theorem Evolves.advances (h : Evolves made m m') (htrace : m'.trace = m.trace ++ events) :
    Advances made m (events.map .notice) m' where
  nextObject := h.nextObject
  nextHandle := h.nextHandle
  isOpen hopen := h.isOpen ▸ hopen
  gone := h.gone
  kept := h.kept
  makes := h.makes
  made := h.made
  given := h.given
  isTouched := h.isTouched
  targets {k s'} hs _ := ⟨s', h.slots ▸ hs, rfl⟩
  issued := by
    obtain ⟨events', htrace', hhandles, -⟩ := h.trace
    obtain rfl : events = events' := List.append_cancel_left (htrace.symm.trans htrace')
    rw [Exchange.issued_notices]
    exact hhandles.subperm (List.sublist_cons_self ..).subperm
  finalized payload := by
    obtain ⟨events', htrace', -, hlost⟩ := h.trace
    obtain rfl : events = events' := List.append_cancel_left (htrace.symm.trans htrace')
    rw [Exchange.countP_notices]
    exact hlost payload
  owed _ handles hhandles := by
    rw [Exchange.owing_notices, h.slots]
    exact hhandles
  rooted _ handles hhandles := by
    rw [Exchange.rooting_notices]
    simpa only [IsRooted, h.slots] using hhandles

/-- Native code gets a handle. -/
theorem advances_issue (m : Machine) (id : ObjectId) :
    Advances made m [.handed ⟨m.nextHandle⟩] (m.issue id).2 :=
  { Advances.refl m with
    nextHandle := Nat.le_succ _
    targets := fun {k s'} hs hlt ↦ by
      rw [slots_issue, Std.ExtTreeMap.getElem?_insert] at hs
      split at hs
      · next heq =>
        obtain rfl : (⟨m.nextHandle⟩ : Handle) = k := Std.compare_eq_iff_eq.mp heq
        exact absurd hlt (Nat.lt_irrefl _)
      · exact ⟨s', hs, rfl⟩
    issued := issues_issue m id
    owed := fun _ handles hhandles k ↦ by
      rw [slots_issue, Std.ExtTreeMap.mem_insert, Std.compare_eq_iff_eq, hhandles k]
      show _ ↔ k ∈ handles ++ [⟨m.nextHandle⟩]
      rw [List.mem_append, List.mem_singleton, or_comm, eq_comm]
      rfl
    rooted := fun _ handles hhandles k ↦ by
      show _ ↔ k ∈ handles ++ [⟨m.nextHandle⟩]
      rw [List.mem_append, List.mem_singleton, ← hhandles, IsRooted, IsRooted,
        getElem?_slots_issue]
      by_cases hk : k = ⟨m.nextHandle⟩ <;> simp [hk] }

/-- Native code gives a handle back. -/
theorem advances_retire (m : Machine) (k : Handle) :
    Advances made m [.waived (.handle k)] (m.retire [k]) :=
  { Advances.refl m with
    targets := fun {h s'} hs _ ↦ by
      rw [getElem?_retire] at hs
      split at hs
      · cases hs
      · exact ⟨s', hs, rfl⟩
    issued := .none rfl rfl
    owed := fun _ handles hhandles h ↦ by
      show h ∈ m.slots.erase k ↔ h ∈ handles.filter (· ≠ k)
      rw [Std.ExtTreeMap.mem_erase, List.mem_filter, ← hhandles h, and_comm, decide_eq_true_iff]
      exact and_congr_right fun _ ↦ not_congr (Std.compare_eq_iff_eq.trans eq_comm)
    rooted := fun _ handles hhandles h ↦ by
      show _ ↔ h ∈ handles.filter (· ≠ k)
      rw [List.mem_filter, ← hhandles, IsRooted, IsRooted, getElem?_retire]
      by_cases hk : h = k <;> simp [hk] }

/-- A handle may get a root or lose it. -/
theorem advances_rooting {slots : Std.ExtTreeMap Handle Slot} {exchange : Exchange}
    (hissued : exchange.issued = []) (hfinal : ∀ payload, exchange.finalizes payload = false)
    (howing : ∀ handles, exchange.owing handles = handles)
    (hslots : ∀ h : Handle, (slots[h]?).map Slot.target = (m.slots[h]?).map Slot.target)
    (hrooting : ∀ handles, (∀ h, m.IsRooted h ↔ h ∈ handles) →
      ∀ h, ({ m with slots } : Machine).IsRooted h ↔ h ∈ exchange.rooting handles) :
    Advances made m [exchange] { m with slots } :=
  { Advances.refl m with
    targets := fun {h s'} hs _ ↦ by
      have htarget := hslots h
      rw [show slots[h]? = some s' from hs, Option.map_some, eq_comm, Option.map_eq_some_iff]
        at htarget
      exact htarget
    issued := .none rfl (by rw [List.map_singleton, hissued]; rfl)
    finalized := fun payload ↦ by
      rw [List.countP_singleton, hfinal]
      exact Nat.zero_add _
    rooted := fun _ ↦ hrooting
    owed := fun _ handles hhandles h ↦ by
      show h ∈ slots ↔ h ∈ exchange.owing handles
      rw [howing, ← hhandles h]
      rw [Std.ExtTreeMap.mem_iff_isSome_getElem?, Std.ExtTreeMap.mem_iff_isSome_getElem?,
        ← Option.isSome_map (f := Slot.target), hslots h, Option.isSome_map] }

/-! ## Steady machines -/

/-- Nothing has been done yet, and the global object has the only handle. -/
structure Unused (m : Machine) : Prop where
  nextHandle : m.nextHandle = 1
  global : m.slots[(⟨0⟩ : Handle)]? = some ⟨Realm.globalObject, true⟩
  carriers : m.carriers = []

/-- A machine to which no request is being made. If it was ever used, nothing is left that nothing
refers to. -/
structure Steady (m : Machine) : Prop extends Tidy m where
  sound : m.isOpen = true → Sound m
  spent : m.isOpen = false → m.slots = ∅ ∧ m.heap = ∅ ∧ m.pending = none
  pins : m.pins = []
  trace : m.trace = []
  settled : m.unreferenced [] = [] ∨ Unused m

/-- Only in an open machine is there anything. -/
theorem Steady.isOpen_of_mem (h : Steady m) (hid : id ∈ m.heap) : m.isOpen = true := by
  by_contra hclosed
  rw [(h.spent (by simpa using hclosed)).2.1] at hid
  exact Std.ExtTreeMap.not_mem_empty hid

theorem Steady.isOpen_of_slot (h : Steady m) {k : Handle} {s : Slot} (hs : m.slots[k]? = some s) :
    m.isOpen = true := by
  by_contra hclosed
  rw [(h.spent (by simpa using hclosed)).1] at hs
  simp at hs

theorem Steady.isOpen_of_pending (h : Steady m) {thrown : Datum}
    (hpending : m.pending = some thrown) : m.isOpen = true := by
  by_contra hclosed
  rw [(h.spent (by simpa using hclosed)).2.2] at hpending
  cases hpending

/-- If nothing is unreferenced, then carriers are hidden by objects. -/
theorem Sound.owner_of_settled (h : Sound m) (hsettled : m.unreferenced [] = [])
    (htouched : m.ledger.isTouched = false) {c : ObjectId} (hc : c ∈ m.heap)
    (hcarrier : c ∈ m.carriers) : ∃ x, x ∈ m.heap ∧ m.current x = some c := by
  have hreferenced : c ∈ m.referenced [] := by
    by_contra hnot
    have hmem := mem_unreferenced.mpr ⟨hc, hnot⟩
    rw [hsettled] at hmem
    cases hmem
  rcases mem_referenced.mp hreferenced with hkept | hroot | ⟨x, o, ho, hid⟩
  · cases hkept
  · exact absurd hcarrier ((h.roots hroot).2 htouched)
  · rcases Object.mem_references_iff.mp hid with hshown | ⟨content, hcontent, hid⟩
    · exact absurd hcarrier ((h.shown ho hshown).2 htouched)
    · rw [h.hidden htouched ho] at hcontent
      obtain ⟨c', hc', rfl⟩ := List.mem_map.mp hcontent
      obtain rfl : c = c' := List.mem_singleton.mp hid
      exact ⟨x, mem_heap_of_getElem? ho, Option.mem_toList.mp hc'⟩

/-- Between requests a carrier is there only as long as some object hides it, unless somebody has
named the property of carriers. -/
theorem Steady.owner (h : Steady m) (htouched : m.ledger.isTouched = false) {c : ObjectId}
    (hc : c ∈ m.heap) (hcarrier : c ∈ m.carriers) : ∃ x, x ∈ m.heap ∧ m.current x = some c := by
  cases hopen : m.isOpen with
  | true =>
    rcases h.settled with hsettled | hunused
    · exact (h.sound hopen).owner_of_settled hsettled htouched hc hcarrier
    · rw [hunused.carriers] at hcarrier
      cases hcarrier
  | false =>
    rw [(h.spent hopen).2.1] at hc
    exact absurd hc Std.ExtTreeMap.not_mem_empty

/-- A request is being carried out. Besides notices this has passed so far. -/
structure Underway (made : List NativeClass) (m : Machine) (extra : List Exchange)
    (m' : Machine) : Prop where
  sound : Sound m'
  pins : m'.pins = []
  isOpen : m'.isOpen = true
  counts : Counts m m'
  advances : Advances made m (m'.trace.map .notice ++ extra) m'

theorem nextHandle_settle (kept : List ObjectId) (m : Machine) :
    (m.settle kept).nextHandle = m.nextHandle := by
  rw [settle_eq]

theorem isOpen_settle (kept : List ObjectId) (m : Machine) :
    (m.settle kept).isOpen = m.isOpen := by
  rw [settle_eq]

theorem slots_settle (kept : List ObjectId) (m : Machine) : (m.settle kept).slots = m.slots := by
  rw [settle_eq]

theorem forced_sweep (m : Machine) : m.sweep.forced = m.forced := by
  rw [sweep_eq, freeAll_eq]

/-- The end of a request leaves a steady machine, and everything that has happened is told. -/
theorem Underway.conclude (h : Underway made m extra m') (result : α) :
    Steady (m'.conclude result).state ∧
      Advances made m ((m'.conclude result).events.map .notice ++ extra)
        (m'.conclude result).state := by
  obtain ⟨hsound, hevolves, -⟩ := h.sound.settle []
  let settled := m'.settle []
  have hcleared : Sound { settled with trace := [] } :=
    hsound.withHeld rfl rfl rfl rfl rfl rfl fun hd _ ↦ .inl hd
  have hopen : settled.isOpen = true := hevolves.isOpen.trans h.isOpen
  have hunreferenced : settled.unreferenced [] = [] := unreferenced_settle [] m'
  refine ⟨{ hcleared.toTidy with
    sound := fun _ ↦ hcleared
    spent := fun hclosed ↦ ?_
    pins := hevolves.pins.trans h.pins
    trace := rfl
    settled := .inl hunreferenced }, ?_⟩
  · have hclosed : settled.isOpen = false := hclosed
    rw [hopen] at hclosed
    cases hclosed
  · obtain ⟨events, htrace, -⟩ := hevolves.trace
    have hsettles : Advances made m' (events.map .notice ++ []) settled := by
      rw [List.append_nil]
      exact hevolves.of_none.advances htrace
    have hall := h.advances.merge hsettles
    rw [List.append_nil, ← htrace] at hall
    exact { hall with }

theorem Steady.underway (h : Steady m) (hopen : m.isOpen = true) : Underway made m [] m where
  sound := h.sound hopen
  pins := h.pins
  isOpen := hopen
  counts := .refl m
  advances := by
    rw [h.trace]
    exact .refl m

theorem Evolves.underway (hevolves : Evolves made m m') (h : Steady m) (hopen : m.isOpen = true)
    (hsound : Sound m') : Underway made m [] m' where
  sound := hsound
  pins := hevolves.pins.trans h.pins
  isOpen := hevolves.isOpen.trans hopen
  counts := hevolves.counts
  advances := by
    rw [List.append_nil]
    exact hevolves.advances (by rw [h.trace, List.nil_append])

end Script.Machine

end ScriptBridge
