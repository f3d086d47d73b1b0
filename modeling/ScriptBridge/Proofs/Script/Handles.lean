import ScriptBridge.Proofs.Script.Dealing

/-!
# What handles mean

From the creation of a machine on, handles are issued in the order of their indices, and a handle
leads to the one object that it was issued for as long as it leads anywhere. The machine keeps
exactly those handles that native code got as results and has not given back: those of the arguments
of a constructor go with its call, whatever becomes of that.
-/

namespace ScriptBridge.Script.Machine

open Backend

variable {m m' m'' : Machine} {config : Config} {history more : List Exchange} {k : Handle}
  {made : List NativeClass} {x : ObjectId} {s : Slot} {α : Type}

/-- A machine that native code has used since its creation, with all that has passed. The first
handle that it gets is that of the global object. -/
inductive Used (config : Config) : List Exchange → Machine → Prop
  | created {m : Machine} (h : Machine.create config = .ok m) : Used config [.handed ⟨0⟩] m
  | dealt {m m' : Machine} {history more : List Exchange} (h : Used config history m)
    (hdealing : Dealing m more m') : Used config (history ++ more) m'

/-- What a request finds behind a handle. -/
def lookup (k : Handle) (m : Machine) : Except Failure (Option ObjectId) :=
  if m.isOpen then m.resolve k else .error .notInitialized

/-! ## Whole lives -/

theorem create_eq (h : Machine.create config = .ok m) : m = Realm.machine config.strict := by
  unfold Machine.create at h
  split at h
  · cases h
  · split at h
    · cases h
    · exact (Except.ok.inj h).symm

theorem Used.dealings (h : Used config history m) (hdealings : Dealings m more m') :
    Used config (history ++ more) m' := by
  induction hdealings with
  | refl => rwa [List.append_nil]
  | tail _ hlast ih => exact List.append_assoc history _ _ ▸ ih.dealt hlast

theorem Used.steady (h : Used config history m) : Steady m := by
  induction h with
  | created h => exact create_eq h ▸ steady_machine config.strict
  | dealt _ hdealing ih => exact (ih.dealing hdealing).1

/-- Handles were issued in order, and native code was told of some of them. -/
theorem Used.issued (h : Used config history m) :
    Ascends 0 m.nextHandle m.issued ∧ Tells (history.map Exchange.issued) m.issued := by
  induction h with
  | created h =>
    rw [create_eq h]
    refine ⟨⟨List.pairwise_singleton _ _, fun k hk ↦ ?_⟩, ?_⟩
    · rw [List.mem_singleton.mp hk]
      exact ⟨Nat.le_refl 0, Nat.one_pos⟩
    · exact .singleton [⟨0⟩]
  | @dealt m m' history more h hdealing ih =>
    obtain ⟨-, made, hadvances, -⟩ := h.steady.dealing hdealing
    obtain ⟨new, hissued, hascends, htells⟩ := hadvances.issued
    rw [hissued, List.map_append]
    exact ⟨ih.1.append hascends (Nat.zero_le _) hadvances.nextHandle, ih.2.append htells⟩

/-- An open machine has the handles that native code has to give back. -/
theorem Used.owed (h : Used config history m) (hopen : m.isOpen = true) :
    ∀ k, k ∈ m.slots ↔ k ∈ history.foldl Exchange.owing [] := by
  induction h with
  | created h =>
    intro k
    rw [create_eq h]
    show k ∈ (∅ : Std.ExtTreeMap Handle Slot).insert ⟨0⟩ ⟨Realm.globalObject, true⟩ ↔
      k ∈ [(⟨0⟩ : Handle)]
    rw [Std.ExtTreeMap.mem_insert, Std.compare_eq_iff_eq, List.mem_singleton]
    simp [eq_comm]
  | dealt h hdealing ih =>
    obtain ⟨-, made, hadvances, -⟩ := h.steady.dealing hdealing
    rw [List.foldl_append]
    exact hadvances.owed hopen _ (ih (hadvances.isOpen hopen))

/-- The rooted handles of an open machine are those that native code got or rooted last. -/
theorem Used.rooted (h : Used config history m) (hopen : m.isOpen = true) :
    ∀ k, m.IsRooted k ↔ k ∈ history.foldl Exchange.rooting [] := by
  induction h with
  | created h =>
    intro k
    rw [create_eq h]
    show (∃ x, ((∅ : Std.ExtTreeMap Handle Slot).insert ⟨0⟩ ⟨Realm.globalObject, true⟩)[k]? =
      some (Slot.mk x true)) ↔ k ∈ [(⟨0⟩ : Handle)]
    rw [Std.ExtTreeMap.getElem?_insert, List.mem_singleton]
    by_cases hk : k = ⟨0⟩
    · simp [hk]
    · simp [hk, Ne.symm hk]
  | dealt h hdealing ih =>
    obtain ⟨-, made, hadvances, -⟩ := h.steady.dealing hdealing
    rw [List.foldl_append]
    exact hadvances.rooted hopen _ (ih (hadvances.isOpen hopen))

/-- A root stays until it is given up, and so does one that comes on the way. -/
theorem mem_rooting {handles : List Handle} (hroot : Exchange.waived (.root k) ∉ more)
    (hhandle : Exchange.waived (.handle k) ∉ more) (hk : k ∈ handles) :
    k ∈ more.foldl Exchange.rooting handles := by
  induction more generalizing handles with
  | nil => exact hk
  | cons exchange more ih =>
    obtain ⟨hroot', hroot⟩ := not_or.mp (mt List.mem_cons.mpr hroot)
    obtain ⟨hhandle', hhandle⟩ := not_or.mp (mt List.mem_cons.mpr hhandle)
    refine ih hroot hhandle ?_
    rcases exchange with notice | other | other | (other | other)
    · exact hk
    · exact List.mem_append_left _ hk
    · exact List.mem_append_left _ hk
    · exact List.mem_filter.mpr ⟨hk, by simpa using hroot'⟩
    · exact List.mem_filter.mpr ⟨hk, by simpa using hhandle'⟩

/-! ## Where a handle leads -/

theorem resolve_eq (k : Handle) (m : Machine) : m.resolve k = match m.slots[k]? with
    | none => .error (.unknownHandle k)
    | some s => .ok (if s.isRooted || m.heap.contains s.target then some s.target else none) :=
  rfl

/-- A rooted handle leads to its object, which is there. -/
theorem Steady.of_rooted (h : Steady m) (hs : m.slots[k]? = some s) (hrooted : s.isRooted = true) :
    m.lookup k = .ok (some s.target) ∧ s.target ∈ m.heap := by
  have hopen : m.isOpen = true := h.isOpen_of_slot hs
  refine ⟨?_, ?_⟩
  · rw [lookup, if_pos hopen, resolve_eq, hs]
    simp [hrooted]
  · have hroot : s.target ∈ m.roots :=
      mem_roots.mpr (.inr (.inl (mem_rooted.mpr ⟨k, s, hs, hrooted, rfl⟩)))
    exact ((h.sound hopen).roots hroot).1

theorem lookup_eq_ok (h : m.lookup k = .ok (some x)) : m.isOpen = true ∧
    m.resolve k = .ok (some x) := by
  unfold lookup at h
  split at h
  · exact ⟨‹_›, h⟩
  · cases h

/-- A handle leads to an object just if it is known for it and the object is there. -/
theorem Steady.lookup_iff (h : Steady m) : m.lookup k = .ok (some x) ↔
    ∃ s, m.slots[k]? = some s ∧ s.target = x ∧ x ∈ m.heap := by
  refine ⟨fun hlookup ↦ ?_, fun ⟨s, hs, htarget, hx⟩ ↦ ?_⟩
  · obtain ⟨hopen, hresolve⟩ := lookup_eq_ok hlookup
    obtain ⟨s, hs, htarget⟩ := target_of_resolve hresolve
    exact ⟨s, hs, htarget, ((h.sound hopen).offers_resolve hresolve).1⟩
  · rw [lookup, if_pos (h.isOpen_of_slot hs), resolve_eq, hs]
    simp [htarget, hx]

/-- Later a handle leads to the same object, or to none. -/
theorem Advances.lookup (hadvances : Advances made m more m') (h : Steady m) (h' : Steady m')
    (hissued : k.index < m.nextHandle) (hlookup : m'.lookup k = .ok (some x)) :
    m.lookup k = .ok (some x) := by
  obtain ⟨s', hs', rfl, hx⟩ := h'.lookup_iff.mp hlookup
  obtain ⟨s, hs, htarget⟩ := hadvances.targets hs' hissued
  have hplace := h.target_lt hs
  rw [htarget] at hplace
  exact h.lookup_iff.mpr ⟨s, hs, htarget, hadvances.gone hplace hx⟩

theorem lookup_cases (k : Handle) (m : Machine) : (∃ x, m.lookup k = .ok (some x)) ∨
    m.lookup k = .ok none ∨ m.lookup k = .error (.unknownHandle k) ∨
      m.lookup k = .error .notInitialized := by
  unfold lookup
  split
  · rw [resolve_eq]
    split
    · exact .inr (.inr (.inl rfl))
    · split
      · exact .inl ⟨_, rfl⟩
      · exact .inr (.inl rfl)
  · exact .inr (.inr (.inr rfl))

theorem resolveLive_of_dead (h : ∀ x, m.resolve k ≠ .ok (some x)) :
    m.resolveLive k = .error (.unknownHandle k) := by
  unfold Machine.resolveLive
  split
  · next hresolve => exact absurd hresolve (h _)
  · rfl
  · next failure hresolve =>
    rw [resolve_eq] at hresolve
    split at hresolve
    · cases hresolve
      rfl
    · cases hresolve

/-- What leads nowhere cannot be rooted, and the attempt changes nothing. -/
theorem Steady.root_of_dead (h : Steady m) (hissued : k.index < m.nextHandle)
    (hdead : ∀ x, m.lookup k ≠ .ok (some x)) : Backend.root k m =
      ⟨.error (if m.isOpen then .unknownHandle k else .notInitialized), m, []⟩ := by
  have hsettled : m.unreferenced [] = [] := by
    refine h.settled.resolve_right fun hunused ↦ ?_
    have hfirst : k = ⟨0⟩ := by
      rw [hunused.nextHandle, Nat.lt_one_iff] at hissued
      exact congrArg Handle.mk hissued
    subst hfirst
    exact hdead _ (h.of_rooted hunused.global rfl).1
  show Machine.whileOpen (Machine.root k) m = _
  unfold Machine.whileOpen
  cases hopen : m.isOpen with
  | true =>
    have hroot : Machine.root k m = (.error (.unknownHandle k), m) := by
      have hresolve : ∀ x, m.resolve k ≠ .ok (some x) := by
        simpa [Machine.lookup, hopen] using hdead
      unfold Machine.root
      rw [resolveLive_of_dead hresolve]
    rw [if_pos rfl, if_pos rfl, hroot]
    exact conclude_of_settled hsettled h.trace _
  | false => rfl

/-! ## Where new handles lead -/

/-- The rooted handles of a machine are finitely many. -/
theorem exists_rooted (m : Machine) : ∃ handles : List Handle, ∀ k, m.IsRooted k ↔ k ∈ handles := by
  refine ⟨m.slots.keys.filter fun k ↦ (m.slots[k]?).any Slot.isRooted, fun k ↦ ?_⟩
  rw [List.mem_filter, Std.ExtTreeMap.mem_keys, Option.any_eq_true]
  constructor
  · rintro ⟨x, hx⟩
    exact ⟨Std.ExtTreeMap.mem_iff_isSome_getElem?.mpr (by simp [hx]), _, hx, rfl⟩
  · rintro ⟨-, ⟨target, isRooted⟩, hs, hrooted⟩
    exact ⟨target, hs.trans (by rw [show isRooted = true from hrooted])⟩

/-- A handle leads to an object, and has a root. -/
def Leads (m : Machine) (k : Handle) : Prop := m.IsRooted k ∧ ∃ x, m.lookup k = .ok (some x)

theorem Steady.leads (h : Steady m) (hrooted : m.IsRooted k) : m.Leads k := by
  obtain ⟨x, hx⟩ := hrooted
  exact ⟨⟨x, hx⟩, x, (h.of_rooted hx rfl).1⟩

/-- A handle that is handed over or rooted at the end of a request leads to an object. -/
theorem Underway.leads (h : Underway made m extra m') (exchange : Exchange)
    (hextra : extra = [exchange]) (hk : ∀ handles, k ∈ exchange.rooting handles) (a : α) :
    (m'.conclude a).state.Leads k := by
  obtain ⟨hsteady, hadvances⟩ := h.conclude a
  obtain ⟨handles, hhandles⟩ := exists_rooted m
  have hopen : (m'.conclude a).state.isOpen = true := (isOpen_conclude m' a).trans h.isOpen
  refine hsteady.leads ((hadvances.rooted hopen handles hhandles k).mpr ?_)
  rw [List.foldl_append, Exchange.rooting_notices, hextra]
  exact hk handles

/-- The handle that an open machine hands over or roots leads to an object. -/
theorem whileOpen_leads {run : Machine → Except Failure α × Machine} (exchange : Exchange)
    (passed : Except Failure α → List Exchange)
    (hrun : m.isOpen = true → Underway made m (passed (run m).1) (run m).2)
    (hpassed : passed (Machine.whileOpen run m).result = [exchange])
    (hclosed : passed (.error .notInitialized) = [])
    (hk : ∀ handles, k ∈ exchange.rooting handles) :
    (Machine.whileOpen run m).state.Leads k := by
  unfold Machine.whileOpen at hpassed ⊢
  split at hpassed
  · next hopen =>
    rw [if_pos hopen]
    exact (hrun hopen).leads exchange hpassed hk _
  · rw [hclosed] at hpassed
    cases hpassed

theorem mem_rooting_handed (k : Handle) (handles : List Handle) :
    k ∈ (Exchange.handed k).rooting handles :=
  List.mem_append_right _ (List.mem_singleton_self k)

/-- Only a handle that leads to an object can be rooted. -/
theorem lookup_of_root (hroot : (Backend.root k m).result = .ok ()) :
    ∃ x, m.lookup k = .ok (some x) := by
  have hroot : (Machine.whileOpen (Machine.root k) m).result = .ok () := hroot
  unfold Machine.whileOpen at hroot
  split at hroot
  · next hopen =>
    have hroot : (Machine.root k m).1 = .ok () := hroot
    unfold Machine.root at hroot
    split at hroot
    · cases hroot
    · next x hx => exact ⟨x, by rw [lookup, if_pos hopen, resolve_of_resolveLive hx]⟩
  · cases hroot

/-- After a handle was rooted it leads where it led before. -/
theorem Steady.of_root (h : Steady m) (hroot : (Backend.root k m).result = .ok ()) :
    (Backend.root k m).state.IsRooted k ∧
      ∃ x, m.lookup k = .ok (some x) ∧ (Backend.root k m).state.lookup k = .ok (some x) := by
  have hleads : (Backend.root k m).state.Leads k :=
    whileOpen_leads (.rooted k) (Exchange.ofRooting k) (h.root · k)
      (congrArg (Exchange.ofRooting k) hroot) rfl
      fun handles ↦ List.mem_append_right _ (List.mem_singleton_self k)
  obtain ⟨hrooted, x, hx⟩ := hleads
  obtain ⟨hsteady, made, hadvances, -⟩ := h.dealing (.root k m)
  obtain ⟨x', hx'⟩ := lookup_of_root hroot
  obtain ⟨s, hs, -⟩ := h.lookup_iff.mp hx'
  exact ⟨hrooted, x, hadvances.lookup h hsteady (h.slots_lt hs) hx, hx⟩

/-! ## Handles keep their meaning -/

/-- What is so about the handles of a machine from one moment of its life to a later one. -/
structure KeepsHandles (history more : List Exchange) (m m' : Machine) : Prop where
  /-- What was given out is never given out again, since indices increase. -/
  issued : m.issued <+: m'.issued
  ordered : m'.issued.Pairwise fun k k' ↦ k.index < k'.index
  /-- Native code is told of each handle once, of those that it is told of together in their order,
  and of later ones later. -/
  told : Tells ((history ++ more).map Exchange.issued) m'.issued
  later : ∀ k ∈ m.issued, ∀ k' ∈ more.flatMap Exchange.issued, k.index < k'.index
  /-- A handle leads to the object that it led to, to nothing, or is not known. -/
  same : ∀ k x, m.lookup k = .ok (some x) → m'.lookup k = .ok (some x) ∨ m'.lookup k = .ok none ∨
    m'.lookup k = .error (.unknownHandle k) ∨ m'.lookup k = .error .notInitialized
  /-- The rooted handles are those that native code got or rooted and has not unrooted or given back
  since, nor has an update. Each leads to its object, which is there. -/
  rooted : m'.isOpen = true → ∀ k,
    m'.IsRooted k ↔ k ∈ (history ++ more).foldl Exchange.rooting []
  live : ∀ (k : Handle) s, m'.slots[k]? = some s → s.isRooted = true →
    m'.lookup k = .ok (some s.target) ∧ s.target ∈ m'.heap
  stays : ∀ k x, m.IsRooted k → m.lookup k = .ok (some x) → m'.isOpen = true →
    .waived (.root k) ∉ more → .waived (.handle k) ∉ more →
      m'.IsRooted k ∧ m'.lookup k = .ok (some x)
  /-- A handle that was given out but leads to no object never leads to one again, so that it cannot
  be rooted, and the attempt changes nothing. -/
  dead : ∀ k ∈ m.issued, (∀ x, m.lookup k ≠ .ok (some x)) →
    (∀ x, m'.lookup k ≠ .ok (some x)) ∧ Backend.root k m' =
      ⟨.error (if m'.isOpen then .unknownHandle k else .notInitialized), m', []⟩
  root : ∀ k, (Backend.root k m').result = .ok () → (Backend.root k m').state.IsRooted k ∧
    ∃ x, m'.lookup k = .ok (some x) ∧ (Backend.root k m').state.lookup k = .ok (some x)
  /-- A result that is an object comes with a rooted handle that leads to one. That of an evaluation
  does so until the update that may follow. -/
  createObject : ∀ k, (Backend.createObject m').result = .ok k →
    (Backend.createObject m').state.Leads k
  getProperty : ∀ target key k, (Backend.getProperty target key m').result = .ok (.object k) →
    (Backend.getProperty target key m').state.Leads k
  evaluate : ∀ source file k, m'.isOpen = true → (m'.run source file).result = .ok (.object k) →
    (m'.run source file).state.Leads k

/-- The arguments of a native constructor get their handles one by one, while scripts may run. Each
handle is new, and leads to its argument when the constructor is called. -/
theorem Sound.arguments_lead {depth : Nat} {w calling : Machine} {arguments : List Datum}
    {values : List Value} {failure : Option Failure} (h : Sound w) (harguments : arguments ⊆ w.pins)
    (hrun : (Interp.handOverAll (Interp.invokeWithin depth) arguments).run w =
      (some (values, failure), calling)) {i : Nat} (hk : values[i]? = some (.object k)) :
    w.nextHandle ≤ k.index ∧ ∃ x, arguments[i]? = some (.object x) ∧
      calling.slots[k]? = some ⟨x, true⟩ ∧ calling.resolve k = .ok (some x) := by
  obtain ⟨values', failure', calling', hrun', hhands⟩ :=
    h.handsOver (faithful_invokeWithin depth) (.of_subset harguments)
  obtain ⟨⟨rfl, rfl⟩, rfl⟩ := by simpa using hrun.symm.trans hrun'
  obtain ⟨x, hx, hslot⟩ := hhands.leads i k hk
  refine ⟨hhands.index_ge (List.mem_filterMap.mpr ⟨_, List.mem_of_getElem? hk, rfl⟩), x, hx, hslot,
    ?_⟩
  rw [resolve_eq, hslot]
  rfl

theorem mem_owing_waived {handles : List Handle} {waived : List Waiver} :
    k ∈ (waived.map Exchange.waived).foldl Exchange.owing handles ↔
      k ∈ handles ∧ .handle k ∉ waived := by
  induction waived generalizing handles with
  | nil => simp
  | cons first waived ih =>
    rw [List.map_cons, List.foldl_cons, ih]
    cases first <;> simp [Exchange.owing, and_assoc]

theorem mem_owing_result {handles : List Handle} (result : Except Failure Value) :
    k ∈ (Exchange.ofResult result).foldl Exchange.owing handles ↔
      k ∈ handles ∨ result = .ok (.object k) := by
  rcases result with failure | value
  · simp [Exchange.ofResult, Except.toOption]
  · cases value <;>
      simp [Exchange.ofResult, Except.toOption, Value.asObject?, Exchange.owing, eq_comm]

end ScriptBridge.Script.Machine
