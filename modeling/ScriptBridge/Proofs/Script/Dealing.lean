import ScriptBridge.Proofs.Script.Steady

/-!
# Requests to a machine

Every request is taken apart into what is interpreted, the handle that is issued or given back, and
the removals at the end. So it leads from one steady machine to the next, whatever the scripts and
native constructors do that run meanwhile, and whatever native code does at an update.
-/

namespace ScriptBridge.Script.Machine

open Backend

variable {m m' m'' : Machine} {exchanges more extra : List Exchange} {notices : List Notice}
  {waived : List Waiver} {made : List NativeClass} {id : ObjectId} {k : Handle} {α : Type}

/-! ## Requests of an open machine -/

section Open

variable {k : Handle}

theorem snd_interpret (action : Interp (Except Failure α)) (m : Machine) :
    (interpret action m).2 = (action.run m).2 := by
  unfold interpret
  split <;> simp [*]

theorem Steady.interpret_crafts (h : Steady m) (hopen : m.isOpen = true) (needs : List ObjectId)
    {action : Interp (Except Failure α)} (hx : Crafts made [] needs action)
    (hneeds : ∀ id ∈ needs, m.Offers id) : Underway made m [] (interpret action m).2 := by
  obtain ⟨hevolves, hsound⟩ := hx (h.sound hopen) h.pins hneeds
  rw [snd_interpret]
  exact hevolves.underway h hopen hsound

theorem Steady.interpret (h : Steady m) (hopen : m.isOpen = true) (needs : List ObjectId)
    {action : Interp (Except Failure α)} {gives : Except Failure α → List ObjectId}
    (hx : Safe False [] needs action gives) (hneeds : ∀ id ∈ needs, m.Offers id) :
    Underway [] m [] (interpret action m).2 :=
  h.interpret_crafts hopen needs (.of_safe hx) hneeds

theorem ofResult_interpret {action : Interp (Except Failure Value)}
    (h : ¬ IsObject (action.run m).1) :
    Exchange.ofResult (Machine.interpret action m).1 = [] := by
  unfold Machine.interpret
  split
  · next result m' hrun =>
    rw [hrun] at h
    cases result with
    | error failure => rfl
    | ok value =>
      cases value with
      | object k => exact absurd ⟨k, rfl⟩ h
      | undefined | null | boolean | number | string => rfl
  · rfl

/-- A handle may be given out for what is offered. -/
theorem Underway.issue (h : Underway made m [] m') (hid : m'.Offers id) :
    Underway made m [.handed ⟨m'.nextHandle⟩] (m'.issue id).2 where
  sound := h.sound.issue hid
  pins := h.pins
  isOpen := h.isOpen
  counts := h.counts
  advances := by
    have hbefore := h.advances
    rw [List.append_nil] at hbefore
    exact hbefore.trans (advances_issue m' id)

theorem Steady.interpret_handing (h : Steady m) (hopen : m.isOpen = true) (needs : List ObjectId)
    {action : Interp (Except Failure Value)} (hx : Handing [] needs action)
    (hneeds : ∀ id ∈ needs, m.Offers id) :
    Underway [] m (Exchange.ofResult (Machine.interpret action m).1)
      (Machine.interpret action m).2 := by
  obtain ⟨m', hevolves, hsound, -, ⟨hno, hafter⟩ | ⟨id, hoffers, hrun⟩⟩ :=
    hx (h.sound hopen) h.pins hneeds
  · rw [ofResult_interpret hno, snd_interpret, hafter]
    exact hevolves.underway h hopen hsound
  · have hissued := (hevolves.underway h hopen hsound).issue hoffers
    have hinterpret : Machine.interpret action m =
        (.ok (.object ⟨m'.nextHandle⟩), (m'.issue id).2) := by
      unfold Machine.interpret
      rw [hrun]
    rw [hinterpret]
    exact hissued

/-- A request on an object fails at once if the handle does not lead to it. -/
theorem Steady.onLive (h : Steady m) (hopen : m.isOpen = true)
    (handed : Except Failure α → List Exchange) {run : ObjectId → Interp (Except Failure α)}
    (herror : ∀ failure, handed (.error failure) = [])
    (hrun : ∀ id, m.Offers id → Underway made m
      (handed (Machine.interpret (Interp.holding [.object id] (run id)) m).1)
      (Machine.interpret (Interp.holding [.object id] (run id)) m).2) :
    Underway made m (handed (Machine.onLive k run m).1) (Machine.onLive k run m).2 := by
  unfold Machine.onLive
  split
  · rw [herror]
    exact h.underway hopen
  · next id hid => exact hrun id ((h.sound hopen).offers_resolveLive hid)

theorem whileOpen_of_isOpen (hopen : m.isOpen = true)
    (run : Machine → Except Failure α × Machine) :
    Machine.whileOpen run m = (run m).2.conclude (run m).1 := by
  unfold Machine.whileOpen
  rw [if_pos hopen]

/-- A request to a machine that is over fails at once. -/
theorem Steady.whileOpen (h : Steady m) (handed : Except Failure α → List Exchange)
    {run : Machine → Except Failure α × Machine}
    (hclosed : m.isOpen = false → Advances made m (handed (.error .notInitialized)) m)
    (hrun : m.isOpen = true → Underway made m (handed (run m).1) (run m).2) :
    Steady (Machine.whileOpen run m).state ∧ Advances made m
      ((Machine.whileOpen run m).events.map .notice ++ handed (Machine.whileOpen run m).result)
      (Machine.whileOpen run m).state := by
  unfold Machine.whileOpen
  split
  · next hopen => exact (hrun hopen).conclude (run m).1
  · next hopen => exact ⟨h, hclosed (Bool.eq_false_iff.mpr hopen)⟩

/-- A request whose result is no object. -/
theorem Steady.whileOpen_plain (h : Steady m) {run : Machine → Except Failure α × Machine}
    (hrun : m.isOpen = true → Underway made m [] (run m).2) :
    Steady (Machine.whileOpen run m).state ∧
      Advances made m ((Machine.whileOpen run m).events.map .notice)
        (Machine.whileOpen run m).state := by
  have hboth := h.whileOpen (fun _ ↦ []) (fun _ ↦ .refl m) hrun
  rwa [List.append_nil] at hboth

end Open

/-! ## The requests one by one -/

theorem Steady.createObject (h : Steady m) (hopen : m.isOpen = true) :
    Underway [] m (Exchange.ofResult ((Machine.createObject m).1.map .object))
      (Machine.createObject m).2 := by
  let o : Object := .empty .ordinary (some Realm.objectPrototype)
  have hplaceable : Placeable m.pins [] o := .ordinary (by simp [pinned, Realm.anchors])
  obtain ⟨hevolves, hsound, -, hoffers⟩ :=
    Safe.allocate (t := False) hplaceable (h.sound hopen) False.elim rfl (List.forall_mem_nil _)
  let placed := (m.allocate o).2
  have hmade : Underway [] m [] placed := hevolves.underway h hopen hsound
  rcases handOut_cases m.fresh placed with ⟨failure, hout⟩ | hout
  · rw [show Machine.createObject m = (.error failure, placed) from hout]
    exact hmade
  · rw [show Machine.createObject m = (.ok ⟨placed.nextHandle⟩, (placed.issue m.fresh).2) from hout]
    exact hmade.issue (hoffers _ rfl _ (List.mem_cons_self ..))

theorem Steady.getProperty (h : Steady m) (hopen : m.isOpen = true) (target : Handle)
    (key : String) : Underway [] m (Exchange.ofResult (Machine.getProperty target key m).1)
      (Machine.getProperty target key m).2 := by
  refine h.onLive hopen Exchange.ofResult (fun _ ↦ rfl) fun id hid ↦ ?_
  refine h.interpret_handing hopen [id] (.holding (by simp) (.getProperty (by grind) key)) ?_
  simpa using hid

theorem Steady.setProperty (h : Steady m) (hopen : m.isOpen = true) (target : Handle)
    (key : String) (value : Value) :
    Underway [] m [] (Machine.setProperty target key value m).2 := by
  refine h.onLive hopen (fun _ ↦ []) (fun _ ↦ rfl) fun id hid ↦ ?_
  refine h.interpret hopen [id] (.holding (by simp) (.setProperty (by grind) key value)) ?_
  simpa using hid

theorem Steady.setPrivateData (h : Steady m) (hopen : m.isOpen = true) (k : Handle)
    (payload : Payload) : Underway [] m [] (Machine.setPrivateData k payload m).2 := by
  refine h.onLive hopen (fun _ ↦ []) (fun _ ↦ rfl) fun id hid ↦ ?_
  have hattach : Safe False ([.object id] ++ []) [id] (do
      return .ok (← Interp.attachPayload Interp.invoke id payload) : Interp (Except Failure Unit))
      fun _ ↦ [] :=
    (Safe.attachPayload faithful_invoke (by grind) payload).bind fun _ ↦ .ret known_nil
  exact h.interpret hopen [id] (.holding (by simp) hattach) (by simpa using hid)

theorem Steady.attachChild (h : Steady m) (hopen : m.isOpen = true) (owner child : Handle) :
    Underway [] m [] (Machine.attachChild owner child m).2 := by
  unfold Machine.attachChild
  split
  · exact h.underway hopen
  · exact h.underway hopen
  · next ownerId childId howner hchild =>
    have hsound := h.sound hopen
    refine h.interpret hopen [ownerId, childId] (.holding ?_ (.attachTo ?_ _)) ?_
    · simp
    · grind
    · simpa using ⟨hsound.offers_resolveLive howner, hsound.offers_resolveLive hchild⟩

theorem Steady.detachChild (h : Steady m) (hopen : m.isOpen = true) (owner child : Handle) :
    Underway [] m [] (Machine.detachChild owner child m).2 := by
  unfold Machine.detachChild
  split
  · exact h.underway hopen
  · exact h.underway hopen
  · next id hid =>
    refine h.interpret hopen [id] (.holding (by simp) (.detachFrom (by grind) _)) ?_
    simpa using (h.sound hopen).offers_resolve hid

theorem Steady.installClass (h : Steady m) (hopen : m.isOpen = true) (spec : ClassSpec) :
    Underway [.of spec] m [] (Machine.installClass spec m).2 :=
  h.interpret_crafts hopen [] (crafts_makeClass spec) (List.forall_mem_nil _)

/-- The root of a handle changes, and nothing else. -/
theorem Steady.rooting (h : Steady m) (hopen : m.isOpen = true)
    {slots : Std.ExtTreeMap Handle Slot} {exchange : Exchange}
    (hadvances : Advances [] m [exchange] { m with slots })
    (hslots : ∀ k : Handle, (slots[k]?).map Slot.target = (m.slots[k]?).map Slot.target)
    (hoffers : ∀ {k : Handle} {s s₀ : Slot}, slots[k]? = some s → m.slots[k]? = some s₀ →
      s.isRooted = true → s₀.isRooted = true ∨ m.Offers s.target) :
    Underway [] m [exchange] { m with slots } where
  sound := by
    refine (h.sound hopen).withSlots m.nextHandle fun {k s} hs ↦ ?_
    have htarget := hslots k
    rw [hs, Option.map_some, eq_comm, Option.map_eq_some_iff] at htarget
    obtain ⟨s₀, hs₀, htarget⟩ := htarget
    refine ⟨h.slots_lt hs₀, ?_⟩
    cases hrooted : s.isRooted with
    | false => exact .inl ⟨s₀, hs₀, htarget, fun h ↦ by cases h⟩
    | true =>
      exact (hoffers hs hs₀ hrooted).imp (fun hroot ↦ ⟨s₀, hs₀, htarget, fun _ ↦ hroot⟩) id
  pins := h.pins
  isOpen := hopen
  counts := .of_eq rfl rfl
  advances := by
    have hnone : m.trace.map Exchange.notice ++ [exchange] = [exchange] := by rw [h.trace]; rfl
    show Advances [] m (m.trace.map .notice ++ [exchange]) _
    rw [hnone]
    exact hadvances

theorem target_of_resolve (h : m.resolve k = .ok (some id)) :
    ∃ s, m.slots[k]? = some s ∧ s.target = id := by
  unfold Machine.resolve at h
  split at h
  · cases h
  · next s hs =>
    split at h
    · exact ⟨s, hs, by simpa using h⟩
    · simp at h

theorem resolve_of_resolveLive (h : m.resolveLive k = .ok id) : m.resolve k = .ok (some id) := by
  unfold Machine.resolveLive at h
  split at h
  · next hresolve =>
    cases h
    exact hresolve
  · cases h
  · cases h

/-- A known handle is rooted again. -/
theorem target_insert {s : Slot} (hs : m.slots[k]? = some s) (k' : Handle) :
    ((m.slots.insert k ⟨s.target, true⟩)[k']?).map Slot.target =
      (m.slots[k']?).map Slot.target := by
  rw [Std.ExtTreeMap.getElem?_insert]
  split
  · next heq => rw [← Std.compare_eq_iff_eq.mp heq, hs, Option.map_some, Option.map_some]
  · rfl

theorem advances_root {s : Slot} (hs : m.slots[k]? = some s) :
    Advances made m [.rooted k] { m with slots := m.slots.insert k ⟨s.target, true⟩ } := by
  refine advances_rooting rfl (fun _ ↦ rfl) (fun _ ↦ rfl) (target_insert hs)
    fun handles hhandles k' ↦ ?_
  show (∃ x, (m.slots.insert k ⟨s.target, true⟩)[k']? = some ⟨x, true⟩) ↔ k' ∈ handles ++ [k]
  rw [List.mem_append, List.mem_singleton, ← hhandles, Std.ExtTreeMap.getElem?_insert]
  by_cases hk : k' = k
  · simp [hk]
  · simp [hk, Ne.symm hk, IsRooted]

theorem Steady.root (h : Steady m) (hopen : m.isOpen = true) (k : Handle) :
    Underway [] m (Exchange.ofRooting k (Machine.root k m).1) (Machine.root k m).2 := by
  unfold Machine.root
  split
  · exact h.underway hopen
  · next id hid =>
    obtain ⟨s₀, hs₀, rfl⟩ := target_of_resolve (resolve_of_resolveLive hid)
    refine h.rooting hopen (advances_root hs₀) (target_insert hs₀) fun {k' s s'} hs hs' _ ↦ ?_
    rw [Std.ExtTreeMap.getElem?_insert] at hs
    split at hs
    · cases hs
      exact .inr ((h.sound hopen).offers_resolveLive hid)
    · rw [hs] at hs'
      cases hs'
      exact .inl ‹_›

/-- A handle that is not known has no root to be dropped. -/
theorem dropRoot_of_unknown (h : k ∉ m.slots) : m.dropRoot k = m := by
  have hsame : m.slots.modify k ({ · with isRooted := false }) = m.slots := by
    apply Std.ExtTreeMap.ext_getElem?
    intro k'
    rw [Std.ExtTreeMap.getElem?_modify]
    split
    · next heq =>
      rw [← Std.compare_eq_iff_eq.mp heq, Std.ExtTreeMap.getElem?_eq_none h, Option.map_none]
    · rfl
  rw [dropRoot, hsame]

theorem target_dropRoot (k k' : Handle) (m : Machine) :
    ((m.dropRoot k).slots[k']?).map Slot.target = (m.slots[k']?).map Slot.target := by
  rw [dropRoot, Std.ExtTreeMap.getElem?_modify]
  split
  · next heq =>
    rw [Std.compare_eq_iff_eq.mp heq, Option.map_map]
    rfl
  · rfl

theorem advances_dropRoot (m : Machine) (k : Handle) :
    Advances made m [.waived (.root k)] (m.dropRoot k) := by
  refine advances_rooting rfl (fun _ ↦ rfl) (fun _ ↦ rfl) (fun k' ↦ target_dropRoot k k' m)
    fun handles hhandles k' ↦ ?_
  show (∃ x, (m.slots.modify k ({ · with isRooted := false }))[k']? = some ⟨x, true⟩) ↔
    k' ∈ handles.filter (· ≠ k)
  rw [List.mem_filter, ← hhandles, Std.ExtTreeMap.getElem?_modify]
  by_cases hk : k' = k
  · simp [hk]
  · simp [hk, Ne.symm hk, IsRooted]

theorem Steady.dropRoot (h : Steady m) (hopen : m.isOpen = true) (k : Handle) :
    Underway [] m [.waived (.root k)] (Machine.dropRoot k m) := by
  refine h.rooting hopen (advances_dropRoot m k) (fun k' ↦ target_dropRoot k k' m)
    fun {k' s s'} hs hs' hrooted ↦ .inl ?_
  · rw [Std.ExtTreeMap.getElem?_modify] at hs
    split at hs
    · obtain ⟨before, hbefore, rfl⟩ := Option.map_eq_some_iff.mp hs
      cases hrooted
    · rw [hs'] at hs
      cases hs
      exact hrooted

theorem Steady.unroot (h : Steady m) (hopen : m.isOpen = true) (k : Handle) :
    Underway [] m [.waived (.root k)] (Machine.unroot k m).2 := by
  unfold Machine.unroot
  split
  · exact h.dropRoot hopen k
  · next hunknown =>
    have hsame := h.dropRoot hopen k
    rwa [dropRoot_of_unknown (mt Std.ExtTreeMap.contains_iff_mem.mpr hunknown)] at hsame

/-- Where nothing is left to be removed, a request that has done nothing ends at once. -/
theorem conclude_of_settled (hsettled : m.unreferenced [] = []) (htrace : m.trace = [])
    (result : α) : m.conclude result = ⟨result, m, []⟩ := by
  unfold Machine.conclude
  dsimp only
  rw [settle_of_unreferenced hsettled, htrace]
  congr 1
  rw [← htrace]

theorem unreferenced_of_empty (h : m.heap = ∅) : m.unreferenced [] = [] := by
  simp [unreferenced, h]

theorem retire_of_empty (h : m.slots = ∅) (handles : List Handle) : m.retire handles = m := by
  have hnone : handles.foldl (fun slots k ↦ slots.erase k) m.slots = m.slots := by
    rw [h]
    exact List.foldl_fixed' (fun k ↦ Std.ExtTreeMap.erase_empty) handles
  unfold Machine.retire
  rw [hnone]

/-- Native code gives a handle back. -/
theorem Underway.retire (h : Underway made m [] m') (k : Handle) :
    Underway made m [.waived (.handle k)] (m'.retire [k]) where
  sound := by
    refine h.sound.withSlots m'.nextHandle fun {k' s} hs ↦ ?_
    have hs : (m'.retire [k]).slots[k']? = some s := hs
    rw [getElem?_retire] at hs
    split at hs
    · cases hs
    · exact ⟨h.sound.slots_lt hs, .inl ⟨s, hs, rfl, fun h ↦ h⟩⟩
  pins := h.pins
  isOpen := h.isOpen
  counts := h.counts
  advances := by
    have hbefore := h.advances
    rw [List.append_nil] at hbefore
    exact hbefore.trans (advances_retire m' k)

/-- The handle of the global object may be forgotten. -/
theorem Steady.withoutGlobal (h : Steady m) :
    Steady { m with globalHandle := none } ∧ Advances [] m [] { m with globalHandle := none } := by
  refine ⟨{ h with
    sound := fun hopen ↦ ?_
    settled := h.settled.imp_right fun hunused ↦ { hunused with } }, { Advances.refl m with }⟩
  exact (h.sound hopen).withHeld rfl rfl rfl rfl rfl rfl fun hd _ ↦ .inl hd

theorem Steady.forget (h : Steady m) (k : Handle) :
    Steady (Machine.conclude () (m.retire [k])).state ∧
      Advances [] m (((m.retire [k]).conclude ()).events.map .notice ++ [.waived (.handle k)])
        ((m.retire [k]).conclude ()).state := by
  cases hopen : m.isOpen with
  | true => exact ((h.underway hopen).retire k).conclude ()
  | false =>
    obtain ⟨hslots, hheap, -⟩ := h.spent hopen
    have hadvances : Advances [] m [.waived (.handle k)] (m.retire [k]) := advances_retire m k
    rw [retire_of_empty hslots] at hadvances ⊢
    rw [conclude_of_settled (unreferenced_of_empty hheap) h.trace]
    exact ⟨h, hadvances⟩

/-- A machine that is over has no roots to be dropped. -/
theorem Steady.dropRoot_of_closed (h : Steady m) (hclosed : m.isOpen = false) (k : Handle) :
    m.dropRoot k = m :=
  dropRoot_of_unknown (by simp [(h.spent hclosed).1])

/-- The root of a handle is given up, whether or not the machine is over. -/
theorem Steady.whileOpen_unroot (h : Steady m) (k : Handle) :
    Steady (Machine.whileOpen (Machine.unroot k) m).state ∧
      Advances [] m ((Machine.whileOpen (Machine.unroot k) m).events.map .notice ++
        [.waived (.root k)]) (Machine.whileOpen (Machine.unroot k) m).state := by
  refine h.whileOpen (fun _ ↦ [.waived (.root k)]) (fun hclosed ↦ ?_) (h.unroot · k)
  have hadvances : Advances [] m [.waived (.root k)] (m.dropRoot k) := advances_dropRoot m k
  rwa [h.dropRoot_of_closed hclosed] at hadvances

theorem Steady.tearDown (h : Steady m) (k : Handle) :
    Steady (Machine.conclude () (m.dropRoot k)).state ∧
      Advances [] m (((m.dropRoot k).conclude ()).events.map .notice ++ [.waived (.root k)])
        ((m.dropRoot k).conclude ()).state := by
  cases hopen : m.isOpen with
  | true => exact (h.dropRoot hopen k).conclude ()
  | false =>
    obtain ⟨-, hheap, -⟩ := h.spent hopen
    have hadvances : Advances [] m [.waived (.root k)] (m.dropRoot k) := advances_dropRoot m k
    rw [h.dropRoot_of_closed hopen] at hadvances ⊢
    rw [conclude_of_settled (unreferenced_of_empty hheap) h.trace]
    exact ⟨h, hadvances⟩

theorem Steady.release (h : Steady m) (k : Handle) :
    Steady ((m.release k).conclude ()).state ∧
      Advances [] m (((m.release k).conclude ()).events.map .notice ++ [.waived (.handle k)])
        ((m.release k).conclude ()).state := by
  obtain ⟨before, hbefore, hadvances, hrelease⟩ :
      ∃ before, Steady before ∧ Advances [] m [] before ∧
      m.release k = if before.isOpen then before.retire [k] else before := by
    unfold Machine.release
    split
    · obtain ⟨hwithout, hadvances⟩ := h.withoutGlobal
      exact ⟨_, hwithout, hadvances, rfl⟩
    · exact ⟨m, h, .refl m, rfl⟩
  rw [hrelease]
  cases hopen : before.isOpen with
  | true =>
    obtain ⟨hsteady, hforgets⟩ := hbefore.forget k
    exact ⟨hsteady, hadvances.trans hforgets⟩
  | false =>
    obtain ⟨hslots, hheap, -⟩ := hbefore.spent hopen
    have hreturns : Advances [] before [.waived (.handle k)] (before.retire [k]) :=
      advances_retire before k
    rw [retire_of_empty hslots] at hreturns
    rw [if_neg (by simp), conclude_of_settled (unreferenced_of_empty hheap) hbefore.trace]
    exact ⟨hbefore, hadvances.trans hreturns⟩

/-- The pending exception is taken away and described. -/
theorem Steady.diagnosed (h : Steady m) {thrown : Datum} (hpending : m.pending = some thrown) :
    Underway [] m [] ((Interp.diagnose Interp.invoke thrown).run { m with pending := none }).2 := by
  have hopen : m.isOpen = true := h.isOpen_of_pending hpending
  obtain ⟨hevolves, hsound, -, hoffers⟩ :=
    Safe.takePending (t := False) (h.sound hopen) False.elim rfl (List.forall_mem_nil _)
  have hthrown : Safe False m.pins thrown.references (Interp.diagnose Interp.invoke thrown)
      fun _ ↦ [] := .diagnose faithful_invoke known_self
  obtain ⟨hevolves', hsound', -⟩ := hthrown hsound False.elim rfl fun id hid ↦
    hoffers m.pending rfl id (by simp [hpending, hid])
  exact (hevolves.trans hevolves').underway h hopen hsound'

theorem Steady.takePending (h : Steady m) : Steady (Machine.takePending m).state ∧
    Advances [] m ((Machine.takePending m).events.map .notice) (Machine.takePending m).state := by
  unfold Machine.takePending
  split
  · exact ⟨h, .refl m⟩
  · next thrown hpending =>
    have hboth := (h.diagnosed hpending).conclude
      ((Interp.diagnose Interp.invoke thrown).run { m with pending := none }).1
    rwa [List.append_nil] at hboth

theorem Steady.shutdown (h : Steady m) : Steady (Machine.shutdown m).state ∧
    Advances [] m ((Machine.shutdown m).events.map .notice) (Machine.shutdown m).state ∧
      (Machine.shutdown m).state.isOpen = false := by
  unfold Machine.shutdown
  split
  · obtain ⟨htidy, hevolves⟩ := h.toTidy.freeAll m.heap.keys
    have hempty : (m.freeAll m.heap.keys).heap = ∅ := by
      refine Std.ExtTreeMap.eq_empty_iff_forall_not_mem.mpr fun x hx ↦ ?_
      obtain ⟨hnot, hmem⟩ := mem_heap_freeAll.mp hx
      exact hnot (Std.ExtTreeMap.mem_keys.mpr hmem)
    refine ⟨{ htidy with
      slots_lt := fun hs ↦ by simp at hs
      target_lt := fun hs ↦ by simp at hs
      sound := fun hopen ↦ by cases hopen
      spent := fun _ ↦ ⟨rfl, hempty, rfl⟩
      pins := rfl
      trace := rfl
      settled := .inl (unreferenced_of_empty hempty) }, ?_, rfl⟩
    have htrace : (m.freeAll m.heap.keys).trace = m.trace ++ (m.freeAll m.heap.keys).trace := by
      rw [h.trace, List.nil_append]
    have hadvances := hevolves.advances htrace
    exact { hadvances with
      isOpen := fun hopen ↦ by cases hopen
      targets := fun hs _ ↦ by simp at hs
      owed := fun hopen ↦ by cases hopen
      rooted := fun hopen ↦ by cases hopen }
  · next hclosed => exact ⟨h, .refl m, by simpa using hclosed⟩

/-! ## Updates and reports -/

theorem isOpen_conclude (m : Machine) (result : α) :
    (m.conclude result).state.isOpen = m.isOpen :=
  isOpen_settle [] m

theorem nextHandle_conclude (m : Machine) (result : α) :
    (m.conclude result).state.nextHandle = m.nextHandle :=
  nextHandle_settle [] m

theorem slots_conclude (m : Machine) (result : α) : (m.conclude result).state.slots = m.slots :=
  slots_settle [] m

/-- Native code may do at an update what it likes. -/
theorem Steady.updated (h : Steady m) (hupdated : Updated m notices waived m') :
    Steady m' ∧ Advances [] m (notices.map .notice ++ waived.map .waived) m' ∧
      m'.isOpen = m.isOpen := by
  induction hupdated with
  | rest => exact ⟨h, .refl m, rfl⟩
  | @queryDead m' notices waived _ k ih =>
    show Steady m' ∧ Advances [] m ((notices ++ []).map .notice ++ _) m' ∧ _
    rw [List.append_nil]
    exact ih
  | @tearDown m' notices waived _ k ih =>
    obtain ⟨hsteady, hadvances, hopen⟩ := ih
    obtain ⟨hafter, htears⟩ := hsteady.tearDown k
    rw [show (waived ++ [Waiver.root k]).map Exchange.waived = waived.map .waived ++ _ from
      List.map_append]
    exact ⟨hafter, hadvances.merge htears, (isOpen_conclude _ ()).trans hopen⟩
  | @forget m' notices waived _ k ih =>
    obtain ⟨hsteady, hadvances, hopen⟩ := ih
    obtain ⟨hafter, hforgets⟩ := hsteady.forget k
    rw [show (waived ++ [Waiver.handle k]).map Exchange.waived = waived.map .waived ++ _ from
      List.map_append]
    exact ⟨hafter, hadvances.merge hforgets, (isOpen_conclude _ ()).trans hopen⟩

/-- An update after something has passed. -/
theorem Steady.updated_after {before : List Notice} (h : Steady m')
    (hbefore : Advances [] m (before.map .notice ++ extra) m')
    (hupdated : Updated m' notices waived m'') :
    Steady m'' ∧
      Advances [] m ((before ++ notices).map .notice ++ (extra ++ waived.map .waived)) m'' ∧
      m''.isOpen = m'.isOpen := by
  obtain ⟨hsteady, hadvances, hopen⟩ := h.updated hupdated
  exact ⟨hsteady, hbefore.merge hadvances, hopen⟩

theorem Steady.collect (h : Steady m)
    (hcarried : Carried (Machine.collect m) notices waived () m') :
    Steady m' ∧ Advances [] m (notices.map .notice ++ waived.map .waived) m' := by
  unfold Machine.collect at hcarried
  split at hcarried
  · next hopen =>
    obtain ⟨hsound, hevolves⟩ := (h.sound hopen).sweep
    -- The requests that were counted before do not matter.
    have hswept : Underway [] { m with requests := 0 } [] { m.sweep with requests := 0 } :=
      { hevolves.underway h hopen hsound with
        sound := hsound.withHeld rfl rfl rfl rfl rfl rfl fun hd _ ↦ .inl hd
        counts := .of_eq (forced_sweep m) rfl
        advances := { (hevolves.underway h hopen hsound).advances with } }
    obtain ⟨hsteady, hadvances⟩ := hswept.conclude ()
    obtain ⟨⟩ | ⟨-, hcycle⟩ | ⟨⟩ | ⟨⟩ := hcarried
    obtain ⟨hafter, hall, -⟩ := hsteady.updated_after { hadvances with } hcycle.of_cycle.2
    exact ⟨hafter, { hall with }⟩
  · obtain ⟨⟩ | ⟨⟩ | ⟨⟩ | ⟨⟩ := hcarried
    exact ⟨h, .refl m⟩

theorem Steady.interpretSource (h : Steady m) (hopen : m.isOpen = true) (source : Source)
    (file : String) :
    Underway [] m (Exchange.ofResult (Machine.interpret (Machine.runSource source file) m).1)
      { (Machine.interpret (Machine.runSource source file) m).2 with retained := .undefined } := by
  have hran := h.interpret_handing hopen [] (.runSource source file) (List.forall_mem_nil _)
  refine { hran with sound := ?_, advances := { hran.advances with } }
  refine hran.sound.withHeld rfl rfl rfl rfl rfl rfl fun {d id} hd hid ↦ ?_
  rcases mem_held.mp hd with rfl | hd | hd | hd
  · cases hid
  · exact .inl (mem_held.mpr (.inr (.inl hd)))
  · exact .inl (mem_held.mpr (.inr (.inr (.inl hd))))
  · exact .inl (mem_held.mpr (.inr (.inr (.inr hd))))

/-- What a source does before collections are reported. -/
theorem Steady.run (h : Steady m) (hopen : m.isOpen = true) (source : Source) (file : String) :
    Steady (Machine.run source file m).state ∧
      Advances [] m ((Machine.run source file m).events.map .notice ++
        Exchange.ofResult (Machine.run source file m).result) (Machine.run source file m).state ∧
      (Machine.run source file m).state.isOpen = true := by
  have hran := h.interpretSource hopen source file
  obtain ⟨hsteady, hadvances⟩ :=
    hran.conclude (Machine.interpret (Machine.runSource source file) m).1
  exact ⟨hsteady, hadvances, (isOpen_conclude _ _).trans hran.isOpen⟩

/-- An open machine runs its source. The collections that scripts have asked for by then are
reported in one update. -/
theorem of_carried_evaluate {source : Source} {file : String} {result : Except Failure Value}
    (hopen : m.isOpen = true) (hdefect : defect? source file = none)
    (h : Carried (Machine.evaluate source file m) notices waived result m') :
    let o := Machine.run source file m
    result = o.result ∧ (notices = o.events ∧ waived = [] ∧ m' = o.state ∨
      ∃ more, notices = o.events ++ more ∧
        Updated { o.state with requests := 0 } more waived m') := by
  rw [evaluate_eq_run hopen hdefect] at h
  obtain ⟨⟩ | ⟨-, hreport⟩ | ⟨⟩ | ⟨⟩ := h
  unfold Machine.reportRequests at hreport
  split at hreport
  · obtain ⟨⟩ | ⟨⟩ | ⟨⟩ | ⟨⟩ := hreport
    exact ⟨rfl, .inl ⟨List.append_nil _, rfl, rfl⟩⟩
  · obtain ⟨rfl, hupdated⟩ := hreport.of_cycle
    exact ⟨rfl, .inr ⟨_, rfl, hupdated⟩⟩

theorem Steady.evaluate (h : Steady m) {source : Source} {file : String}
    {result : Except Failure Value}
    (hcarried : Carried (Machine.evaluate source file m) notices waived result m') :
    Steady m' ∧
      Advances [] m (notices.map .notice ++ Exchange.ofResult result ++ waived.map .waived) m' ∧
      m'.isOpen = m.isOpen := by
  by_cases hruns : m.isOpen = true ∧ defect? source file = none
  · obtain ⟨hopen, hdefect⟩ := hruns
    obtain ⟨hsteady, hadvances, hstays⟩ := h.run hopen source file
    rw [hopen]
    obtain ⟨rfl, ⟨rfl, rfl, rfl⟩ | ⟨more, rfl, hupdated⟩⟩ :=
      of_carried_evaluate hopen hdefect hcarried
    · rw [List.map_nil, List.append_nil]
      exact ⟨hsteady, hadvances, hstays⟩
    · have hreported : Steady { (Machine.run source file m).state with requests := 0 } :=
        { hsteady with
          sound := fun hopen ↦
            (hsteady.sound hopen).withHeld rfl rfl rfl rfl rfl rfl fun hd _ ↦ .inl hd
          settled := hsteady.settled.imp_right fun hunused ↦ { hunused with } }
      obtain ⟨hafter, hall, hsame⟩ := hreported.updated_after { hadvances with } hupdated
      rw [List.append_assoc]
      exact ⟨hafter, hall, hsame.trans hstays⟩
  · obtain ⟨failure, hdone⟩ := evaluate_eq_done hruns
    rw [hdone] at hcarried
    obtain ⟨⟩ | ⟨⟩ | ⟨⟩ | ⟨⟩ := hcarried
    exact ⟨h, .refl m, rfl⟩

/-! ## All requests -/

/-- Whatever native code asks for, a steady machine comes to a steady machine. Constructors are made
only by an installation, for the class that is installed. -/
theorem Steady.dealing (h : Steady m) (hdealing : Dealing m exchanges m') :
    Steady m' ∧ ∃ made, Advances made m exchanges m' ∧
      (made = [] ∨ ∃ spec, made = [.of spec] ∧ m' = (Backend.installClass spec m).state) := by
  suffices hplain : (Steady m' ∧ Advances [] m exchanges m') ∨
      ∃ spec, (Steady m' ∧ Advances [.of spec] m exchanges m') ∧
        m' = (Backend.installClass spec m).state by
    obtain ⟨hsteady, hadvances⟩ | ⟨spec, ⟨hsteady, hadvances⟩, hstate⟩ := hplain
    · exact ⟨hsteady, [], hadvances, .inl rfl⟩
    · exact ⟨hsteady, _, hadvances, .inr ⟨spec, rfl, hstate⟩⟩
  cases hdealing with
  | installClass spec => exact .inr ⟨spec, h.whileOpen_plain (h.installClass · spec), rfl⟩
  | evaluate source file hcarried =>
    obtain ⟨hsteady, hadvances, -⟩ := h.evaluate hcarried
    exact .inl ⟨hsteady, hadvances⟩
  | collect hcarried => exact .inl (h.collect hcarried)
  | takePending => exact .inl h.takePending
  | globalObject => exact .inl ⟨h, .refl m⟩
  | createObject =>
    exact .inl (h.whileOpen (fun r ↦ Exchange.ofResult (r.map .object)) (fun _ ↦ .refl m)
      h.createObject)
  | getProperty target key =>
    exact .inl (h.whileOpen Exchange.ofResult (fun _ ↦ .refl m) (h.getProperty · target key))
  | setProperty target key value =>
    exact .inl (h.whileOpen_plain (h.setProperty · target key value))
  | root k => exact .inl (h.whileOpen (Exchange.ofRooting k) (fun _ ↦ .refl m) (h.root · k))
  | unroot k => exact .inl (h.whileOpen_unroot k)
  | release k => exact .inl (h.release k)
  | attachChild owner child => exact .inl (h.whileOpen_plain (h.attachChild · owner child))
  | detachChild owner child => exact .inl (h.whileOpen_plain (h.detachChild · owner child))
  | setPrivateData k payload => exact .inl (h.whileOpen_plain (h.setPrivateData · k payload))
  | shutdown =>
    obtain ⟨hsteady, hadvances, -⟩ := h.shutdown
    exact .inl ⟨hsteady, hadvances⟩

/-- However long native code uses a machine, it stays steady. -/
theorem Steady.dealings (h : Steady m) (hdealings : Dealings m exchanges m') :
    Steady m' ∧ ∃ made, Advances made m exchanges m' := by
  induction hdealings with
  | refl => exact ⟨h, [], .refl m⟩
  | tail _ hlast ih =>
    obtain ⟨hsteady, made, hadvances⟩ := ih
    obtain ⟨hafter, more, hadvances', -⟩ := hsteady.dealing hlast
    exact ⟨hafter, made ++ more,
      (hadvances.of_subset (List.subset_append_left ..)).trans
        (hadvances'.of_subset (List.subset_append_right ..))⟩

theorem steady_machine (isStrict : Bool) : Steady (Realm.machine isStrict) where
  toTidy := (sound_machine isStrict).toTidy
  sound _ := sound_machine isStrict
  spent hclosed := by cases hclosed
  pins := rfl
  trace := rfl
  settled := .inr ⟨rfl, by simp [Realm.machine], rfl⟩

end ScriptBridge.Script.Machine
