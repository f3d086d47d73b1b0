import ScriptBridge.Proofs.Script.Keepers

/-!
# To whom children belong

What a request attaches or detaches, and what a collection leaves, is told by what the objects keep
at its end. A child belongs to its owner alone exactly if the owner is its own keeper: otherwise the
children of an owner and those of one of its prototypes hang on one holder.
-/

namespace ScriptBridge.Script.Machine

open Backend

variable {α : Type} {m m' : Machine} {k child : Handle} {owner x y : ObjectId} {p : Property}

theorem Trimmed.keeps {kept : ObjectId → Handle → Option ObjectId} (h : Trimmed m m')
    (hm : Tended m) (hkept : m.kept? = kept) : Keeps m' kept where
  tended := h.tended hm
  kept?_eq x hx child := by rw [h.kept?_eq hm hx, hkept]
  there _ _ _ hy := h.mem_of_kept? hm hy

/-- Whatever was removed, the machine is closed. -/
theorem Steady.trimmed (h : Steady m') (hopen : m'.isOpen = true)
    (hleft : ∀ {x : ObjectId} {o : Object}, m'.heap[x]? = some o → m.heap[x]? = some o) :
    Trimmed m m' where
  left := hleft
  closed := (h.sound hopen).references
  there := by
    refine ((h.sound hopen).roots (mem_roots.mpr (.inl ?_))).1
    rw [(h.sound hopen).anchors]
    simp [Realm.anchors]

theorem Tended.attached (h : Tended m) (ht : Tidy m) (howner : m.resolveLive k = .ok owner)
    (hmem : owner ∈ m.heap) (hchild : m.resolveLive child = .ok y) :
    (m.Adopts owner ∧ ∃ m', Machine.attachChild k child m = (.ok (), m') ∧
      Tended m' ∧ m'.kept? = m.relinked (m.keeper owner) child (some y)) ∨
    (¬ m.Adopts owner ∧ ∃ m', Machine.attachChild k child m = (.error .exceptionPending, m') ∧
      Tended m' ∧ m'.kept? = m.kept?) := by
  let pinned : Machine := { m with pins := [.object owner, .object y] ++ m.pins }
  have hpinned : Tended pinned := h.congr rfl
  have hheap : pinned.heap = m.heap := rfl
  have hfind := find?_congr hheap owner childrenKey
  have hadopts : pinned.Adopts owner ↔ m.Adopts owner := by
    rw [Adopts, hfind]
    rfl
  have hkeeper : pinned.keeper owner = m.keeper owner := by rw [keeper, hfind, keeper]
  have hrun {result : Option (Except Failure Unit)} {m' : Machine}
      (hattach : (attachTo owner (childKey child) y).run pinned = (result, m')) :
      Machine.attachChild k child m =
        (result.getD (.error .exceptionPending), { m' with pins := m.pins }) := by
    unfold Machine.attachChild
    rw [howner, hchild]
    dsimp only
    unfold interpret
    rw [run_holding_of hattach rfl]
    cases result <;> rfl
  rcases hpinned.attaches { ht with } hmem child y with
    ⟨hyes, m', hattach, htended, hkept⟩ | ⟨hno, m', hattach, htended, hkept⟩
  · refine .inl ⟨hadopts.mp hyes, _, hrun hattach, htended.congr rfl, ?_⟩
    rw [hkeeper] at hkept
    exact hkept
  · exact .inr ⟨fun hyes ↦ hno (hadopts.mpr hyes), _, hrun hattach, htended.congr rfl, hkept⟩

theorem Tended.detached (h : Tended m) (howner : m.resolve k = .ok (some owner))
    (hmem : owner ∈ m.heap) (child : Handle) :
    ∃ m', Machine.detachChild k child m = (.ok (), m') ∧
      Tended m' ∧ m'.kept? = m.relinked (m.keeper owner) child none := by
  let pinned : Machine := { m with pins := [.object owner] ++ m.pins }
  have hpinned : Tended pinned := h.congr rfl
  have hheap : pinned.heap = m.heap := rfl
  have hfind := find?_congr hheap owner childrenKey
  have hkeeper : pinned.keeper owner = m.keeper owner := by rw [keeper, hfind, keeper]
  obtain ⟨m', hdetach, htended, hkept⟩ := hpinned.detaches hmem child
  refine ⟨{ m' with pins := m.pins }, ?_, htended.congr rfl, ?_⟩
  · unfold Machine.detachChild
    rw [howner]
    dsimp only
    unfold interpret
    rw [run_holding_of hdetach rfl]
  · rw [hkeeper] at hkept
    exact hkept

theorem of_getElem?_heap_conclude {m : Machine} (result : α) {x : ObjectId} {o : Object}
    (h : (m.conclude result).state.heap[x]? = some o) : m.heap[x]? = some o :=
  of_getElem?_heap_settle h

theorem trimmed_conclude {result : α} (h : Steady (m.conclude result).state)
    (hopen : m.isOpen = true) : Trimmed m (m.conclude result).state :=
  h.trimmed ((isOpen_conclude m result).trans hopen) (of_getElem?_heap_conclude result)

/-- While native code looks at its references, objects are only removed. -/
theorem of_updated {notices : List Notice} {waived : List Waiver}
    (h : Updated m notices waived m') : m'.isOpen = m.isOpen ∧
      ∀ {x : ObjectId} {o : Object}, m'.heap[x]? = some o → m.heap[x]? = some o := by
  induction h with
  | rest => exact ⟨rfl, fun ho ↦ ho⟩
  | queryDead _ _ ih => exact ih
  | @tearDown m' _ _ _ handle ih =>
    exact ⟨(isOpen_conclude (m'.dropRoot handle) ()).trans ih.1,
      fun ho ↦ ih.2 (of_getElem?_heap_conclude (m := m'.dropRoot handle) () ho)⟩
  | @forget m' _ _ _ handle ih =>
    exact ⟨(isOpen_conclude (m'.retire [handle]) ()).trans ih.1,
      fun ho ↦ ih.2 (of_getElem?_heap_conclude (m := m'.retire [handle]) () ho)⟩

theorem Steady.trimmed_collect {notices : List Notice} {waived : List Waiver} (h : Steady m)
    (hopen : m.isOpen = true) (hcollect : Carried (Backend.collect m) notices waived () m') :
    Trimmed m m' := by
  obtain ⟨hsteady, -⟩ := h.dealing (.collect hcollect)
  have hcarried : Carried (Machine.collect m) notices waived () m' := hcollect
  unfold Machine.collect at hcarried
  rw [if_pos hopen] at hcarried
  obtain ⟨⟩ | ⟨-, hcycle⟩ | ⟨⟩ | ⟨⟩ := hcarried
  obtain ⟨hsame, hleft⟩ := of_updated hcycle.of_cycle.2
  have hswept : ({ m.sweep with requests := 0 } : Machine).isOpen = true := by
    show m.sweep.isOpen = true
    rw [sweep_eq, freeAll_eq]
    exact hopen
  refine hsteady.trimmed (hsame.trans ((isOpen_conclude _ _).trans hswept)) fun ho ↦ ?_
  have hstays := of_getElem?_heap_conclude () (hleft ho)
  change m.sweep.heap[_]? = some _ at hstays
  rw [sweep_eq] at hstays
  exact (of_getElem?_heap_freeAll hstays).2

theorem attachChild_eq (hopen : m.isOpen = true) (k child : Handle) :
    Backend.attachChild k child m =
      (Machine.attachChild k child m).2.conclude (Machine.attachChild k child m).1 :=
  whileOpen_of_isOpen hopen (Machine.attachChild k child)

theorem detachChild_eq (hopen : m.isOpen = true) (k child : Handle) :
    Backend.detachChild k child m =
      (Machine.detachChild k child m).2.conclude (Machine.detachChild k child m).1 :=
  whileOpen_of_isOpen hopen (Machine.detachChild k child)

/-- An attached child hangs on the keeper of its owner. -/
theorem Steady.keeps_attachChild (h : Steady m) (hopen : m.isOpen = true) (htended : Tended m)
    (howner : m.resolveLive k = .ok owner) (hchild : m.resolveLive child = .ok y) :
    let done := Backend.attachChild k child m
    (done.result = .ok () ↔ m.Adopts owner) ∧
      (done.result = .ok () → Keeps done.state (m.relinked (m.keeper owner) child (some y))) ∧
      (done.result ≠ .ok () → Keeps done.state m.kept?) := by
  intro done
  have hmem : owner ∈ m.heap := ((h.sound hopen).offers_resolveLive howner).1
  have hsteady : Steady done.state := (h.dealing (.attachChild k child m)).1
  have hstays := (h.attachChild hopen k child).isOpen
  have hdone : done = _ := attachChild_eq hopen k child
  rw [hdone] at hsteady ⊢
  rcases htended.attached h.toTidy howner hmem hchild with
    ⟨hadopts, m', hrun, hafter, hkept⟩ | ⟨hrefuses, m', hrun, hafter, hkept⟩
  · rw [hrun] at hsteady hstays ⊢
    have hkeeps := (trimmed_conclude hsteady hstays).keeps hafter hkept
    exact ⟨⟨fun _ ↦ hadopts, fun _ ↦ rfl⟩, fun _ ↦ hkeeps, fun hno ↦ absurd rfl hno⟩
  · rw [hrun] at hsteady hstays ⊢
    have hkeeps := (trimmed_conclude hsteady hstays).keeps hafter hkept
    exact ⟨⟨nofun, fun hadopts ↦ absurd hadopts hrefuses⟩, nofun, fun _ ↦ hkeeps⟩

/-- A detached child no longer hangs on the keeper of its owner. -/
theorem Steady.keeps_detachChild (h : Steady m) (hopen : m.isOpen = true) (htended : Tended m)
    (howner : m.resolveLive k = .ok owner) (child : Handle) :
    let done := Backend.detachChild k child m
    done.result = .ok () ∧ Keeps done.state (m.relinked (m.keeper owner) child none) := by
  intro done
  have hmem : owner ∈ m.heap := ((h.sound hopen).offers_resolveLive howner).1
  have hsteady : Steady done.state := (h.dealing (.detachChild k child m)).1
  have hstays := (h.detachChild hopen k child).isOpen
  have hdone : done = _ := detachChild_eq hopen k child
  obtain ⟨m', hrun, hafter, hkept⟩ :=
    htended.detached (resolve_of_resolveLive howner) hmem child
  rw [hdone, hrun] at hsteady ⊢
  rw [hrun] at hstays
  exact ⟨rfl, (trimmed_conclude hsteady hstays).keeps hafter hkept⟩

/-- An attached child hangs on its owner exactly if the owner is its own keeper. -/
theorem Keeps.attached_iff (h : Keeps m' (m.relinked (m.keeper owner) child (some y)))
    (hmem : owner ∈ m.heap) (hthere : owner ∈ m'.heap) :
    Keeps m' (m.relinked owner child (some y)) ↔ m.keeper owner = owner := by
  refine ⟨fun hlaw ↦ ?_, fun heq ↦ by rwa [heq] at h⟩
  by_contra hne
  have hclaimed := hlaw.kept?_eq owner hthere child
  rw [h.kept?_eq owner hthere child, relinked_self, relinked_of_ne (Ne.symm hne),
    kept?_of_keeper_ne hmem hne] at hclaimed
  cases hclaimed

/-- A child is detached from its owner alone exactly if the owner is its own keeper or the keeper
has no such child. -/
theorem Keeps.detached_iff (h : Keeps m' (m.relinked (m.keeper owner) child none))
    (hmem : owner ∈ m.heap) (hthere : m.keeper owner ∈ m'.heap) :
    Keeps m' (m.relinked owner child none) ↔
      m.keeper owner = owner ∨ m.kept? (m.keeper owner) child = none := by
  refine ⟨fun hlaw ↦ ?_, fun heither ↦ ?_⟩
  · by_contra hneither
    obtain ⟨hne, hsome⟩ := not_or.mp hneither
    have hclaimed := hlaw.kept?_eq _ hthere child
    rw [h.kept?_eq _ hthere child, relinked_self, relinked_of_ne hne] at hclaimed
    exact hsome hclaimed.symm
  · by_cases heq : m.keeper owner = owner
    · rwa [heq] at h
    · rw [relinked_none (heither.resolve_left heq)] at h
      rwa [relinked_none (kept?_of_keeper_ne hmem heq child)]

/-- The children of an owner hang on its keeper, so that attaching and detaching concern the owner
alone exactly if it is its own keeper. Collections leave all children of what is left. -/
theorem child_hangs_on_keeper (h : Steady m) (hopen : m.isOpen = true) (htended : Tended m)
    (howner : m.resolveLive k = .ok owner) (child : Handle) :
    (∀ y, m.resolveLive child = .ok y →
      let done := Backend.attachChild k child m
      (done.result = .ok () ↔ m.Adopts owner) ∧
        (done.result ≠ .ok () → Keeps done.state m.kept?) ∧
        (done.result = .ok () → Keeps done.state (m.relinked (m.keeper owner) child (some y)) ∧
          (owner ∈ done.state.heap →
            (Keeps done.state (m.relinked owner child (some y)) ↔ m.keeper owner = owner)))) ∧
    (let done := Backend.detachChild k child m
     done.result = .ok () ∧ Keeps done.state (m.relinked (m.keeper owner) child none) ∧
       (m.keeper owner ∈ done.state.heap →
         (Keeps done.state (m.relinked owner child none) ↔
           m.keeper owner = owner ∨ m.kept? (m.keeper owner) child = none))) ∧
    ∀ notices waived m', Carried (Backend.collect m) notices waived () m' →
      Keeps m' m.kept? := by
  have hmem : owner ∈ m.heap := ((h.sound hopen).offers_resolveLive howner).1
  refine ⟨fun y hchild ↦ ?_, ?_, fun notices waived m' hcollect ↦ ?_⟩
  · obtain ⟨hadopts, hattached, hrefused⟩ := h.keeps_attachChild hopen htended howner hchild
    exact ⟨hadopts, hrefused, fun hok ↦ ⟨hattached hok, (hattached hok).attached_iff hmem⟩⟩
  · obtain ⟨hok, hdetached⟩ := h.keeps_detachChild hopen htended howner child
    exact ⟨hok, hdetached, hdetached.detached_iff hmem⟩
  · exact (h.trimmed_collect hopen hcollect).keeps htended rfl

/-! ## Fresh machines -/

theorem own?_childrenKey_of_mem {o : Object} (h : o ∈ Realm.objects) :
    o.own? childrenKey = none := by
  have hall : ∀ o ∈ Realm.objects, o.own? childrenKey = none := by decide +kernel
  exact hall o h

theorem own?_childrenKey_machine (isStrict : Bool) (x : ObjectId) :
    ((Realm.machine isStrict).object x).own? childrenKey = none := by
  rw [object, Realm.getElem?_heap]
  cases ho : Realm.objects[x.index]? with
  | none => rfl
  | some o => exact own?_childrenKey_of_mem (List.mem_of_getElem? ho)

/-- In a fresh machine nobody has a holder. -/
theorem tended_machine (isStrict : Bool) : Tended (Realm.machine isStrict) where
  holder hp := by
    rw [own?_childrenKey_machine] at hp
    cases hp
  sole hx := by
    rw [Object.holder?, own?_childrenKey_machine] at hx
    cases hx
  there := Realm.mem_heap.mpr (Realm.mem_places_of_anchor (by simp [Realm.anchors]))
  root := rfl
  bare child := by
    have hheads : ∀ o ∈ Realm.objects[Realm.objectPrototype.index]?, ∀ entry ∈ o.properties,
        entry.1.toList.head? ≠ some 'h' := by decide +kernel
    rw [object, Realm.getElem?_heap]
    cases ho : Realm.objects[Realm.objectPrototype.index]? with
    | none => rfl
    | some o =>
      cases hown : o.own? (childKey child) with
      | none => exact hown
      | some p => exact absurd (by simp [childKey]) (hheads o ho _ (Object.mem_of_own? hown))

theorem Undisturbed.createObject (h : Tidy m) : Undisturbed m (Machine.createObject m).2 :=
  (Undisturbed.placed (o := .empty .ordinary (some Realm.objectPrototype)) h.fresh_notMem rfl).trans
    (.of_heap (heap_handOut _ _))

/-- With a new object, holders are as they were. -/
theorem Steady.tended_createObject (h : Steady m) (hopen : m.isOpen = true) (htended : Tended m) :
    Tended (Backend.createObject m).state ∧ ∀ {x p},
      ((Backend.createObject m).state.object x).own? childrenKey = some p →
        (m.object x).own? childrenKey = some p := by
  have hsteady : Steady (Backend.createObject m).state := (h.dealing (.createObject m)).1
  have hrequest : Backend.createObject m = _ := whileOpen_of_isOpen hopen Machine.createObject
  have hundisturbed : Undisturbed m (Machine.createObject m).2 := .createObject h.toTidy
  rw [hrequest] at hsteady ⊢
  have htrimmed := trimmed_conclude hsteady (h.createObject hopen).isOpen
  refine ⟨htrimmed.tended (hundisturbed.tended htended), fun {x p} hp ↦ ?_⟩
  rw [← hundisturbed.own?_eq, ← hp]
  by_cases hx : x ∈ ((Machine.createObject m).2.conclude (Machine.createObject m).1).state.heap
  · rw [htrimmed.object_eq hx]
  · rw [object_of_notMem hx] at hp
    cases hp

/-- A new object has what is attached to it. -/
theorem child_hangs_on_keeper_created :
    let m := (Backend.createObject (Realm.machine false)).state
    let owner := (Realm.machine false).fresh
    Steady m ∧ m.isOpen = true ∧ Tended m ∧ m.resolveLive ⟨1⟩ = .ok owner ∧
      m.resolveLive ⟨0⟩ = .ok Realm.globalObject ∧
      (Backend.attachChild ⟨1⟩ ⟨0⟩ m).result = .ok () ∧
      Keeps (Backend.attachChild ⟨1⟩ ⟨0⟩ m).state
        (m.relinked owner ⟨0⟩ (some Realm.globalObject)) := by
  intro m owner
  have hfresh : Steady (Realm.machine false) := steady_machine false
  have hsteady : Steady m := (hfresh.dealing (.createObject _)).1
  have hholds : m.Holds ⟨1⟩ owner (.empty .ordinary (some Realm.objectPrototype)) :=
    (hfresh.holds_createObject rfl (by decide)).1
  have hopen : m.isOpen = true := hholds.isOpen hsteady
  obtain ⟨htended, hbare⟩ := hfresh.tended_createObject rfl (tended_machine false)
  have hnone (x : ObjectId) : (m.object x).own? childrenKey = none := by
    by_contra hsome
    obtain ⟨p, hp⟩ := Option.ne_none_iff_exists'.mp hsome
    have hbefore := hbare hp
    rw [own?_childrenKey_machine] at hbefore
    cases hbefore
  have hobject : m.object owner = .empty .ordinary (some Realm.objectPrototype) :=
    object_of_getElem? hholds.object
  have hkeeper : m.keeper owner = owner := by
    refine keeper_of_find?_none ?_
    rw [htended.find?_eq (mem_heap_of_getElem? hholds.object) (by rw [hobject]; rfl) (hnone _),
      hnone]
    rfl
  have hglobal : m.Holds ⟨0⟩ Realm.globalObject Realm.globalThis :=
    (hfresh.createObject rfl).holds ⟨rfl, rfl⟩ _
  obtain ⟨hattach, -, -⟩ := child_hangs_on_keeper hsteady hopen htended hholds.resolveLive ⟨0⟩
  obtain ⟨hadopts, -, hattached⟩ := hattach Realm.globalObject hglobal.resolveLive
  have hok := hadopts.mpr (.inr (by rw [hobject]; rfl))
  refine ⟨hsteady, hopen, htended, hholds.resolveLive, hglobal.resolveLive, hok, ?_⟩
  have hkeeps := (hattached hok).1
  rwa [hkeeper] at hkeeps

/-- What is kept in the end was kept before. -/
theorem kept?_of_left {z : ObjectId}
    (hleft : ∀ {x : ObjectId} {o : Object}, m'.heap[x]? = some o → m.heap[x]? = some o)
    (h : m'.kept? x child = some z) : m.kept? x child = some z := by
  have hsame {x : ObjectId} (hx : x ∈ m'.heap) : m'.object x = m.object x :=
    (object_of_getElem? (hleft (getElem?_of_mem hx))).symm
  obtain ⟨holder, hholder, hentry⟩ := Option.bind_eq_some_iff.mp h
  have hx : x ∈ m'.heap := by
    by_contra hnot
    rw [object_of_notMem hnot] at hholder
    cases hholder
  have hmem : holder ∈ m'.heap := by
    by_contra hnot
    rw [object_of_notMem hnot] at hentry
    cases hentry
  rw [hsame hx] at hholder
  rw [hsame hmem] at hentry
  rw [kept?, hholder, Option.bind_some, hentry]

theorem kept?_conclude {result : α} (h : m.kept? x child = none) :
    (m.conclude result).state.kept? x child = none := by
  by_contra hsome
  obtain ⟨z, hz⟩ := Option.ne_none_iff_exists'.mp hsome
  rw [kept?_of_left (of_getElem?_heap_conclude result) hz] at h
  cases h

/-- A machine with three new objects, each with a handle. The first of them is the prototype of the
second. -/
def lineage : Machine :=
  let (ancestor, m) :=
    (Realm.machine false).allocate (.empty .ordinary (some Realm.objectPrototype))
  let (heir, m) := m.allocate (.empty .ordinary (some ancestor))
  let (child, m) := m.allocate (.empty .ordinary (some Realm.objectPrototype))
  (((m.issue ancestor).2.issue heir).2.issue child).2

set_option maxRecDepth 10000 in
/-- If the prototype of an owner has a holder, what is attached to the owner hangs there, and what
is detached from it is lost to the prototype. -/
theorem heir_uses_holder_of_ancestor :
    let ancestor : ObjectId := ⟨Realm.size⟩
    let heir : ObjectId := ⟨Realm.size + 1⟩
    let m := (Machine.attachChild ⟨1⟩ ⟨3⟩ lineage).2
    (Machine.attachChild ⟨1⟩ ⟨3⟩ lineage).1 = .ok () ∧
      m.resolveLive ⟨1⟩ = .ok ancestor ∧ m.resolveLive ⟨2⟩ = .ok heir ∧
      (Backend.attachChild ⟨2⟩ ⟨3⟩ m).result = .ok () ∧
      (Backend.attachChild ⟨2⟩ ⟨3⟩ m).state.kept? heir ⟨3⟩ = none ∧
      m.kept? ancestor ⟨3⟩ = some ⟨Realm.size + 2⟩ ∧
      (Backend.detachChild ⟨2⟩ ⟨3⟩ m).result = .ok () ∧
      (Backend.detachChild ⟨2⟩ ⟨3⟩ m).state.kept? ancestor ⟨3⟩ = none := by
  intro ancestor heir m
  have hopen : m.isOpen = true := rfl
  rw [attachChild_eq hopen, detachChild_eq hopen]
  exact ⟨rfl, rfl, rfl, rfl, kept?_conclude rfl, rfl, rfl, kept?_conclude rfl⟩

end ScriptBridge.Script.Machine
