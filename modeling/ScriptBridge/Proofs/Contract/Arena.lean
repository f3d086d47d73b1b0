import ScriptBridge.Proofs.Contract.Contract

/-!
# An arena

An arena is a script heap without scripts, as small as a backend can be that honours its contract.
An object is known by the handle that it got when it was made, and never gets another one. Objects
are there until a full collection, which marks what it can reach in rounds. No marking needs more
rounds than there are children, since every round but the last reaches one for the first time.
-/

namespace ScriptBridge

/-- A script heap without scripts. -/
structure Arena where
  /-- How many handles were given out. -/
  issued : Nat
  held : List Handle
  rooted : List Handle
  present : List Handle
  /-- Owners and their children. -/
  edges : List (Handle × Handle)

namespace Arena

/-! ## Marking -/

/-- Adds the children of what is marked, in so many rounds. -/
def mark (edges : List (Handle × Handle)) : Nat → List Handle → List Handle
  | 0, marked => marked
  | rounds + 1, marked =>
    mark edges rounds (marked ++ (edges.filter fun edge ↦ edge.1 ∈ marked).map Prod.snd)

section Marking

variable {edges : List (Handle × Handle)} {marked : List Handle}

/-- Whatever children inherit, marking passes on. -/
theorem mark_sound {P : Handle → Prop} (hedges : ∀ edge ∈ edges, P edge.1 → P edge.2)
    (rounds : Nat) (hmarked : ∀ x ∈ marked, P x) : ∀ x ∈ mark edges rounds marked, P x := by
  induction rounds generalizing marked with
  | zero => exact hmarked
  | succ rounds ih =>
    apply ih
    intro x hx
    rcases List.mem_append.mp hx with hold | hnew
    · exact hmarked x hold
    · obtain ⟨edge, hedge, rfl⟩ := List.mem_map.mp hnew
      obtain ⟨hmem, howner⟩ := List.mem_filter.mp hedge
      exact hedges edge hmem (hmarked _ (of_decide_eq_true howner))

theorem mem_mark_of_mem (rounds : Nat) {x : Handle} (hx : x ∈ marked) :
    x ∈ mark edges rounds marked := by
  induction rounds generalizing marked with
  | zero => exact hx
  | succ rounds ih => exact ih (List.mem_append_left _ hx)

/-- The children that are still to be marked. -/
def unmarked (edges : List (Handle × Handle)) (marked : List Handle) : List (Handle × Handle) :=
  edges.filter fun edge ↦ edge.2 ∉ marked

theorem unmarked_append (edges : List (Handle × Handle)) (marked more : List Handle) :
    unmarked edges (marked ++ more) = unmarked (unmarked edges marked) more := by
  simp only [unmarked, List.filter_filter, List.mem_append, not_or, Bool.decide_and, Bool.and_comm]

/-- After enough rounds the children of what is marked are marked. -/
theorem mark_closed {rounds : Nat} (h : (unmarked edges marked).length ≤ rounds) :
    ∀ edge ∈ edges, edge.1 ∈ mark edges rounds marked → edge.2 ∈ mark edges rounds marked := by
  induction rounds generalizing marked with
  | zero =>
    intro edge hedge _
    have hnone := List.eq_nil_of_length_eq_zero (Nat.le_zero.mp h)
    rw [unmarked, List.filter_eq_nil_iff] at hnone
    exact Classical.not_not.mp fun hnot ↦ hnone edge hedge (decide_eq_true hnot)
  | succ rounds ih =>
    by_cases hclosed : ∀ edge ∈ edges, edge.1 ∈ marked → edge.2 ∈ marked
    · intro edge hedge howner
      have hmarked := mark_sound hclosed (rounds + 1) (fun _ hx ↦ hx) edge.1 howner
      exact mem_mark_of_mem _ (hclosed edge hedge hmarked)
    · simp only [Classical.not_forall] at hclosed
      obtain ⟨edge, hedge, howner, hchild⟩ := hclosed
      apply ih
      rw [unmarked_append]
      have hmem : edge ∈ unmarked edges marked :=
        List.mem_filter.mpr ⟨hedge, decide_eq_true hchild⟩
      have hreached : edge.2 ∈ (edges.filter fun edge ↦ edge.1 ∈ marked).map Prod.snd :=
        List.mem_map_of_mem (List.mem_filter.mpr ⟨hedge, decide_eq_true howner⟩)
      have hless : (unmarked (unmarked edges marked)
          ((edges.filter fun edge ↦ edge.1 ∈ marked).map Prod.snd)).length <
          (unmarked edges marked).length :=
        List.length_filter_lt_length_iff_exists.mpr ⟨edge, hmem, by simpa using hreached⟩
      omega

end Marking

/-! ## The backend -/

def globalHandle : Handle := ⟨0⟩

/-- An arena with nothing but the global object. -/
def empty : Arena := ⟨1, [globalHandle], [globalHandle], [globalHandle], []⟩

/-- The handle was not given back, and its object is there. -/
def Has (a : Arena) (handle : Handle) : Prop := handle ∈ a.held ∧ handle ∈ a.present

instance (a : Arena) (handle : Handle) : Decidable (a.Has handle) :=
  inferInstanceAs (Decidable (_ ∧ _))

/-- Makes a change for which objects have to be there. -/
def change (a : Arena) (handles : List Handle) (f : Arena → Arena) :
    Outcome Arena (Except Failure Unit) :=
  match handles.find? fun handle ↦ ¬ a.Has handle with
  | some handle => ⟨.error (.unknownHandle handle), a, []⟩
  | none => ⟨.ok (), f a, []⟩

def addObject (a : Arena) : Arena where
  issued := a.issued + 1
  held := ⟨a.issued⟩ :: a.held
  rooted := ⟨a.issued⟩ :: a.rooted
  present := ⟨a.issued⟩ :: a.present
  edges := a.edges

def addRoot (handle : Handle) (a : Arena) : Arena := { a with rooted := handle :: a.rooted }

def removeRoot (handle : Handle) (a : Arena) : Arena :=
  { a with rooted := a.rooted.filter (· ≠ handle) }

def removeHandle (handle : Handle) (a : Arena) : Arena :=
  { a with held := a.held.filter (· ≠ handle), rooted := a.rooted.filter (· ≠ handle) }

def addEdge (owner child : Handle) (a : Arena) : Arena :=
  { a with edges := (owner, child) :: a.edges }

def removeEdge (owner child : Handle) (a : Arena) : Arena :=
  { a with edges := a.edges.filter (· ≠ (owner, child)) }

/-- The objects that a full collection leaves. -/
def marked (a : Arena) : List Handle := mark a.edges a.edges.length (globalHandle :: a.rooted)

instance : Backend Arena where
  evaluate _ _ a := .done ⟨.ok .undefined, a, []⟩
  hasPending _ := false
  takePending a := ⟨none, a, []⟩
  collect a := .cycle { a with present := a.marked } fun a ↦ .done ⟨(), a, []⟩
  globalObject a := ⟨.ok globalHandle, a, []⟩
  createObject a := ⟨.ok ⟨a.issued⟩, a.addObject, []⟩
  getProperty _ _ a := ⟨.ok .undefined, a, []⟩
  setProperty _ _ _ a := ⟨.ok (), a, []⟩
  root handle a := a.change [handle] (addRoot handle)
  unroot handle a := a.change [handle] (removeRoot handle)
  release handle a := ⟨(), a.removeHandle handle, []⟩
  attachChild owner child a := a.change [owner, child] (addEdge owner child)
  detachChild owner child a := a.change [owner, child] (removeEdge owner child)
  setPrivateData _ _ a := ⟨.ok (), a, []⟩
  installClass _ a := ⟨.ok (), a, []⟩
  shutdown a := ⟨(), a, []⟩
  queryDead handle a := ⟨¬ a.Has handle, a, []⟩
  tearDown handle a := ⟨(), a.removeRoot handle, []⟩
  forget handle a := ⟨(), a.removeHandle handle, []⟩

/-! ## The contract -/

/-- What holds of every arena that is used as a backend. -/
structure Sane (a : Arena) : Prop where
  issued_of_held : ∀ {x}, x ∈ a.held → x.index < a.issued
  issued_of_present : ∀ {x}, x ∈ a.present → x.index < a.issued
  issued_of_edge : ∀ {x y}, (x, y) ∈ a.edges → x.index < a.issued
  has_of_rooted : ∀ {x}, x ∈ a.rooted → a.Has x
  global : globalHandle ∈ a.present
  closed : ∀ {x y}, (x, y) ∈ a.edges → x ∈ a.present → y ∈ a.present

/-- The script heap of an arena, in which objects go by their handles. -/
def heap (a : Arena) : Heap Handle where
  issued x := x.index < a.issued
  target x := if x ∈ a.held then some x else none
  rooted x := x ∈ a.rooted
  made x := x.index < a.issued
  present x := x ∈ a.present
  scriptRoot x := x = globalHandle
  refers _ _ := False
  child x handle y := (x, handle) ∈ a.edges ∧ y = handle
  meddled := False

def view : View Arena Handle := ⟨heap, Sane⟩

variable {a b : Arena} {x y handle : Handle}

theorem sane_empty : Sane empty := by
  constructor <;> simp [empty, Has, globalHandle]

theorem target_heap : a.heap.target handle = some x ↔ handle ∈ a.held ∧ handle = x := by
  simp [heap]

theorem present_of_reach (h : a.Sane) (hx : a.heap.Reach x) : x ∈ a.present := by
  induction hx with
  | root hroot htarget =>
    obtain ⟨-, rfl⟩ := target_heap.mp htarget
    exact (h.has_of_rooted hroot).2
  | scriptRoot hglobal =>
    rw [show _ = globalHandle from hglobal]
    exact h.global
  | refers _ hfalse => exact hfalse.elim
  | child _ hchild ih =>
    obtain ⟨hedge, rfl⟩ := hchild
    exact h.closed hedge ih

theorem sound (h : a.Sane) : a.heap.Sound where
  made_of_target hx := by
    obtain ⟨hheld, rfl⟩ := target_heap.mp hx
    exact h.issued_of_held hheld
  made_of_child hchild := h.issued_of_edge hchild.1
  issued_of_target hx := h.issued_of_held (target_heap.mp hx).1
  present_of_reach hx := present_of_reach h hx
  made_of_present hx := h.issued_of_present hx

/-- Marking finds what can be reached. -/
theorem mem_marked (h : a.Sane) : x ∈ a.marked ↔ a.heap.Reach x := by
  constructor
  · apply mark_sound
    · exact fun edge hedge howner ↦ .child howner ⟨hedge, rfl⟩
    · intro y hy
      rcases List.mem_cons.mp hy with rfl | hrooted
      · exact .scriptRoot rfl
      · exact .root hrooted (target_heap.mpr ⟨(h.has_of_rooted hrooted).1, rfl⟩)
  · intro hx
    induction hx with
    | root hroot htarget =>
      obtain ⟨-, rfl⟩ := target_heap.mp htarget
      exact mem_mark_of_mem _ (List.mem_cons_of_mem _ hroot)
    | scriptRoot hglobal =>
      rw [show _ = globalHandle from hglobal]
      exact mem_mark_of_mem _ List.mem_cons_self
    | refers _ hfalse => exact hfalse.elim
    | child _ hchild ih =>
      obtain ⟨hedge, rfl⟩ := hchild
      exact mark_closed (List.length_filter_le _ _) _ hedge ih

theorem follows_of_eq {H : Heap Handle} (h : b.Sane) (heq : b.heap = H) : view.Follows H b :=
  ⟨h, heq ▸ .refl _⟩

theorem gone_heap : a.heap.Gone handle ↔ ¬ a.Has handle := by
  constructor
  · exact fun hgone hhas ↦ hgone handle (target_heap.mpr ⟨hhas.1, rfl⟩) hhas.2
  · rintro hnot x hx hpresent
    obtain ⟨hheld, rfl⟩ := target_heap.mp hx
    exact hnot ⟨hheld, hpresent⟩

/-- A change that is refused lacks one of its objects. -/
theorem not_has_of_refused {handles : List Handle} {f : Arena → Arena}
    (h : (a.change handles f).result = .error (.unknownHandle handle)) :
    handle ∈ handles ∧ ¬ a.Has handle := by
  unfold change at h
  split at h
  · next hfound =>
    cases h
    exact ⟨List.mem_of_find?_eq_some hfound, by simpa using List.find?_some hfound⟩
  · cases h

/-- A change is made if all objects are there. -/
theorem follows_change (h : a.Sane) (handles : List Handle) {f : Arena → Arena}
    {g : Heap Handle → Heap Handle}
    (hf : (∀ handle ∈ handles, a.Has handle) → (f a).Sane ∧ (f a).heap = g a.heap) :
    view.Follows (a.heap.after (a.change handles f).result g) (a.change handles f).state := by
  unfold change
  split
  · exact follows_of_eq h rfl
  · next hnone =>
    rw [List.find?_eq_none] at hnone
    obtain ⟨hsane, hheap⟩ := hf fun handle hmem ↦ by simpa using hnone handle hmem
    exact follows_of_eq hsane hheap

theorem mem_filter_ne {l : List Handle} : x ∈ l.filter (· ≠ handle) ↔ x ≠ handle ∧ x ∈ l := by
  simp [and_comm]

theorem addRoot_spec (h : a.Sane) (hhas : a.Has handle) :
    (a.addRoot handle).Sane ∧ (a.addRoot handle).heap = a.heap.withRoot handle := by
  refine ⟨{ h with has_of_rooted := fun {x} hx ↦ ?_ },
    Heap.ext rfl rfl (funext fun _ ↦ propext List.mem_cons) rfl rfl rfl rfl rfl rfl⟩
  rcases List.mem_cons.mp hx with rfl | hold
  · exact hhas
  · exact h.has_of_rooted hold

theorem removeRoot_spec (h : a.Sane) (handle : Handle) :
    (a.removeRoot handle).Sane ∧ (a.removeRoot handle).heap = a.heap.withoutRoot handle :=
  ⟨{ h with has_of_rooted := fun hx ↦ h.has_of_rooted (List.mem_filter.mp hx).1 },
    Heap.ext rfl rfl (funext fun _ ↦ propext mem_filter_ne) rfl rfl rfl rfl rfl rfl⟩

theorem removeHandle_spec (h : a.Sane) (handle : Handle) :
    (a.removeHandle handle).Sane ∧ (a.removeHandle handle).heap = a.heap.withoutHandle handle := by
  constructor
  · exact
      { issued_of_held := fun hx ↦ h.issued_of_held (List.mem_filter.mp hx).1
        issued_of_present := h.issued_of_present
        issued_of_edge := h.issued_of_edge
        has_of_rooted := fun hx ↦ by
          obtain ⟨hrooted, hne⟩ := List.mem_filter.mp hx
          obtain ⟨hheld, hpresent⟩ := h.has_of_rooted hrooted
          exact ⟨List.mem_filter.mpr ⟨hheld, hne⟩, hpresent⟩
        global := h.global
        closed := h.closed }
  · refine Heap.ext rfl (funext fun x ↦ ?_) (funext fun _ ↦ propext mem_filter_ne)
      rfl rfl rfl rfl rfl rfl
    change (if x ∈ a.held.filter (· ≠ handle) then some x else none) =
      if x = handle then none else if x ∈ a.held then some x else none
    by_cases hx : x = handle <;> simp [hx]

theorem addEdge_spec (h : a.Sane) (hx : a.Has x) (hy : a.Has y) :
    (a.addEdge x y).Sane ∧ (a.addEdge x y).heap = a.heap.withChild x y y := by
  constructor
  · exact
      { issued_of_held := h.issued_of_held
        issued_of_present := h.issued_of_present
        issued_of_edge := fun hedge ↦ by
          rcases List.mem_cons.mp hedge with hnew | hold
          · cases hnew
            exact h.issued_of_held hx.1
          · exact h.issued_of_edge hold
        has_of_rooted := h.has_of_rooted
        global := h.global
        closed := fun hedge hpresent ↦ by
          rcases List.mem_cons.mp hedge with hnew | hold
          · cases hnew
            exact hy.2
          · exact h.closed hold hpresent }
  · refine Heap.ext rfl rfl rfl rfl rfl rfl rfl (funext fun p ↦ ?_) rfl
    funext k q
    change ((p, k) ∈ (x, y) :: a.edges ∧ q = k) = (p = x ∧ k = y ∧ q = y ∨
      ¬ (p = x ∧ k = y) ∧ (p, k) ∈ a.edges ∧ q = k)
    grind

theorem removeEdge_spec (h : a.Sane) (x y : Handle) :
    (a.removeEdge x y).Sane ∧ (a.removeEdge x y).heap = a.heap.withoutChild x y :=
  ⟨{ h with
      issued_of_edge := fun hedge ↦ h.issued_of_edge (List.mem_filter.mp hedge).1
      closed := fun hedge ↦ h.closed (List.mem_filter.mp hedge).1 },
    Heap.ext rfl rfl rfl rfl rfl rfl rfl (funext fun p ↦ funext fun k ↦ funext fun q ↦ by
      change ((p, k) ∈ a.edges.filter (· ≠ (x, y)) ∧ q = k) =
        (¬ (p = x ∧ k = y) ∧ (p, k) ∈ a.edges ∧ q = k)
      grind) rfl⟩

theorem follows_addObject (h : a.Sane) : view.Follows a.heap a.addObject := by
  have hnew : ∀ {x : Handle}, x.index < a.issued → x ≠ ⟨a.issued⟩ := by
    rintro x hx rfl
    exact Nat.lt_irrefl _ hx
  have hlater : ∀ {x : Handle} {l : List Handle}, (x ∈ l → x.index < a.issued) →
      x ∈ (⟨a.issued⟩ :: l) → x.index < a.issued + 1 := by
    intro x l hl hx
    rcases List.mem_cons.mp hx with rfl | hold
    · exact Nat.lt_succ_self _
    · exact Nat.lt_succ_of_lt (hl hold)
  constructor
  · exact
      { issued_of_held := hlater h.issued_of_held
        issued_of_present := hlater h.issued_of_present
        issued_of_edge := fun hedge ↦ Nat.lt_succ_of_lt (h.issued_of_edge hedge)
        has_of_rooted := fun hx ↦ by
          rcases List.mem_cons.mp hx with rfl | hold
          · exact ⟨List.mem_cons_self, List.mem_cons_self⟩
          · obtain ⟨hheld, hpresent⟩ := h.has_of_rooted hold
            exact ⟨List.mem_cons_of_mem _ hheld, List.mem_cons_of_mem _ hpresent⟩
        global := List.mem_cons_of_mem _ h.global
        closed := fun hedge hpresent ↦ by
          rcases List.mem_cons.mp hpresent with rfl | hold
          · exact absurd (h.issued_of_edge hedge) (Nat.lt_irrefl _)
          · exact List.mem_cons_of_mem _ (h.closed hedge hold) }
  · exact
      { issued := Nat.lt_succ_of_lt
        target := fun hx ↦ by simp [view, heap, addObject, hnew hx]
        rooted := fun hx ↦ by simp [view, heap, addObject, hnew hx]
        made := Nat.lt_succ_of_lt
        gone := fun hx hpresent ↦ (List.mem_cons.mp hpresent).resolve_left (hnew hx)
        meddled := id
        child := fun _ _ _ _ _ ↦ Iff.rfl }

theorem follows_marked (h : a.Sane) : view.Follows a.heap { a with present := a.marked } := by
  constructor
  · exact
      { h with
        issued_of_present := fun hx ↦
          h.issued_of_present (present_of_reach h ((mem_marked h).mp hx))
        has_of_rooted := fun {x} hx ↦
          have hheld := (h.has_of_rooted hx).1
          ⟨hheld, (mem_marked h).mpr (.root hx (target_heap.mpr ⟨hheld, rfl⟩))⟩
        global := (mem_marked h).mpr (.scriptRoot rfl)
        closed := fun hedge hx ↦
          (mem_marked h).mpr (.child ((mem_marked h).mp hx) ⟨hedge, rfl⟩) }
  · exact
      { Heap.Drift.refl a.heap with
        gone := fun _ hx ↦ present_of_reach h ((mem_marked h).mp hx)
        child := fun _ _ _ _ _ ↦ Iff.rfl }

theorem sane_updates (h : a.Sane) (hupdates : view.Updates a b) : b.Sane := by
  induction hupdates with
  | start => exact h
  | query _ _ ih => exact ih
  | forget _ _ ih => exact (removeHandle_spec ih _).1

/-- An arena honours the contract. -/
def contract : Contract Arena Handle where
  toView := view
  sound := sound
  globalObject h := follows_of_eq h rfl
  quiet h hcall := by cases hcall <;> exact follows_of_eq h rfl
  createObject := follows_addObject
  created {a handle} h hresult := by
    cases hresult
    refine ⟨⟨a.issued⟩, Nat.lt_irrefl _, Nat.lt_irrefl _, ?_, List.mem_cons_self⟩
    exact target_heap.mpr ⟨List.mem_cons_self, rfl⟩
  root _ h := follows_change h _ fun hhas ↦ addRoot_spec h (hhas _ List.mem_cons_self)
  unroot handle h := follows_change h _ fun _ ↦ removeRoot_spec h handle
  release handle h :=
    have ⟨hsane, hheap⟩ := removeHandle_spec h handle
    follows_of_eq hsane hheap
  attachChild {a owner child x y} h hx hy := by
    obtain ⟨-, rfl⟩ := target_heap.mp hx
    obtain ⟨-, rfl⟩ := target_heap.mp hy
    exact follows_change h _ fun hhas ↦ addEdge_spec h (hhas _ (by simp)) (hhas _ (by simp))
  detachChild {a owner x} child h hx := by
    obtain ⟨-, rfl⟩ := target_heap.mp hx
    exact follows_change h _ fun _ ↦ removeEdge_spec h owner child
  unknown _ hresult := by
    obtain ⟨hmem, hnot⟩ := not_has_of_refused hresult
    simp only [List.mem_cons, List.not_mem_nil, or_false] at hmem
    rcases hmem with rfl | rfl
    · exact .inl (gone_heap.mpr hnot)
    · exact .inr (gone_heap.mpr hnot)
  evaluate _ _ h := .done (follows_of_eq h rfl)
  collect h := .phase (.update (follows_marked h) (fun _ ↦ mem_marked h) fun t ht ↦
    .phase (.done ⟨follows_of_eq (sane_updates (follows_marked h).alive ht) rfl, fun _ ↦ Iff.rfl⟩))
  queryDead _ h := ⟨follows_of_eq h rfl, fun _ ↦ Iff.rfl⟩
  dead _ _ := decide_eq_true_iff.trans gone_heap.symm
  forget {_ handle} h _ :=
    have ⟨hsane, hheap⟩ := removeHandle_spec h handle
    ⟨follows_of_eq hsane hheap, fun _ ↦ Iff.rfl⟩

end Arena

end ScriptBridge
