import Mathlib.Data.List.Flatten
import Mathlib.Data.List.Nodup
import Mathlib.Data.List.Perm.Subperm
import Mathlib.Logic.Function.Iterate
import ScriptBridge.Proofs.Engine.Dealing
import ScriptBridge.Proofs.Script.Memory
import ScriptBridge.Script.Construction

/-!
# Sound machines

Whatever a sound machine refers to is there. Carriers are found in one way only: unless somebody has
named the property that leads to them, an object that was given a carrier refers to the last one of
them, and nothing else does. Work on a machine makes it evolve: no object comes back, no handle is
given out twice, and a payload is finalized if and only if its carrier goes.
-/

namespace ScriptBridge.Script

/-! ## What objects show -/

namespace Object

/-- The objects that an object refers to in any way but by the property of carriers. -/
def shown (o : Object) : List ObjectId :=
  o.prototype.toList ++ o.kind.references ++
    (o.properties.filter fun (k, _) ↦ k ≠ payloadKey).flatMap fun (_, p) ↦ p.content.references

/-- What entries say under a key. -/
def contentsAt (key : String) : List (String × Property) → List Content
  | [] => []
  | (k, p) :: rest => if k = key then p.content :: contentsAt key rest else contentsAt key rest

/-- What an object has under the key of carriers. -/
def hidden (o : Object) : List Content := contentsAt payloadKey o.properties

/-- The native class that an object is the constructor of. -/
def native? (o : Object) : Option NativeClass :=
  match o.kind with
  | .function (.native spec) => some spec
  | _ => none

variable {o : Object} {id : ObjectId}

theorem mem_references : id ∈ o.references ↔ id ∈ o.prototype ∨ id ∈ o.kind.references ∨
    ∃ entry ∈ o.properties, id ∈ entry.2.content.references := by
  simp [references]

theorem mem_shown : id ∈ o.shown ↔ id ∈ o.prototype ∨ id ∈ o.kind.references ∨
    ∃ entry ∈ o.properties, entry.1 ≠ payloadKey ∧ id ∈ entry.2.content.references := by
  simp [shown, and_assoc]

theorem mem_contentsAt {key : String} {c : Content} {entries : List (String × Property)} :
    c ∈ contentsAt key entries ↔ ∃ entry ∈ entries, entry.1 = key ∧ entry.2.content = c := by
  induction entries with
  | nil => simp [contentsAt]
  | cons entry rest ih =>
    obtain ⟨k, p⟩ := entry
    by_cases hk : k = key
    · simp [contentsAt, hk, ih, eq_comm]
    · simp [contentsAt, hk, ih]

theorem mem_hidden {c : Content} :
    c ∈ o.hidden ↔ ∃ entry ∈ o.properties, entry.1 = payloadKey ∧ entry.2.content = c :=
  mem_contentsAt

/-- What an object refers to, it shows or has hidden. -/
theorem mem_references_iff :
    id ∈ o.references ↔ id ∈ o.shown ∨ ∃ c ∈ o.hidden, id ∈ c.references := by
  simp only [mem_references, mem_shown, mem_hidden]
  constructor
  · rintro (h | h | ⟨entry, hentry, hid⟩)
    · exact .inl (.inl h)
    · exact .inl (.inr (.inl h))
    · by_cases hkey : entry.1 = payloadKey
      · exact .inr ⟨_, ⟨entry, hentry, hkey, rfl⟩, hid⟩
      · exact .inl (.inr (.inr ⟨entry, hentry, hkey, hid⟩))
  · rintro ((h | h | ⟨entry, hentry, -, hid⟩) | ⟨c, ⟨entry, hentry, -, rfl⟩, hid⟩)
    · exact .inl h
    · exact .inr (.inl h)
    · exact .inr (.inr ⟨entry, hentry, hid⟩)
    · exact .inr (.inr ⟨entry, hentry, hid⟩)

theorem mem_references_of_shown (h : id ∈ o.shown) : id ∈ o.references :=
  mem_references_iff.mpr (.inl h)

theorem native?_eq_some_iff {spec : NativeClass} :
    o.native? = some spec ↔ o.callable? = some (.native spec) := by
  unfold native? callable?
  split
  · next h => simp [h]
  · next h =>
    refine iff_of_false nofun fun hcallable ↦ ?_
    split at hcallable
    · next callable hkind =>
      cases hcallable
      exact h spec hkind
    · cases hcallable

end Object

/-! ## Accounts -/

/-- Handles in the order of their indices, which are in a range. -/
structure Ascends (first last : Nat) (handles : List Handle) : Prop where
  ordered : handles.Pairwise fun h h' ↦ h.index < h'.index
  bounds : ∀ h ∈ handles, first ≤ h.index ∧ h.index < last

namespace Ascends

variable {first middle last : Nat} {handles more : List Handle}

theorem nil : Ascends first last [] := ⟨.nil, by simp⟩

theorem append (h : Ascends first middle handles) (hmore : Ascends middle last more)
    (hfirst : first ≤ middle) (hlast : middle ≤ last) : Ascends first last (handles ++ more) where
  ordered := List.pairwise_append.mpr ⟨h.ordered, hmore.ordered, fun x hx y hy ↦
    Nat.lt_of_lt_of_le (h.bounds x hx).2 (hmore.bounds y hy).1⟩
  bounds x hx := by
    rcases List.mem_append.mp hx with hx | hx
    · have := h.bounds x hx
      omega
    · have := hmore.bounds x hx
      omega

end Ascends

/-- What native code is told of the handles that were given out: of each at most once, and of those
that it is told of together in their order. -/
structure Tells (told : List (List Handle)) (given : List Handle) : Prop where
  once : told.flatten.Subperm given
  inOrder : ∀ handles ∈ told, handles.Sublist given

namespace Tells

variable {told more : List (List Handle)} {given later handles : List Handle}

theorem none (h : told.flatten = []) : Tells told [] where
  once := h ▸ List.Subperm.refl []
  inOrder handles hmem := by
    rw [List.flatten_eq_nil_iff.mp h handles hmem]

theorem singleton (handles : List Handle) : Tells [handles] handles where
  once := by
    rw [List.flatten_singleton]
  inOrder told htold := by
    rw [List.mem_singleton.mp htold]

theorem append (first : Tells told given) (second : Tells more later) :
    Tells (told ++ more) (given ++ later) where
  once := by
    rw [List.flatten_append]
    exact first.once.append second.once
  inOrder handles hmem := by
    rcases List.mem_append.mp hmem with hmem | hmem
    · exact (first.inOrder handles hmem).trans (List.sublist_append_left ..)
    · exact (second.inOrder handles hmem).trans (List.sublist_append_right ..)

/-- It does not matter here in which order native code is told, and it may be told of less. -/
theorem subperm (h : Tells told given) (hsubperm : more.Subperm told) : Tells more given where
  once := by
    obtain ⟨same, hperm, hsublist⟩ := hsubperm
    exact (hperm.symm.flatten.subperm.trans hsublist.flatten.subperm).trans h.once
  inOrder handles hmem := h.inOrder handles (hsubperm.subset hmem)

theorem nil_cons (h : Tells told given) : Tells ([] :: told) given where
  once := h.once
  inOrder handles hmem := by
    rcases List.mem_cons.mp hmem with rfl | hmem
    · exact List.nil_sublist given
    · exact h.inOrder handles hmem

/-- What comes later may be told of together with what came first. -/
theorem join {others : List Handle} (first : Tells (handles :: told) given)
    (second : Tells (others :: more) later) :
    Tells ((handles ++ others) :: (told ++ more)) (given ++ later) where
  once := by
    have hswap : (others ++ told.flatten).Perm (told.flatten ++ others) := List.perm_append_comm
    have hperm : ((handles ++ others) :: (told ++ more)).flatten.Perm
        ((handles :: told) ++ (others :: more)).flatten := by
      simp only [List.flatten_cons, List.flatten_append, List.append_assoc]
      refine (List.perm_append_left_iff handles).mpr ?_
      simpa only [List.append_assoc] using hswap.append_right more.flatten
    exact hperm.subperm.trans (first.append second).once
  inOrder handles' hmem := by
    rcases List.mem_cons.mp hmem with rfl | hmem
    · exact (first.inOrder _ List.mem_cons_self).append (second.inOrder _ List.mem_cons_self)
    · refine (first.append second).inOrder handles' ?_
      rcases List.mem_append.mp hmem with hmem | hmem
      · exact List.mem_append_left _ (List.mem_cons_of_mem _ hmem)
      · exact List.mem_append_right _ (List.mem_cons_of_mem _ hmem)

end Tells

namespace Machine

variable {m m' m'' : Machine} {kept ids : List ObjectId} {id x c : ObjectId} {o : Object}
  {events : List Notice} {made : List NativeClass}

/-- All carriers that were made. -/
def carriers (m : Machine) : List ObjectId := m.ledger.made.map Prod.fst

/-- The carrier that an object was given last. -/
def current (m : Machine) (id : ObjectId) : Option ObjectId := m.ledger.given.reverse.lookup id

/-- An object that is there and that anyone may have. Carriers are for the machine alone, unless
somebody has named the property that leads to them. -/
def Offers (m : Machine) (id : ObjectId) : Prop :=
  id ∈ m.heap ∧ (m.ledger.isTouched = false → id ∉ m.carriers)

/-- How many carriers of a payload with this tag and text are gone. -/
def lost (m : Machine) (payload : String × String) : Nat :=
  m.ledger.made.countP fun entry ↦
    !m.heap.contains entry.1 && entry.2 = ⟨payload.2, some payload.1⟩

/-- Places, handles and carriers are kept apart, and the ledger tells the truth about payloads. -/
structure Tidy (m : Machine) : Prop where
  heap_lt : ∀ {id}, id ∈ m.heap → id.index < m.nextObject
  slots_lt : ∀ {h : Handle} {s}, m.slots[h]? = some s → h.index < m.nextHandle
  target_lt : ∀ {h : Handle} {s}, m.slots[h]? = some s → s.target.index < m.nextObject
  carriers_lt : ∀ {c}, c ∈ m.carriers → c.index < m.nextObject
  nodup_carriers : m.carriers.Nodup
  given_subset : ∀ {c}, c ∈ m.ledger.given.map Prod.snd → c ∈ m.carriers
  nodup_given : (m.ledger.given.map Prod.snd).Nodup
  owners_lt : ∀ {x c}, (x, c) ∈ m.ledger.given → x.index < m.nextObject
  payload? : ∀ {id : ObjectId} {o : Object}, m.heap[id]? = some o →
    o.payload? = m.ledger.made.lookup id

/-- Whatever is referred to is there, and carriers are hidden. -/
structure Sound (m : Machine) : Prop extends Tidy m where
  anchors : m.anchors = Realm.anchors
  roots : ∀ {id}, id ∈ m.roots → m.Offers id
  targets : ∀ {h : Handle} {s}, m.slots[h]? = some s → m.ledger.isTouched = false →
    s.target ∉ m.carriers
  shown : ∀ {x : ObjectId} {o : Object} {id}, m.heap[x]? = some o → id ∈ o.shown → m.Offers id
  references : ∀ {x : ObjectId} {o : Object} {id}, m.heap[x]? = some o → id ∈ o.references →
    id ∈ m.heap
  hidden : ∀ {x : ObjectId} {o : Object}, m.ledger.isTouched = false → m.heap[x]? = some o →
    o.hidden = (m.current x).toList.map fun c ↦ .data (.object c)

theorem Sound.closed (h : Sound m) : Closed m := ⟨fun hid ↦ (h.roots hid).1, h.references⟩

/-- The native class that the object at a place is the constructor of. -/
def native? (m : Machine) (id : ObjectId) : Option NativeClass :=
  (m.heap[id]?).bind Object.native?

theorem mem_heap_of_native? {spec : NativeClass} (h : m.native? id = some spec) : id ∈ m.heap := by
  obtain ⟨o, ho, -⟩ := Option.bind_eq_some_iff.mp h
  exact mem_heap_of_getElem? ho

/-- Constructors that were not there before are new, and they are those of given native classes. -/
def Makes (made : List NativeClass) (m m' : Machine) : Prop :=
  ∀ ⦃id spec⦄, m'.native? id = some spec →
    m.native? id = some spec ∨ m.nextObject ≤ id.index ∧ spec ∈ made

theorem Makes.refl (m : Machine) : Makes made m m := fun _ _ ↦ .inl

theorem Makes.trans (first : Makes made m m') (second : Makes made m' m'')
    (hnext : m.nextObject ≤ m'.nextObject) : Makes made m m'' := by
  intro id spec hspec
  rcases second hspec with hbefore | ⟨hnew, hmade⟩
  · exact first hbefore
  · exact .inr ⟨Nat.le_trans hnext hnew, hmade⟩

/-- Other constructors may be made as well. -/
theorem Makes.of_subset {more : List NativeClass} (h : Makes made m m') (hsubset : made ⊆ more) :
    Makes more m m' :=
  fun _ _ hspec ↦ (h hspec).imp_right fun hnew ↦ ⟨hnew.1, hsubset hnew.2⟩

/-- Where an object is like the one that was there before, so is the constructor. -/
theorem native?_eq_of_heap (hheap : ∀ {id : ObjectId} {o : Object}, m'.heap[id]? = some o →
    ∃ before, m.heap[id]? = some before ∧ o.native? = before.native?) (hmem : id ∈ m'.heap) :
    m'.native? id = m.native? id := by
  obtain ⟨o, ho⟩ := mem_heap_iff.mp hmem
  obtain ⟨before, hbefore, hsame⟩ := hheap ho
  rw [native?, native?, ho, hbefore, Option.bind_some, Option.bind_some, hsame]

theorem Makes.of_heap (hheap : ∀ {id : ObjectId} {o : Object}, m'.heap[id]? = some o →
    ∃ before, m.heap[id]? = some before ∧ o.native? = before.native?) : Makes made m m' :=
  fun _ _ hspec ↦ .inl (native?_eq_of_heap hheap (mem_heap_of_native? hspec) ▸ hspec)

/-- Scripts ask for collections, and each time the request is counted. -/
def Counts (m m' : Machine) : Prop :=
  ∃ calls, m'.forced = m.forced + calls ∧ m'.requests = countRequest^[calls] m.requests

theorem Counts.of_eq (hforced : m'.forced = m.forced) (hrequests : m'.requests = m.requests) :
    Counts m m' :=
  ⟨0, hforced, hrequests⟩

theorem Counts.refl (m : Machine) : Counts m m := of_eq rfl rfl

theorem Counts.trans (first : Counts m m') (second : Counts m' m'') : Counts m m'' := by
  obtain ⟨calls, hforced, hrequests⟩ := first
  obtain ⟨more, hforced', hrequests'⟩ := second
  refine ⟨more + calls, by rw [hforced', hforced]; omega, ?_⟩
  rw [hrequests', hrequests, ← Function.iterate_add_apply]

/-- Handles are given out in the order of their indices, and native code is told of some of them. -/
def Issues (m m' : Machine) (told : List (List Handle)) : Prop :=
  ∃ new, m'.issued = m.issued ++ new ∧ Ascends m.nextHandle m'.nextHandle new ∧ Tells told new

namespace Issues

variable {told more : List (List Handle)} {handles others : List Handle} {k : Handle}

theorem none (hissued : m'.issued = m.issued) (htold : told.flatten = []) : Issues m m' told :=
  ⟨[], by rw [hissued, List.append_nil], .nil, .none htold⟩

theorem subperm (h : Issues m m' told) (hsubperm : more.Subperm told) : Issues m m' more := by
  obtain ⟨new, hissued, hascends, htells⟩ := h
  exact ⟨new, hissued, hascends, htells.subperm hsubperm⟩

theorem nil_cons (h : Issues m m' told) : Issues m m' ([] :: told) := by
  obtain ⟨new, hissued, hascends, htells⟩ := h
  exact ⟨new, hissued, hascends, htells.nil_cons⟩

theorem trans (first : Issues m m' told) (second : Issues m' m'' more)
    (hfirst : m.nextHandle ≤ m'.nextHandle) (hlast : m'.nextHandle ≤ m''.nextHandle) :
    Issues m m'' (told ++ more) := by
  obtain ⟨new, hissued, hascends, htells⟩ := first
  obtain ⟨later, hissued', hascends', htells'⟩ := second
  exact ⟨new ++ later, by rw [hissued', hissued, List.append_assoc],
    hascends.append hascends' hfirst hlast, htells.append htells'⟩

theorem join (first : Issues m m' (handles :: told)) (second : Issues m' m'' (others :: more))
    (hfirst : m.nextHandle ≤ m'.nextHandle) (hlast : m'.nextHandle ≤ m''.nextHandle) :
    Issues m m'' ((handles ++ others) :: (told ++ more)) := by
  obtain ⟨new, hissued, hascends, htells⟩ := first
  obtain ⟨later, hissued', hascends', htells'⟩ := second
  exact ⟨new ++ later, by rw [hissued', hissued, List.append_assoc],
    hascends.append hascends' hfirst hlast, htells.join htells'⟩

/-- What native code is told of has an index that was not given out before. -/
theorem bounds (h : Issues m m' told) (hk : k ∈ told.flatten) :
    m.nextHandle ≤ k.index ∧ k.index < m'.nextHandle := by
  obtain ⟨new, -, hascends, htells⟩ := h
  exact hascends.bounds k (htells.once.subset hk)

end Issues

/-- What was added to a log and what was added later were all added to it. -/
theorem exists_append_trans {α : Type} {before log after : List α} {P Q : α → Prop}
    (first : ∃ new, log = before ++ new ∧ ∀ entry ∈ new, P entry)
    (second : ∃ new, after = log ++ new ∧ ∀ entry ∈ new, Q entry)
    (hlater : ∀ entry, Q entry → P entry) :
    ∃ new, after = before ++ new ∧ ∀ entry ∈ new, P entry := by
  obtain ⟨new, rfl, hnew⟩ := first
  obtain ⟨more, rfl, hmore⟩ := second
  refine ⟨new ++ more, List.append_assoc .., fun entry hentry ↦ ?_⟩
  exact (List.mem_append.mp hentry).elim (hnew entry) fun h ↦ hlater entry (hmore entry h)

/-- What becomes of a machine at work, and which constructors it makes meanwhile. Of the handles
that it gives out, some are held back for native code, and notices tell of others. -/
structure Unfolds (made : List NativeClass) (held : List Handle) (m m' : Machine) : Prop where
  nextObject : m.nextObject ≤ m'.nextObject
  nextHandle : m.nextHandle ≤ m'.nextHandle
  isOpen : m'.isOpen = m.isOpen
  globalHandle : m'.globalHandle = m.globalHandle
  /-- No object comes back. -/
  gone : ∀ {id}, id.index < m.nextObject → id ∈ m'.heap → id ∈ m.heap
  /-- The constructor of a native class stays that, and nothing becomes one. -/
  kept : ∀ {id}, id.index < m.nextObject → id ∈ m'.heap → m'.native? id = m.native? id
  makes : Makes made m m'
  made : ∃ new, m'.ledger.made = m.ledger.made ++ new ∧
    ∀ entry ∈ new, m.nextObject ≤ entry.1.index
  given : ∃ new, m'.ledger.given = m.ledger.given ++ new ∧
    ∀ entry ∈ new, m.nextObject ≤ entry.2.index
  isTouched : m.ledger.isTouched = true → m'.ledger.isTouched = true
  counts : Counts m m'
  /-- Constructors get new handles, and payloads are finalized as their carriers go. -/
  trace : ∃ events, m'.trace = m.trace ++ events ∧
    Issues m m' (held :: events.map Notice.handles) ∧
    ∀ payload, events.countP (Notice.finalizes payload) + m.lost payload = m'.lost payload

/-- What becomes of a machine when work on it is over. It has the handles that it had before. -/
structure Evolves (made : List NativeClass) (m m' : Machine) : Prop extends
    Unfolds made [] m m' where
  slots : m'.slots = m.slots
  pins : m'.pins = m.pins

theorem Unfolds.refl (m : Machine) : Unfolds made [] m m where
  nextObject := Nat.le_refl _
  nextHandle := Nat.le_refl _
  isOpen := rfl
  globalHandle := rfl
  gone _ h := h
  kept _ _ := rfl
  makes := .refl m
  made := ⟨[], by simp, by simp⟩
  given := ⟨[], (List.append_nil _).symm, by simp⟩
  isTouched h := h
  counts := .refl m
  trace := ⟨[], by simp, .none rfl rfl, by simp⟩

theorem Unfolds.trans {held others : List Handle} (first : Unfolds made held m m')
    (second : Unfolds made others m' m'') : Unfolds made (held ++ others) m m'' where
  nextObject := Nat.le_trans first.nextObject second.nextObject
  nextHandle := Nat.le_trans first.nextHandle second.nextHandle
  isOpen := second.isOpen.trans first.isOpen
  globalHandle := second.globalHandle.trans first.globalHandle
  gone hlt hmem :=
    first.gone hlt (second.gone (Nat.lt_of_lt_of_le hlt first.nextObject) hmem)
  kept hlt hmem := by
    have hlt' := Nat.lt_of_lt_of_le hlt first.nextObject
    rw [second.kept hlt' hmem, first.kept hlt (second.gone hlt' hmem)]
  makes := first.makes.trans second.makes first.nextObject
  made := exists_append_trans first.made second.made fun _ ↦ Nat.le_trans first.nextObject
  given := exists_append_trans first.given second.given fun _ ↦ Nat.le_trans first.nextObject
  isTouched h := second.isTouched (first.isTouched h)
  counts := first.counts.trans second.counts
  trace := by
    obtain ⟨events, htrace, hissues, hlost⟩ := first.trace
    obtain ⟨more, htrace', hissues', hlost'⟩ := second.trace
    refine ⟨events ++ more, by rw [htrace', htrace, List.append_assoc], ?_, fun payload ↦ ?_⟩
    · rw [List.map_append]
      exact hissues.join hissues' first.nextHandle second.nextHandle
    · rw [List.countP_append, ← hlost', ← hlost]
      omega

theorem Evolves.refl (m : Machine) : Evolves made m m :=
  { Unfolds.refl m with slots := rfl, pins := rfl }

theorem Evolves.trans (first : Evolves made m m') (second : Evolves made m' m'') :
    Evolves made m m'' where
  toUnfolds := first.toUnfolds.trans second.toUnfolds
  slots := second.slots.trans first.slots
  pins := second.pins.trans first.pins

/-- Constructors may be made besides. -/
theorem Evolves.of_none (h : Evolves [] m m') : Evolves made m m' :=
  { h with makes := h.makes.of_subset (List.nil_subset _) }

/-! ## The carrier that an object was given last -/

theorem lookup_reverse_append {α β : Type} [BEq α] (l : List (α × β)) (a : α) (b : β) (x : α) :
    (l ++ [(a, b)]).reverse.lookup x = if x == a then some b else l.reverse.lookup x := by
  rw [List.reverse_append, List.reverse_singleton, List.singleton_append, List.lookup_cons]
  cases x == a <;> rfl

theorem mem_given_of_current (h : m.current x = some c) : (x, c) ∈ m.ledger.given := by
  rw [current, List.lookup_eq_some_iff] at h
  obtain ⟨before, after, hsplit, -⟩ := h
  rw [← List.mem_reverse, hsplit]
  simp

/-- A carrier is given to one object only. -/
theorem Tidy.given_unique (h : Tidy m) {y : ObjectId} (hx : (x, c) ∈ m.ledger.given)
    (hy : (y, c) ∈ m.ledger.given) : x = y :=
  congrArg Prod.fst (List.inj_on_of_nodup_map h.nodup_given hx hy rfl)

/-! ## Removals -/

theorem contains_heap_free (m : Machine) (id x : ObjectId) :
    (m.free id).heap.contains x = (x != id && m.heap.contains x) := by
  rw [← Std.ExtTreeMap.isSome_getElem?_eq_contains, getElem?_heap_free,
    ← Std.ExtTreeMap.isSome_getElem?_eq_contains]
  by_cases hx : x = id <;> simp [hx]

/-- The end of an object is told if it carries a payload that has a finalizer. -/
theorem countP_endOf (o : Object) (payload : String × String) :
    (endOf o).countP (Notice.finalizes payload) =
      if o.payload? = some ⟨payload.2, some payload.1⟩ then 1 else 0 := by
  unfold endOf
  split
  · next text tag h =>
    rw [h, List.countP_singleton]
    simp [Notice.finalizes, and_comm]
  · next h =>
    rw [if_neg fun heq ↦ h _ _ heq, List.countP_nil]

/-- The account of a removal, entry by entry. -/
theorem countP_lost_free {made : List (ObjectId × Payload)} (hnodup : (made.map Prod.fst).Nodup)
    (hmem : m.heap[id]? = some o) (hpayload : o.payload? = made.lookup id)
    (payload : String × String) :
    (endOf o).countP (Notice.finalizes payload) +
        made.countP (fun entry ↦ !m.heap.contains entry.1 &&
          entry.2 = (⟨payload.2, some payload.1⟩ : Payload)) =
      made.countP fun entry ↦ !(m.free id).heap.contains entry.1 &&
        entry.2 = (⟨payload.2, some payload.1⟩ : Payload) := by
  have hcontains : m.heap.contains id = true := by
    rw [Std.ExtTreeMap.contains_iff_mem]
    exact mem_heap_of_getElem? hmem
  rw [countP_endOf, hpayload]
  clear hpayload
  induction made with
  | nil => simp
  | cons entry made ih =>
    obtain ⟨c, p⟩ := entry
    rw [List.map_cons, List.nodup_cons] at hnodup
    rw [List.countP_cons, List.countP_cons, ← ih hnodup.2, contains_heap_free]
    by_cases hc : c = id
    · subst hc
      have hnone : made.lookup c = none := by
        rw [List.lookup_eq_none_iff]
        intro entry hentry
        have hne : entry.1 ≠ c := by
          rintro rfl
          exact hnodup.1 (List.mem_map.mpr ⟨entry, hentry, rfl⟩)
        simpa using hne.symm
      simp [hcontains, hnone]
      omega
    · have hlookup : ((c, p) :: made).lookup id = made.lookup id := by
        rw [List.lookup_cons, show (id == c) = false by simpa using Ne.symm hc]
      have hne : (c != id) = true := by simpa using hc
      rw [hlookup, hne, Bool.true_and]
      omega

theorem Tidy.free (h : Tidy m) (id : ObjectId) : Tidy (m.free id) where
  heap_lt hmem := h.heap_lt (Std.ExtTreeMap.mem_erase.mp hmem).2
  slots_lt := h.slots_lt
  target_lt := h.target_lt
  carriers_lt := h.carriers_lt
  nodup_carriers := h.nodup_carriers
  given_subset := h.given_subset
  nodup_given := h.nodup_given
  owners_lt := h.owners_lt
  payload? hx := by
    rw [getElem?_heap_free] at hx
    split at hx
    · cases hx
    · exact h.payload? hx

theorem Tidy.evolves_free (h : Tidy m) (id : ObjectId) : Evolves [] m (m.free id) where
  nextObject := Nat.le_refl _
  nextHandle := Nat.le_refl _
  slots := rfl
  pins := rfl
  isOpen := rfl
  globalHandle := rfl
  gone _ hmem := (Std.ExtTreeMap.mem_erase.mp hmem).2
  kept _ := native?_eq_of_heap fun ho ↦ ⟨_, of_getElem?_heap_free ho, rfl⟩
  makes := .of_heap fun ho ↦ ⟨_, of_getElem?_heap_free ho, rfl⟩
  made := ⟨[], by simp [Machine.free], by simp⟩
  given := ⟨[], (List.append_nil _).symm, by simp⟩
  isTouched h := h
  counts := .refl m
  trace := by
    refine ⟨((m.heap[id]?).map endOf).getD [], rfl, .none rfl ?_, fun payload ↦ ?_⟩
    · cases m.heap[id]? with
      | none => rfl
      | some o =>
        rw [Option.map_some, Option.getD_some]
        unfold endOf
        split <;> rfl
    · cases hmem : m.heap[id]? with
      | some o => exact countP_lost_free h.nodup_carriers hmem (h.payload? hmem) payload
      | none =>
        have hsame : (m.free id).heap = m.heap := by
          apply Std.ExtTreeMap.ext_getElem?
          intro x
          rw [getElem?_heap_free]
          split
          · rename_i hx
            rw [hx, hmem]
          · rfl
        rw [Option.map_none, Option.getD_none, List.countP_nil, Nat.zero_add]
        unfold lost
        rw [hsame]
        rfl

theorem Tidy.freeAll (h : Tidy m) (ids : List ObjectId) :
    Tidy (m.freeAll ids) ∧ Evolves [] m (m.freeAll ids) := by
  induction ids generalizing m with
  | nil => exact ⟨h, .refl m⟩
  | cons id ids ih =>
    obtain ⟨htidy, hevolves⟩ := ih (h.free id)
    exact ⟨htidy, (h.evolves_free id).trans hevolves⟩

theorem offers_freeAll (hid : id ∉ ids) (h : m.Offers id) : (m.freeAll ids).Offers id := by
  rw [Offers, mem_heap_freeAll]
  refine ⟨⟨hid, h.1⟩, ?_⟩
  rw [freeAll_eq]
  exact h.2

/-- Removing objects to which neither roots nor other objects refer leaves a machine sound. -/
theorem Sound.freeAll (h : Sound m) (hroots : ∀ id ∈ m.roots, id ∉ ids)
    (hrefs : ∀ {x o id}, x ∉ ids → m.heap[x]? = some o → id ∈ o.references → id ∉ ids) :
    Sound (m.freeAll ids) where
  toTidy := (h.toTidy.freeAll ids).1
  anchors := by rw [freeAll_eq]; exact h.anchors
  roots {id} hid := by
    have hroot : id ∈ m.roots := by rw [freeAll_eq] at hid; exact hid
    exact offers_freeAll (hroots id hroot) (h.roots hroot)
  targets hs htouched := by
    rw [freeAll_eq] at hs htouched ⊢
    exact h.targets hs htouched
  shown hx hid := by
    obtain ⟨hstay, ho⟩ := of_getElem?_heap_freeAll hx
    exact offers_freeAll (hrefs hstay ho (Object.mem_references_of_shown hid)) (h.shown ho hid)
  references hx hid := by
    obtain ⟨hstay, ho⟩ := of_getElem?_heap_freeAll hx
    exact mem_heap_freeAll.mpr ⟨hrefs hstay ho hid, h.references ho hid⟩
  hidden htouched hx := by
    obtain ⟨-, ho⟩ := of_getElem?_heap_freeAll hx
    rw [freeAll_eq] at htouched ⊢
    exact h.hidden htouched ho

/-- A round of removals keeps what is referred to or kept besides. -/
theorem Sound.freeAll_unreferenced (h : Sound m) (kept : List ObjectId) :
    Sound (m.freeAll (m.unreferenced kept)) := by
  apply h.freeAll
  · intro id hid hun
    exact (mem_unreferenced.mp hun).2 (mem_referenced.mpr (.inr (.inl hid)))
  · intro x o id _ ho hid hun
    exact (mem_unreferenced.mp hun).2 (mem_referenced.mpr (.inr (.inr ⟨x, o, ho, hid⟩)))

/-- What a machine has been settled to. -/
theorem Sound.settle (h : Sound m) (kept : List ObjectId) :
    Sound (m.settle kept) ∧ Evolves [] m (m.settle kept) ∧
      ∀ id ∈ kept, m.Offers id → (m.settle kept).Offers id := by
  refine settle_induction (P := fun m' ↦ Sound m' ∧ Evolves [] m m' ∧
    ∀ id ∈ kept, m.Offers id → m'.Offers id) kept ⟨h, .refl m, fun _ _ h ↦ h⟩ ?_
  rintro m' ⟨hsound, hevolves, hkept⟩
  refine ⟨hsound.freeAll_unreferenced kept, ?_, fun id hid hoffers ↦ ?_⟩
  · exact hevolves.trans (hsound.toTidy.freeAll _).2
  · refine offers_freeAll (fun hun ↦ ?_) (hkept id hid hoffers)
    exact (mem_unreferenced.mp hun).2 (mem_referenced.mpr (.inl hid))

theorem Sound.sweep (h : Sound m) : Sound m.sweep ∧ Evolves [] m m.sweep := by
  obtain ⟨hroots, hclosed⟩ := h.closed.reachable
  rw [sweep_eq]
  refine ⟨h.freeAll (fun id hid hswept ↦ ?_) (fun {x o id} hstay ho hid hswept ↦ ?_),
    (h.toTidy.freeAll _).2⟩
  · exact (mem_swept.mp hswept).2 (hroots id hid)
  · have hx : x ∈ m.reachable := by
      by_contra hx
      exact hstay (mem_swept.mpr ⟨mem_heap_of_getElem? ho, hx⟩)
    rw [← object_of_getElem? ho] at hid
    exact (mem_swept.mp hswept).2 (hclosed x hx id hid)

end Machine

end ScriptBridge.Script
