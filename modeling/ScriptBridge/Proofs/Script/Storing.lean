import Mathlib.Logic.Relation
import ScriptBridge.Proofs.Script.Carrying
import ScriptBridge.Proofs.Script.Ground

/-!
# Values on objects

Native code puts a value on an object and reads it again. Where the object has a data property that
can be written, or takes a new one that hides nothing but such properties, no script is run by
either request, and the value comes back. Nothing else changes, but for the prototype of a function
that had been put off and is made when it is hidden.

A handle that is not rooted keeps nothing alive. If the object is only kept by a ring that leads
through the replaced property, it goes with the old value, and the second request does not find it.
-/

namespace ScriptBridge.Script

variable {key other : String} {d : Datum} {x y q id : ObjectId} {p : Property} {next : Nat}

/-! ## Changes of objects -/

/-- The property is read and written without a script being run. -/
structure Property.IsAssignable (p : Property) : Prop where
  writable : p.flags.writable = true
  content : ∀ getter setter, p.content ≠ .accessor getter setter

/-- A property of an object is as it was, or it had been put off and has been made, with a new
object for its value. -/
inductive Property.Remains (next : Nat) : Option Property → Option Property → Prop
  | same (p : Option Property) : Remains next p p
  | made {flags : Flags} {id : ObjectId} (hnew : next ≤ id.index) :
    Remains next (some ⟨.deferred, flags⟩) (some ⟨.data (.object id), flags⟩)

namespace Object

variable {o o' : Object}

/-- An object is as it was, but for some of its properties. -/
structure Keeps (next : Nat) (changed : String → Prop) (o o' : Object) : Prop where
  kind : o'.kind = o.kind
  prototype : o'.prototype = o.prototype
  extensible : o'.extensible = o.extensible
  tag : o'.tag = o.tag
  own? : ∀ {key}, ¬ changed key → Property.Remains next (o.own? key) (o'.own? key)

/-- An object is as it was, but the property of a key may have been made that had been put off. -/
inductive Settles (next : Nat) (key : String) (o : Object) : Object → Prop
  | same : Settles next key o o
  | made {flags : Flags} {id : ObjectId} (hown : o.own? key = some ⟨.deferred, flags⟩)
    (hnew : next ≤ id.index) : Settles next key o (o.put key ⟨.data (.object id), flags⟩)

theorem putEntry_putEntry (key : String) (p p' : Property) (entries : List (String × Property)) :
    putEntry key p' (putEntry key p entries) = putEntry key p' entries := by
  induction entries with
  | nil => simp [putEntry]
  | cons entry entries ih =>
    obtain ⟨k, q⟩ := entry
    by_cases hk : k = key
    · simp [putEntry, hk]
    · simp [putEntry, hk, ih]

/-- What was put last counts. -/
theorem put_put (o : Object) (key : String) (p p' : Property) :
    (o.put key p).put key p' = o.put key p' := by
  simp only [put, putEntry_putEntry]

/-- An entry is only lost if it is the one that is replaced. -/
theorem mem_putEntry_or_lookup {entry : String × Property} {entries : List (String × Property)}
    (h : entry ∈ entries) (key : String) (p : Property) :
    entry ∈ putEntry key p entries ∨ entries.lookup key = some entry.2 := by
  induction entries with
  | nil => cases h
  | cons first entries ih =>
    obtain ⟨k, q⟩ := first
    by_cases hk : k = key
    · subst hk
      rcases List.mem_cons.mp h with rfl | h
      · exact .inr (by simp)
      · exact .inl (by simp [putEntry, h])
    · have hlookup : ((k, q) :: entries).lookup key = entries.lookup key := by
        rw [List.lookup_cons, beq_false_of_ne (Ne.symm hk)]
      rw [putEntry, if_neg hk, hlookup]
      rcases List.mem_cons.mp h with rfl | h
      · exact .inl List.mem_cons_self
      · exact (ih h).imp_left (List.mem_cons_of_mem _)

theorem keeps_put (o : Object) (key : String) (p : Property) :
    o.Keeps next (· = key) (o.put key p) :=
  ⟨rfl, rfl, rfl, rfl, fun hne ↦ by rw [own?_put_of_ne o hne]; exact .same _⟩

namespace Settles

theorem put (h : o.Settles next key o') (p : Property) : o'.put key p = o.put key p := by
  cases h with
  | same => rfl
  | made hown hnew => exact put_put o key _ p

theorem isArray (h : o.Settles next key o') : o'.isArray = o.isArray := by
  cases h <;> rfl

theorem extensible (h : o.Settles next key o') : o'.extensible = o.extensible := by
  cases h <;> rfl

/-- What has been put off refers to nothing. -/
theorem references (h : o.Settles next key o') (hid : id ∈ o.references) : id ∈ o'.references := by
  cases h with
  | same => exact hid
  | @made flags made hown hnew =>
    rcases mem_references.mp hid with hprototype | hkind | ⟨entry, hentry, hid⟩
    · exact mem_references.mpr (.inl hprototype)
    · exact mem_references.mpr (.inr (.inl hkind))
    · rcases mem_putEntry_or_lookup hentry key ⟨.data (.object made), flags⟩ with hkept | hlookup
      · exact mem_references.mpr (.inr (.inr ⟨entry, hkept, hid⟩))
      · rw [← Option.some.inj (hown.symm.trans hlookup)] at hid
        cases hid

theorem keeps (h : o.Settles next key o') : o.Keeps next (fun _ ↦ False) o' := by
  cases h with
  | same => exact ⟨rfl, rfl, rfl, rfl, fun _ ↦ .same _⟩
  | @made flags made hown hnew =>
    refine ⟨rfl, rfl, rfl, rfl, fun {other} _ ↦ ?_⟩
    by_cases hkey : other = key
    · subst hkey
      rw [own?_put_self, hown]
      exact .made hnew
    · rw [own?_put_of_ne o hkey]
      exact .same _

end Settles

end Object

namespace Machine

variable {m m' : Machine} {o : Object} {config : Config} {history : List Exchange} {k : Handle}
  {v : Value}

/-! ## Objects that take a value -/

/-- An object inherits from another one, or is it. -/
def Inherits (m : Machine) : ObjectId → ObjectId → Prop :=
  Relation.ReflTransGen fun x parent ↦ (m.object x).prototype = some parent

/-- An object takes a value for a key without a script being run: it has such a property of its
own, or it may get one and inherits none that forbids that. -/
inductive Takes (m : Machine) (x : ObjectId) (key : String) : Prop
  | own {p : Property} (hown : (m.object x).own? key = some p) (hp : p.IsAssignable)
  | new (hown : (m.object x).own? key = none) (hextensible : (m.object x).extensible = true)
    (hinherited : ∀ y p, m.Inherits x y → (m.object y).own? key = some p → p.IsAssignable)

theorem object_congr (hheap : m'.heap = m.heap) : m'.object = m.object := by
  funext x
  rw [object, hheap, object]

theorem Takes.congr (h : m.Takes x key) (hheap : m'.heap = m.heap) : m'.Takes x key := by
  have hobject := object_congr hheap
  cases h with
  | own hown hp => exact .own (hobject ▸ hown) hp
  | new hown hextensible hinherited =>
    refine .new (hobject ▸ hown) (hobject ▸ hextensible) fun y p hy hp ↦ ?_
    unfold Inherits at hy
    rw [hobject] at hy hp
    exact hinherited y p hy hp

theorem inherits_of_find? (h : m.find? x key = some (q, p)) : m.Inherits x q :=
  of_mem_chainWithin (P := m.Inherits x) (fun _ hy _ hparent ↦ hy.tail hparent) .refl
    (mem_chain_of_find? h)

/-- Whatever is found for the key stands in nobody's way. -/
theorem Takes.find? (h : m.Takes x key) (hx : x ∈ m.heap) :
    (m.find? x key = none ∧ (m.object x).extensible = true) ∨
      ∃ q p, m.find? x key = some (q, p) ∧ p.IsAssignable ∧
        (q = x ∨ (m.object x).extensible = true) := by
  cases h with
  | own hown hp => exact .inr ⟨x, _, find?_eq_of_own hx hown, hp, .inl rfl⟩
  | new hown hextensible hinherited =>
    cases hfind : m.find? x key with
    | none => exact .inl ⟨rfl, hextensible⟩
    | some found =>
      obtain ⟨q, p⟩ := found
      exact .inr ⟨q, p, rfl, hinherited q p (inherits_of_find? hfind) (own?_of_find? hfind),
        .inr hextensible⟩

/-! ## Assignment -/

/-- Nothing has happened, but the property of a key may have been made where it had been put
off. -/
structure Settles (m : Machine) (key : String) (m' : Machine) : Prop where
  frame : m' = { m with heap := m'.heap, nextObject := m'.nextObject, ledger := m'.ledger }
  objects : ∀ {y : ObjectId} {o : Object}, m.heap[y]? = some o →
    ∃ o', m'.heap[y]? = some o' ∧ o.Settles m.nextObject key o'

/-- A datum has been stored on an object, and otherwise nothing has happened. -/
structure Stores (m : Machine) (x : ObjectId) (key : String) (d : Datum) (m' : Machine) :
    Prop where
  frame : m' = { m with heap := m'.heap, nextObject := m'.nextObject, ledger := m'.ledger }
  target : ∀ {o : Object}, m.heap[x]? = some o →
    ∃ flags, m'.heap[x]? = some (o.put key ⟨.data d, flags⟩)
  others : ∀ {y : ObjectId} {o : Object}, y ≠ x → m.heap[y]? = some o →
    ∃ o', m'.heap[y]? = some o' ∧ o.Settles m.nextObject key o'

/-- To name a property is noted, and that is all. -/
theorem exists_touched_eq (key : String) (m : Machine) :
    ∃ ledger, m.touched key = { m with ledger } := by
  unfold touched
  split
  · exact ⟨_, rfl⟩
  · exact ⟨m.ledger, rfl⟩

theorem settles_touched (key : String) (m : Machine) : m.Settles key (m.touched key) := by
  obtain ⟨ledger, htouched⟩ := exists_touched_eq key m
  rw [htouched]
  exact ⟨rfl, fun ho ↦ ⟨_, ho, .same⟩⟩

theorem Settles.object (h : m.Settles key m') (hx : x ∈ m.heap) :
    (m.object x).Settles m.nextObject key (m'.object x) := by
  obtain ⟨o', ho', hsettles⟩ := h.objects (getElem?_of_mem hx)
  rwa [object_of_getElem? ho']

theorem Settles.of_touched (h : (m.touched key).Settles key m') : m.Settles key m' := by
  unfold touched at h
  split at h
  · exact ⟨h.frame, h.objects⟩
  · exact h

/-- The value of a property that has been put off is made. -/
theorem run_settleProperty_of_deferred {flags : Flags} (hfresh : m.fresh ∉ m.heap)
    (hown : (m.object q).own? key = some ⟨.deferred, flags⟩) :
    ∃ m', (Interp.settleProperty q key).run m = (some (), m') ∧ m.Settles key m' := by
  let made := (Object.empty .ordinary (some Realm.objectPrototype)).withData
    "constructor" (.object q) .hidden
  let put := (m.placed made).update q (·.put key ⟨.data (.object m.fresh), flags⟩)
  refine ⟨put, ?_, rfl, fun {y o} ho ↦ ?_⟩
  · unfold Interp.settleProperty
    rw [run_bind_of (run_object m q), hown]
    dsimp only
    unfold Interp.makeDeferred
    rw [Interp.run_bind, run_bind_of (run_allocate rfl m)]
    rfl
  · have hne : y ≠ m.fresh := ne_of_mem_of_not_mem (mem_heap_of_getElem? ho) hfresh
    rw [getElem?_heap_update]
    split
    · next heq =>
      subst heq
      rw [getElem?_heap_placed, if_neg hne, ho]
      rw [object_of_getElem? ho] at hown
      exact ⟨_, rfl, .made hown (Nat.le_refl _)⟩
    · rw [getElem?_heap_placed, if_neg hne, ho]
      exact ⟨o, rfl, .same⟩

namespace Stores

/-- After the assignment itself the object has the datum. -/
theorem of_settles (h : m.Settles key m') (flags : Flags) :
    m.Stores x key d (m'.update x (·.put key ⟨.data d, flags⟩)) where
  frame := congrArg
    (fun n : Machine ↦ { n with heap := (m'.update x (·.put key ⟨.data d, flags⟩)).heap }) h.frame
  target ho := by
    obtain ⟨o', ho', hsettles⟩ := h.objects ho
    exact ⟨flags, by rw [getElem?_heap_update, if_pos rfl, ho', Option.map_some, hsettles.put]⟩
  others hne ho := by
    rw [getElem?_heap_update, if_neg hne]
    exact h.objects ho

/-- Values that are in use make no difference. -/
theorem withPins {held after : Machine} {pins : List Datum} (h : Stores held x key d after)
    (hheld : held = { m with pins }) : m.Stores x key d { after with pins := m.pins } := by
  subst hheld
  exact ⟨congrArg (fun n : Machine ↦ { n with pins := m.pins }) h.frame, h.target, h.others⟩

theorem slots (h : m.Stores x key d m') : m'.slots = m.slots :=
  (congrArg Machine.slots h.frame).trans rfl

theorem nextHandle (h : m.Stores x key d m') : m'.nextHandle = m.nextHandle :=
  (congrArg Machine.nextHandle h.frame).trans rfl

theorem roots (h : m.Stores x key d m') : m'.roots = m.roots :=
  (congrArg Machine.roots h.frame).trans rfl

/-- A path to an object survives, unless it leads through the target, which can then be reached. -/
theorem reaches (h : m.Stores x key d m') (hy : m.Reaches y) : m'.Reaches x ∨ m'.Reaches y := by
  induction hy with
  | root hroot => exact .inr (.root (h.roots.symm ▸ hroot))
  | @step z id o _ ho hid ih =>
    rcases ih with hx | hz
    · exact .inl hx
    · by_cases heq : z = x
      · exact .inl (heq ▸ hz)
      · obtain ⟨o', ho', hsettles⟩ := h.others heq ho
        exact .inr (.step hz ho' (hsettles.references hid))

/-- Nothing has changed but the property of the target. -/
theorem keeps (h : m.Stores x key d m') (ho : m.heap[y]? = some o) : ∃ o',
    m'.heap[y]? = some o' ∧ o.Keeps m.nextObject (fun other ↦ y = x ∧ other = key) o' := by
  by_cases heq : y = x
  · subst heq
    obtain ⟨flags, ho'⟩ := h.target ho
    have hkeeps : o.Keeps m.nextObject (· = key) (o.put key ⟨.data d, flags⟩) :=
      o.keeps_put key _
    exact ⟨_, ho', { hkeeps with own? := fun hne ↦ hkeeps.own? fun hkey ↦ hne ⟨rfl, hkey⟩ }⟩
  · obtain ⟨o', ho', hsettles⟩ := h.others heq ho
    exact ⟨o', ho', { hsettles.keeps with own? := fun _ ↦ hsettles.keeps.own? id }⟩

end Stores

/-- An assignment to an object that has the property, or may get it. -/
theorem Settles.run_assignData (h : m.Settles key m') (hx : x ∈ m.heap)
    (hisArray : (m.object x).isArray = false) (hp : p.IsAssignable)
    (hq : q = x ∨ (m.object x).extensible = true) (invoke : Invoke) (d : Datum) : ∃ after,
      (Interp.assignData invoke q p (.object x) key d).run m' = (some none, after) ∧
        m.Stores x key d after := by
  have hobject := h.object hx
  rw [← hobject.isArray] at hisArray
  by_cases heq : q = x
  · subst heq
    refine ⟨_, ?_, .of_settles h p.flags⟩
    rw [run_assignData_own hisArray, if_pos hp.writable]
  · refine ⟨_, ?_, .of_settles h .plain⟩
    have hextensible := hobject.extensible.trans (hq.resolve_left heq)
    have hother : Datum.object x ≠ .object q := fun h ↦ heq (Datum.object.inj h).symm
    unfold Interp.assignData
    simp only [hother, decide_false, Bool.false_and, Bool.false_eq_true, if_false, hp.writable,
      Bool.not_true]
    rw [run_bind_of (run_object m' q), run_assignNew hisArray, if_pos hextensible]

/-- An assignment to an object that takes it runs no script. -/
theorem Takes.run_assign (h : m.Takes x key) (hx : x ∈ m.heap) (hfresh : m.fresh ∉ m.heap)
    (hisArray : (m.object x).isArray = false) (invoke : Invoke) (d : Datum) :
    ∃ m', (Interp.assign invoke x key d).run m = (some none, m') ∧ m.Stores x key d m' := by
  have htouched := settles_touched key m
  unfold Interp.assign Interp.assignFrom
  rw [run_bind_of (run_touch_eq key m), run_bind_of (run_view_find? _ x key),
    find?_congr (heap_touched key m)]
  rcases h.find? hx with ⟨hfind, hextensible⟩ | ⟨q, p, hfind, hp, hq⟩
  · rw [hfind]
    have hobject := htouched.object hx
    refine ⟨_, ?_, .of_settles htouched .plain⟩
    dsimp only
    rw [run_assignNew (hobject.isArray.trans hisArray),
      if_pos (hobject.extensible.trans hextensible)]
  · rw [hfind]
    dsimp only
    cases hcontent : p.content with
    | data => exact htouched.run_assignData hx hisArray hp hq invoke d
    | accessor getter setter => exact absurd hcontent (hp.content getter setter)
    | deferred =>
      have hown : ((m.touched key).object q).own? key = some ⟨.deferred, p.flags⟩ := by
        rw [object_congr (heap_touched key m), own?_of_find? hfind, ← hcontent]
      have hfresh : (m.touched key).fresh ∉ (m.touched key).heap := by
        obtain ⟨ledger, htouched⟩ := exists_touched_eq key m
        rwa [htouched]
      obtain ⟨settled, hrun, hsettles⟩ := run_settleProperty_of_deferred hfresh hown
      rw [run_bind_of hrun]
      exact hsettles.of_touched.run_assignData hx hisArray hp hq invoke d

/-! ## Requests -/

theorem resolveLive_of_lookup (h : m.lookup k = .ok (some x)) : m.resolveLive k = .ok x := by
  obtain ⟨-, hresolve⟩ := lookup_eq_ok h
  unfold Machine.resolveLive
  rw [hresolve]

/-- Every value has a datum, if the handle of an object leads to it. -/
theorem exists_ofValue (h : ∀ handle, v = .object handle → ∃ y, m.lookup handle = .ok (some y)) :
    ∃ d, m.ofValue v = .ok d := by
  cases v with
  | object handle =>
    obtain ⟨y, hy⟩ := h handle rfl
    exact ⟨.object y, by rw [ofValue, resolveLive_of_lookup hy]; rfl⟩
  | _ => exact ⟨_, rfl⟩

theorem run_onLive {α : Type} {run : ObjectId → Interp (Except Failure α)}
    {result : Except Failure α} {after : Machine} (hlive : m.resolveLive k = .ok x)
    (hrun : (run x).run { m with pins := [.object x] ++ m.pins } = (some result, after)) :
    Machine.onLive k run m = (result, { after with pins := m.pins }) := by
  unfold Machine.onLive Machine.interpret
  rw [hlive]
  dsimp only
  rw [run_holding, hrun]

/-- A request to put a value on an object that takes it. -/
theorem Takes.setProperty (h : m.Takes x key) (hlive : m.resolveLive k = .ok x)
    (hd : m.ofValue v = .ok d) (hx : x ∈ m.heap) (hfresh : m.fresh ∉ m.heap)
    (hisArray : (m.object x).isArray = false) :
    ∃ m', Machine.setProperty k key v m = (.ok (), m') ∧ m.Stores x key d m' := by
  let held : Machine := { m with pins := [.object x] ++ m.pins }
  have hheld : held.Takes x key := h.congr rfl
  obtain ⟨after, hassign, hstores⟩ := hheld.run_assign hx hfresh hisArray Interp.invoke d
  have hview : (Interp.view (ofValue v)).run held = (some (.ok d), held) := by
    rw [← hd]
    cases v <;> rfl
  have hthrow : (Interp.assignOrThrow Interp.invoke x key d).run held = (some (), after) := by
    unfold Interp.assignOrThrow
    rw [run_bind_of hassign]
    rfl
  refine ⟨{ after with pins := m.pins }, run_onLive hlive ?_, hstores.withPins rfl⟩
  rw [run_bind_of hview]
  dsimp only
  rw [run_bind_of hthrow]
  rfl

theorem run_read_shown {invoke : Invoke} (ho : m.heap[x]? = some o) (h : o.Shows key d) :
    (Interp.read invoke x key).run m = (some d, m.touched key) := by
  obtain ⟨flags, hown⟩ := h
  have hfind : (m.touched key).find? x key = some (x, ⟨.data d, flags⟩) :=
    (find?_congr (heap_touched key m) x key).trans (find?_of_own ho hown)
  unfold Interp.read Interp.readFor
  rw [run_bind_of (run_touch_eq key m), run_bind_of (run_view_find? _ x key), hfind]
  rfl

/-- A request for a property whose value was put there in another machine. -/
theorem getProperty_of_shows {origin : Machine} (hlive : m.resolveLive k = .ok x)
    (ho : m.heap[x]? = some o) (hshows : o.Shows key d) (hd : origin.ofValue v = .ok d) :
    ∃ ledger, (∃ w, Machine.getProperty k key m = (.ok w, { m with ledger }) ∧
        v.asObject? = none ∧ ∀ m m', Returns m m' v w) ∨
      ∃ handle y, v = .object handle ∧ origin.resolveLive handle = .ok y ∧
        Machine.getProperty k key m = ((({ m with ledger } : Machine).handOut y).1.map .object,
          (({ m with ledger } : Machine).handOut y).2) := by
  let held : Machine := { m with pins := [.object x] ++ m.pins }
  obtain ⟨ledger, htouched⟩ := exists_touched_eq key held
  let named : Machine := { held with ledger }
  have hread : (Interp.read Interp.invoke x key).run held = (some d, named) := by
    show _ = (some d, { held with ledger })
    rw [← htouched]
    exact run_read_shown ho hshows
  refine ⟨ledger, ?_⟩
  rcases run_handOver_ofValue hd Interp.invoke named with
    ⟨w, hrun, hplain, hreturns⟩ | ⟨handle, y, hv, hy, hrun⟩
  · have hget : Machine.getProperty k key m = (.ok w, { named with pins := m.pins }) :=
      run_onLive hlive ((run_bind_of hread).trans hrun)
    exact .inl ⟨w, hget, hplain, hreturns⟩
  · have hget : Machine.getProperty k key m = ((named.handOut y).1.map .object,
        { (named.handOut y).2 with pins := m.pins }) :=
      run_onLive hlive ((run_bind_of hread).trans hrun)
    refine .inr ⟨handle, y, hv, hy, hget.trans ?_⟩
    rcases Nat.lt_or_ge m.nextHandle mostHandles with hroom | hfull
    · rw [handOut_of_lt (m := named) hroom, handOut_of_lt (m := { m with ledger }) hroom]
      rfl
    · rw [handOut_of_le (m := named) hfull, handOut_of_le (m := { m with ledger }) hfull]

/-! ## What comes back -/

/-- A later machine differs from an earlier one by no property of an object that can still be
reached, but for one of the target, and handles that were rooted lead where they led. -/
structure Spares (m : Machine) (x : ObjectId) (key : String) (m' : Machine) : Prop where
  objects : ∀ {y : ObjectId} {o : Object}, m.heap[y]? = some o → m'.Reaches y →
    ∃ o', m'.heap[y]? = some o' ∧ o.Keeps m.nextObject (fun other ↦ y = x ∧ other = key) o'
  handles : ∀ {k : Handle} {s : Slot}, m.slots[k]? = some s → s.isRooted = true →
    m.lookup k = .ok (some s.target) ∧ m'.lookup k = .ok (some s.target)

/-- The end of a request removes objects only. -/
theorem Stores.spares {later : Machine} {α : Type} {result : α} (h : m.Stores x key d m')
    (hm : Steady m) (hlater : Steady (later.conclude result).state) (hopen : later.isOpen = true)
    (hheap : ∀ {y : ObjectId} {o : Object}, later.heap[y]? = some o → m'.heap[y]? = some o)
    (hslots : ∀ {k : Handle} {s : Slot}, m.slots[k]? = some s → later.slots[k]? = some s) :
    m.Spares x key (later.conclude result).state where
  objects {y o} ho hreach := by
    have hsound := hlater.sound ((isOpen_conclude later result).trans hopen)
    obtain ⟨o', ho'⟩ := mem_heap_iff.mp (hsound.closed.mem_of_reaches hreach)
    obtain ⟨kept, hkept, hkeeps⟩ := h.keeps ho
    obtain rfl : o' = kept :=
      Option.some.inj ((hheap (of_getElem?_heap_settle ho')).symm.trans hkept)
    exact ⟨o', ho', hkeeps⟩
  handles hs hrooted := by
    have hs' := hslots hs
    rw [← slots_conclude later result] at hs'
    exact ⟨(hm.of_rooted hs hrooted).1, (hlater.of_rooted hs' hrooted).1⟩

/-- What a request for a property leaves behind: everything that there was, and at most one handle
more. -/
theorem Steady.reads {origin : Machine} {s : Slot} (h : Steady m) (hs : m.slots[k]? = some s)
    (hshows : ∀ o, m.heap[s.target]? = some o → o.Shows key d)
    (horigin : origin.isOpen = true) (hd : origin.ofValue v = .ok d)
    (hnext : origin.nextHandle = m.nextHandle) :
    ∃ (later : Machine) (result : Except Failure Value),
      Backend.getProperty k key m = later.conclude result ∧ later.heap = m.heap ∧
      later.isOpen = true ∧
      (∀ {k : Handle} {s : Slot}, m.slots[k]? = some s → later.slots[k]? = some s) ∧
      (s.target ∈ m.heap → (∀ handle, v = .object handle → origin.nextHandle < mostHandles) →
        ∃ w, result = .ok w ∧ Returns origin (later.conclude result).state v w) ∧
      (s.target ∈ m.heap → ∀ handle, v = .object handle → mostHandles ≤ origin.nextHandle →
        result = .error noHandleLeft) ∧
      (s.target ∉ m.heap → result = .error (.unknownHandle k)) := by
  have hopen := h.isOpen_of_slot hs
  have hrequest : Backend.getProperty k key m = _ :=
    whileOpen_of_isOpen hopen (Machine.getProperty k key)
  have hsteady : Steady (Backend.getProperty k key m).state :=
    (h.dealing (.getProperty k key m)).1
  by_cases hmem : s.target ∈ m.heap
  · obtain ⟨o, ho⟩ := mem_heap_iff.mp hmem
    have hlive := resolveLive_of_lookup (h.lookup_iff.mpr ⟨s, hs, rfl, hmem⟩)
    obtain ⟨ledger, ⟨w, hget, hplain, hreturns⟩ | ⟨handle, y, rfl, hy, hget⟩⟩ :=
      getProperty_of_shows hlive ho (hshows o ho) hd
    · rw [hget] at hrequest
      refine ⟨_, _, hrequest, rfl, hopen, id, fun _ _ ↦ ⟨w, rfl, hreturns _ _⟩, ?_, absurd hmem⟩
      rintro - handle rfl
      cases hplain
    · rcases Nat.lt_or_ge m.nextHandle mostHandles with hroom | hfull
      · rw [handOut_of_lt (m := { m with ledger }) hroom] at hget
        rw [hget] at hrequest
        rw [hrequest] at hsteady
        have hbefore : origin.lookup handle = .ok (some y) := by
          rw [Machine.lookup, if_pos horigin, resolve_of_resolveLive hy]
        let later : Machine := (({ m with ledger } : Machine).issue y).2
        have hnew : later.slots[(⟨m.nextHandle⟩ : Handle)]? = some ⟨y, true⟩ :=
          Std.ExtTreeMap.getElem?_insert_self
        have hold {k : Handle} {s : Slot} (hs : m.slots[k]? = some s) :
            later.slots[k]? = some s := by
          refine (getElem?_slots_issue { m with ledger } y k).trans ?_
          rw [if_neg fun hk ↦ Nat.lt_irrefl _ (hk ▸ h.slots_lt hs), hs]
        rw [← slots_conclude later (.ok (.object ⟨m.nextHandle⟩) : Except Failure Value)] at hnew
        refine ⟨later, _, hrequest, rfl, hopen, hold, fun _ _ ↦ ⟨_, rfl, ?_⟩, ?_, absurd hmem⟩
        · exact .object hbefore (Nat.le_of_eq hnext) (hsteady.of_rooted hnew rfl).1
        · exact fun _ _ _ hfull ↦ absurd (hnext ▸ hroom) (Nat.not_lt.mpr hfull)
      · rw [handOut_of_le (m := { m with ledger }) hfull] at hget
        rw [hget] at hrequest
        refine ⟨_, _, hrequest, rfl, hopen, id, fun _ hroom ↦ ?_, fun _ _ _ _ ↦ rfl, absurd hmem⟩
        exact absurd (hnext ▸ hroom handle rfl) (Nat.not_lt.mpr hfull)
  · have hdead (x : ObjectId) : m.resolve k ≠ .ok (some x) := by
      intro hresolve
      obtain ⟨s', hs', rfl⟩ := target_of_resolve hresolve
      obtain rfl : s = s' := Option.some.inj (hs.symm.trans hs')
      exact hmem ((h.sound hopen).offers_resolve hresolve).1
    have hget : Machine.getProperty k key m = (.error (.unknownHandle k), m) := by
      unfold Machine.getProperty Machine.onLive
      rw [resolveLive_of_dead hdead]
    rw [hget] at hrequest
    exact ⟨m, _, hrequest, rfl, hopen, id, fun hx ↦ absurd hx hmem, fun hx ↦ absurd hx hmem,
      fun _ ↦ rfl⟩

/-- A request to put a value on a live object that takes it succeeds. -/
theorem Steady.stores (h : Steady m) (hlive : m.lookup k = .ok (some x))
    (hisArray : (m.object x).isArray = false) (htakes : m.Takes x key)
    (hvalue : ∀ handle, v = .object handle → ∃ y, m.lookup handle = .ok (some y)) :
    ∃ d m', m.ofValue v = .ok d ∧ Backend.setProperty k key v m = m'.conclude (.ok ()) ∧
      m.Stores x key d m' ∧ Underway [] m [] m' := by
  obtain ⟨hopen, -⟩ := lookup_eq_ok hlive
  obtain ⟨-, -, -, hx⟩ := h.lookup_iff.mp hlive
  obtain ⟨d, hd⟩ := exists_ofValue hvalue
  obtain ⟨m', hset, hstores⟩ := htakes.setProperty (resolveLive_of_lookup hlive) hd hx
    h.fresh_notMem hisArray
  have hunderway := h.setProperty hopen k key v
  have hrequest : Backend.setProperty k key v m = _ :=
    whileOpen_of_isOpen hopen (Machine.setProperty k key v)
  rw [hset] at hunderway hrequest
  exact ⟨d, m', hd, hrequest, hstores, hunderway⟩

/-- The global object of a fresh machine takes a value for a name that is not there yet. -/
theorem Ground.takes {g f : Object} (h : Ground g f m) (hown : g.own? key = none)
    (hkey : key ∉ rootKeys) : m.Takes Realm.globalObject key := by
  have hg : m.object Realm.globalObject = g := object_of_getElem? h.global
  obtain ⟨root, hroot, hlast, -, hlacks⟩ := h.root
  have hroot : m.object Realm.objectPrototype = root := object_of_getElem? hroot
  refine .new (by rw [hg, hown]) (by rw [hg, h.guides.extensible]) fun y p hy hp ↦ ?_
  rcases hy.cases_head with rfl | ⟨parent, hparent, hy⟩
  · rw [hg, hown] at hp
    cases hp
  · rw [hg, h.guides.prototype] at hparent
    obtain rfl := Option.some.inj hparent
    rcases hy.cases_head with rfl | ⟨parent, hparent, -⟩
    · rw [hroot, hlacks key hkey] at hp
      cases hp
    · rw [hroot, hlast] at hparent
      cases hparent

end Machine

end ScriptBridge.Script
