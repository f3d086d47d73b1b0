import ScriptBridge.Proofs.Script.Entrusting

/-!
# Where constructors come from

The constructor of a native class is made by an attempt to install the class, and by nothing else.
Objects are numbered in the order in which they are made, so the number of a constructor tells which
attempt it was. Whatever becomes of the class later, the constructor goes on with the finalizer that
the class had at that attempt.
-/

namespace ScriptBridge

open Script

/-- An attempt to install a class on a machine. -/
structure Installation where
  /-- The class, if an engine has it. -/
  id : Option ClassId
  spec : ClassSpec
  /-- The machine as it was before. -/
  found : Machine

namespace Installation

/-- What the attempt comes to. -/
def outcome (i : Installation) : Outcome Machine (Except Failure Unit) :=
  Backend.installClass i.spec i.found

/-- The native class whose constructor the attempt makes. -/
def native (i : Installation) : NativeClass := .of i.spec

/-- The object was made in the course of the attempt. -/
def Made (i : Installation) (x : ObjectId) : Prop :=
  i.found.nextObject ≤ x.index ∧ x.index < i.outcome.state.nextObject

end Installation

namespace Script.Machine

variable {m m' w w' : Machine} {exchanges : List Exchange} {attempts : List Installation}
  {made : List NativeClass} {native : NativeClass} {i : Installation} {x y id : ObjectId}

/-! ## Constructors of a machine -/

/-- Every constructor of a native class was made by one of the attempts to install one, for the
class of that attempt. -/
structure Traced (attempts : List Installation) (m : Machine) : Prop where
  steady : m.Steady
  past : ∀ i ∈ attempts, i.outcome.state.nextObject ≤ m.nextObject
  native : ∀ i ∈ attempts, ∀ ⦃x native⦄, i.Made x → m.native? x = some native → native = i.native
  origin : ∀ ⦃x native⦄, m.native? x = some native → ∃ i ∈ attempts, i.Made x

theorem traced_machine (isStrict : Bool) : Traced [] (Realm.machine isStrict) where
  steady := steady_machine isStrict
  past := List.forall_mem_nil _
  native := List.forall_mem_nil _
  origin x native hnative := by
    obtain ⟨o, ho, hclass⟩ := Option.bind_eq_some_iff.mp hnative
    rw [(Realm.native_of_heap ho).native?] at hclass
    cases hclass

theorem Traced.index_lt (h : Traced attempts m) (hi : i ∈ attempts) (hx : i.Made x) :
    x.index < m.nextObject :=
  Nat.lt_of_lt_of_le hx.2 (h.past i hi)

theorem Steady.index_lt_of_native? (h : m.Steady) (hnative : m.native? x = some native) :
    x.index < m.nextObject :=
  h.heap_lt (mem_heap_of_native? hnative)

theorem native?_of_callable? (h : (m.object x).callable? = some (.native native)) :
    m.native? x = some native := by
  unfold object at h
  unfold native?
  cases ho : m.heap[x]? with
  | none =>
    rw [ho] at h
    cases h
  | some o =>
    rw [ho] at h
    exact Object.native?_eq_some_iff.mpr h

/-- Requests that make no constructor leave those that there are. -/
theorem Traced.advances (h : Traced attempts m) (hsteady : m'.Steady)
    (hadvances : Advances [] m exchanges m') : Traced attempts m' where
  steady := hsteady
  past i hi := Nat.le_trans (h.past i hi) hadvances.nextObject
  native i hi x native hx hnative := by
    refine h.native i hi hx ?_
    rwa [← hadvances.kept (h.index_lt hi hx) (mem_heap_of_native? hnative)]
  origin x native hnative := by
    rcases hadvances.makes hnative with hbefore | ⟨-, hmade⟩
    · exact h.origin hbefore
    · cases hmade

/-- An attempt to install a class makes its constructor, and no other. -/
theorem Traced.install (h : Traced attempts m) (class? : Option ClassId) (spec : ClassSpec) :
    Traced (⟨class?, spec, m⟩ :: attempts) (Backend.installClass spec m).state := by
  obtain ⟨hsteady, hadvances⟩ := h.steady.whileOpen_plain (h.steady.installClass · spec)
  have hkept {x : ObjectId} {native : NativeClass} (hlt : x.index < m.nextObject)
      (hnative : (Backend.installClass spec m).state.native? x = some native) :
      m.native? x = some native := by
    rwa [← hadvances.kept hlt (mem_heap_of_native? hnative)]
  refine ⟨hsteady, List.forall_mem_cons.mpr ⟨Nat.le_refl _, fun i hi ↦ ?_⟩,
    List.forall_mem_cons.mpr ⟨fun x native hx hnative ↦ ?_, fun i hi x native hx hnative ↦ ?_⟩,
    fun x native hnative ↦ ?_⟩
  · exact Nat.le_trans (h.past i hi) hadvances.nextObject
  · rcases hadvances.makes hnative with hbefore | ⟨-, hmade⟩
    · exact absurd (h.steady.index_lt_of_native? hbefore) (Nat.not_lt.mpr hx.1)
    · exact List.mem_singleton.mp hmade
  · exact h.native i hi hx (hkept (h.index_lt hi hx) hnative)
  · rcases Nat.lt_or_ge x.index m.nextObject with hlt | hge
    · obtain ⟨i, hi, hx⟩ := h.origin (hkept hlt hnative)
      exact ⟨i, List.mem_cons_of_mem _ hi, hx⟩
    · exact ⟨_, List.mem_cons_self, hge, hsteady.index_lt_of_native? hnative⟩

/-- Anyone may have a constructor, since it carries no payload. -/
theorem Tidy.offers_of_native? (h : Tidy m) (hnative : m.native? x = some native) : m.Offers x := by
  obtain ⟨o, ho, hclass⟩ := Option.bind_eq_some_iff.mp hnative
  refine ⟨mem_heap_of_getElem? ho, fun _ hcarrier ↦ ?_⟩
  obtain ⟨⟨c, payload⟩, hmade, rfl⟩ := List.mem_map.mp hcarrier
  have hpayload : o.payload? = none := by
    unfold Object.native? at hclass
    unfold Object.payload?
    split at hclass
    · next hkind => rw [hkind]
    · cases hclass
  rw [h.payload? ho, List.lookup_eq_none_iff] at hpayload
  simpa using hpayload _ hmade

/-! ## Moments -/

/-- A moment of what is done on a machine. Some requests may be over that make no constructors, and
another one is under way, which may make constructors of these native classes. -/
structure Moment (made : List NativeClass) (m w : Machine) : Prop where
  sound : Sound w
  run : ∃ before exchanges held, before.Steady ∧ Advances [] m exchanges before ∧
    Unfolds made held before w

/-- A request begins. -/
theorem Moment.begin (h : m.Steady) (hopen : m.isOpen = true) : Moment made m m :=
  ⟨h.sound hopen, m, [], [], h, .refl m, .refl m⟩

/-- Interpretations hold on to what they work with. -/
theorem Moment.pinning (h : Moment made m w) {values : List Datum}
    (hvalues : ∀ id ∈ values.flatMap Datum.references, w.Offers id) :
    Moment made m { w with pins := values ++ w.pins } := by
  obtain ⟨before, exchanges, held, hsteady, hadvances, hunfolds⟩ := h.run
  exact ⟨h.sound.pinning hvalues, before, exchanges, held, hsteady, hadvances, { hunfolds with }⟩

/-- Whatever is safe leads from one moment to another. -/
theorem Moment.after {α : Type} {needs : List ObjectId} {action : Interp α}
    {gives : α → List ObjectId} (h : Moment made m w) (hx : Safe False w.pins needs action gives)
    (hneeds : ∀ id ∈ needs, w.Offers id) : Moment made m (action.run w).2 := by
  obtain ⟨before, exchanges, held, hsteady, hadvances, hunfolds⟩ := h.run
  obtain ⟨hevolves, hsound, -⟩ := hx h.sound False.elim rfl hneeds
  refine ⟨hsound, before, exchanges, held, hsteady, hadvances, ?_⟩
  have hlater := hunfolds.trans hevolves.of_none.toUnfolds
  rwa [List.append_nil] at hlater

/-- The constructor of a native class keeps to the class. What it builds is given the payload that
native code returns for it, with the finalizer of the class. -/
def KeepsTo (w : Machine) (x : ObjectId) (native : NativeClass) : Prop :=
  ∀ depth this arguments newTarget constructor y w', native.constructor = some constructor →
    (∀ z ∈ inputs x this arguments newTarget, w.Offers z) →
    (Interp.invokeWithin depth x this arguments newTarget).run w = (some (.object y), w') →
      ∃ less, depth = less + 1 ∧
        Builds (Interp.invokeWithin less) w native constructor arguments y w'

/-- Every constructor that there is at a moment keeps to its class, which is that of the attempt
that has made it. Those that no attempt on record has made are new, and of the classes of what is
under way. Whatever function is called, there is a moment afterwards. -/
structure Honours (attempts : List Installation) (made : List NativeClass) (m w : Machine) :
    Prop where
  goesOn : ∀ depth x this arguments newTarget,
    (∀ z ∈ inputs x this arguments newTarget, w.Offers z) →
      Moment made m ((Interp.invokeWithin depth x this arguments newTarget).run w).2
  keeps : ∀ x native, w.native? x = some native → w.KeepsTo x native
  native : ∀ i ∈ attempts, ∀ x native, i.Made x → w.native? x = some native → native = i.native
  origin : ∀ x native, w.native? x = some native →
    (∃ i ∈ attempts, i.Made x) ∨ m.nextObject ≤ x.index ∧ native ∈ made

/-- At any moment constructors keep to the attempts that have made them. -/
theorem Traced.honours (h : Traced attempts m) (hmoment : Moment made m w) :
    Honours attempts made m w := by
  obtain ⟨before, exchanges, held, hsteady, hadvances, hunfolds⟩ := hmoment.run
  have htraced := h.advances hsteady hadvances
  refine ⟨fun depth x this arguments newTarget hoffers ↦
    hmoment.after (faithful_invokeWithin depth known_self) hoffers,
    fun x native hnative depth this arguments newTarget constructor y w' hconstructor hoffers
    hrun ↦ hmoment.sound.builds_invoked hnative hconstructor hoffers hrun,
    fun i hi x native hx hnative ↦ ?_, fun x native hnative ↦ ?_⟩
  · refine htraced.native i hi hx ?_
    rwa [← hunfolds.kept (htraced.index_lt hi hx) (mem_heap_of_native? hnative)]
  · rcases hunfolds.makes hnative with hbefore | ⟨hnew, hmade⟩
    · exact .inl (htraced.origin hbefore)
    · exact .inr ⟨Nat.le_trans hadvances.nextObject hnew, hmade⟩

/-! ## Carriers -/

/-- A carrier has the payload that it was made for. -/
theorem Tidy.payload_of_made (h : Tidy m) {c : ObjectId} {payload : Payload} {o : Object}
    (hmade : (c, payload) ∈ m.ledger.made) (ho : m.heap[c]? = some o) :
    o.payload? = some payload := by
  rw [h.payload? ho]
  obtain ⟨before, after, hsplit⟩ := List.append_of_mem hmade
  have hnodup := h.nodup_carriers
  rw [carriers, hsplit, List.map_append, List.nodup_append] at hnodup
  refine List.lookup_eq_some_iff.mpr ⟨before, after, hsplit, fun entry hentry ↦ ?_⟩
  have hne := hnodup.2.2 entry.1 (List.mem_map_of_mem hentry) c List.mem_cons_self
  simpa using hne.symm

end Script.Machine

end ScriptBridge
