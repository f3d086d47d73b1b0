import ScriptBridge.Proofs.Script.Making

/-!
# Attaching payloads

A payload is put on a carrier, and the object is made to refer to it. As long as nobody has named
the property of carriers, that property is either missing or holds the carrier before, so the
definition calls no functions: it is refused, or it replaces the one carrier by the other.
-/

namespace ScriptBridge.Script

open Machine

variable {t : Prop} {pins : List Datum} {needs : List ObjectId} {id x c : ObjectId}
  {invoke : Invoke} {m m' : Machine} {payload : Payload}

theorem Object.contentsAt_putEntry_self (key : String) (p : Property)
    (entries : List (String × Property)) :
    contentsAt key (putEntry key p entries) = p.content :: (contentsAt key entries).tail := by
  induction entries with
  | nil => simp [putEntry, contentsAt]
  | cons entry entries ih =>
    obtain ⟨k, q⟩ := entry
    by_cases hk : k = key
    · simp [putEntry, contentsAt, hk]
    · simp [putEntry, contentsAt, hk, ih]

/-- The first content under a key is that of the own property. -/
theorem Object.head?_contentsAt (key : String) (entries : List (String × Property)) :
    (contentsAt key entries).head? = (entries.lookup key).map Property.content := by
  induction entries with
  | nil => rfl
  | cons entry entries ih =>
    obtain ⟨k, q⟩ := entry
    by_cases hk : k = key
    · simp [contentsAt, hk]
    · have hne : (key == k) = false := by simpa using Ne.symm hk
      simp [contentsAt, hk, List.lookup_cons, hne, ih]

/-- The property of carriers is not shown. -/
theorem Object.shown_put_payloadKey {o : Object} {p : Property}
    (h : x ∈ (o.put payloadKey p).shown) :
    x ∈ o.shown := by
  rcases Object.mem_shown.mp h with h | h | ⟨entry, hentry, hkey, hx⟩
  · exact Object.mem_shown.mpr (.inl h)
  · exact Object.mem_shown.mpr (.inr (.inl h))
  · rcases Object.mem_putEntry hentry with rfl | hold
    · exact absurd rfl hkey
    · exact Object.mem_shown.mpr (.inr (.inr ⟨entry, hold, hkey, hx⟩))

namespace Machine

/-- A machine that has given an object a carrier. -/
def entrusted (id c : ObjectId) (m : Machine) : Machine :=
  { m with ledger := { m.ledger with given := m.ledger.given ++ [(id, c)] } }

theorem current_entrusted (id c x : ObjectId) (m : Machine) :
    (m.entrusted id c).current x = if x = id then some c else m.current x := by
  rw [current, entrusted, lookup_reverse_append]
  by_cases h : x = id
  · simp [h]
  · have hne : (x == id) = false := by simpa using h
    simp [h, current]

/-- A carrier that was not given to an object yet may be given to one. -/
theorem Tidy.entrusted (h : Tidy m) (hc : c ∈ m.carriers)
    (hnew : c ∉ m.ledger.given.map Prod.snd) (hid : id.index < m.nextObject) :
    Tidy (m.entrusted id c) where
  heap_lt := h.heap_lt
  slots_lt := h.slots_lt
  target_lt := h.target_lt
  carriers_lt := h.carriers_lt
  nodup_carriers := h.nodup_carriers
  given_subset {x} hx := by
    rw [Machine.entrusted, List.map_append, List.mem_append] at hx
    rcases hx with hx | hx
    · exact h.given_subset hx
    · rw [List.mem_singleton.mp hx]
      exact hc
  nodup_given := by
    rw [Machine.entrusted, List.map_append, List.nodup_append]
    refine ⟨h.nodup_given, by simp, fun a ha b hb heq ↦ ?_⟩
    have heq : a = c := heq.trans (List.mem_singleton.mp hb)
    exact hnew (heq ▸ ha)
  owners_lt {x y} hx := by
    rcases List.mem_append.mp hx with hx | hx
    · exact h.owners_lt hx
    · obtain ⟨rfl, rfl⟩ := Prod.mk.inj (List.mem_singleton.mp hx)
      exact hid
  payload? := h.payload?

/-- Once the property of carriers has been named, the ledger is not compared with the objects any
longer. -/
theorem Sound.entrusted (h : Sound m) (htouched : m.ledger.isTouched = true) (hc : c ∈ m.carriers)
    (hnew : c ∉ m.ledger.given.map Prod.snd) (hid : id.index < m.nextObject) :
    Sound (m.entrusted id c) where
  toTidy := h.toTidy.entrusted hc hnew hid
  anchors := h.anchors
  roots := h.roots
  targets := h.targets
  shown := h.shown
  references := h.references
  hidden hfalse := by
    rw [show (m.entrusted id c).ledger.isTouched = m.ledger.isTouched from rfl, htouched] at hfalse
    cases hfalse

/-- An object that refers to its new carrier. -/
def attached (id c : ObjectId) (flags : Flags) (m : Machine) : Machine :=
  (m.update id (·.put payloadKey ⟨.data (.object c), flags⟩)).entrusted id c

theorem Sound.attached (h : Sound m) (htouched : m.ledger.isTouched = false) (hid : id ∈ m.heap)
    (hc : c ∈ m.heap) (hcarrier : c ∈ m.carriers) (hnew : c ∉ m.ledger.given.map Prod.snd)
    (flags : Flags) : Sound (m.attached id c flags) where
  toTidy :=
    (h.toTidy.update (f := (·.put payloadKey _)) (fun _ ↦ rfl) id).entrusted hcarrier hnew
      (h.heap_lt hid)
  anchors := h.anchors
  roots hx := offers_update (h.roots hx)
  targets := h.targets
  shown {x o' r} hx hr := by
    apply offers_update
    have hx : (m.update id _).heap[x]? = some o' := hx
    rw [getElem?_heap_update] at hx
    split at hx
    · obtain ⟨o, ho, rfl⟩ := Option.map_eq_some_iff.mp hx
      exact h.shown ho (Object.shown_put_payloadKey hr)
    · exact h.shown hx hr
  references {x o' r} hx hr := by
    apply mem_heap_update.mpr
    have hx : (m.update id _).heap[x]? = some o' := hx
    rw [getElem?_heap_update] at hx
    split at hx
    · obtain ⟨o, ho, rfl⟩ := Option.map_eq_some_iff.mp hx
      rcases (Object.Edit.put (t := True) fun _ ↦ trivial).references hr with hr | hr
      · exact h.references ho hr
      · rw [List.mem_singleton.mp hr]
        exact hc
    · exact h.references hx hr
  hidden {x o'} _ hx := by
    have hx : (m.update id _).heap[x]? = some o' := hx
    rw [Machine.attached, current_entrusted]
    rw [getElem?_heap_update] at hx
    split at hx
    · next heq =>
      obtain ⟨o, ho, rfl⟩ := Option.map_eq_some_iff.mp hx
      have hold : o.hidden = _ := h.hidden htouched ho
      rw [if_pos heq]
      show Object.contentsAt payloadKey (Object.putEntry payloadKey _ o.properties) = _
      rw [Object.contentsAt_putEntry_self]
      show _ :: o.hidden.tail = _
      rw [hold]
      cases m.current id <;> rfl
    · next hne =>
      rw [if_neg hne]
      exact h.hidden htouched hx

end Machine

/-! ## Definitions on data properties -/

section

variable {key : String} {p after : Property} {d : Datum} {descriptor : Descriptor}

/-- What is no element of an array is added to an object, unless that takes no properties any
more. -/
theorem run_define_of_own?_eq_none (hindex : arrayIndex? key = none)
    (hown : (m.object id).own? key = none) (invoke : Invoke) (descriptor : Descriptor) :
    (Interp.define invoke id key descriptor).run m =
      if (m.object id).extensible then
        (some none, m.update id (·.put key ⟨descriptor.content, descriptor.flags⟩))
      else (some (some .notExtensible), m) := by
  have hgrow (o : Object) (p : Property) : o.grow key p = o.put key p := by
    simp [Object.grow, hindex]
  have hbars (o : Object) : o.barsElement key = false := by simp [Object.barsElement, hindex]
  unfold Interp.define Interp.defineNew
  rw [run_bind_of (run_object m id), hown]
  dsimp only
  rw [run_bind_of (run_object m id)]
  simp only [hbars, hgrow, Bool.false_and, Bool.false_eq_true, if_false]
  cases (m.object id).extensible <;> rfl

theorem run_settleProperty_of_data (hown : (m.object id).own? key = some p)
    (hdata : p.content = .data d) : (Interp.settleProperty id key).run m = (some (), m) := by
  obtain ⟨content, flags⟩ := p
  obtain rfl : content = .data d := hdata
  unfold Interp.settleProperty
  rw [run_bind_of (run_object m id), hown]
  rfl

theorem run_define_of_redefined?_eq_none (hkey : key ≠ "length")
    (hown : (m.object id).own? key = some p) (hdata : p.content = .data d)
    (h : p.redefined? descriptor = none) (invoke : Invoke) :
    (Interp.define invoke id key descriptor).run m = (some (some .notConfigurable), m) := by
  unfold Interp.define
  rw [run_bind_of (run_object m id), hown]
  dsimp only
  cases p.admits descriptor with
  | false => rfl
  | true =>
    simp only [Bool.not_true, Bool.false_eq_true, if_false, hkey, decide_false, Bool.and_false,
      Bool.false_and]
    rw [run_bind_of (run_object m id), run_bind_of (run_settleProperty_of_data hown hdata),
      run_bind_of (run_object m id), hown, Option.getD_some, h]
    rfl

theorem run_define_of_redefined (hkey : key ≠ "length") (hown : (m.object id).own? key = some p)
    (hdata : p.content = .data d) (h : p.redefined? descriptor = some after) :
    (Interp.define invoke id key descriptor).run m = (some none,
      m.update id (·.put key after)) := by
  have hadmits : p.admits descriptor = true := by
    by_contra hrefuses
    simp [Property.redefined?, hrefuses] at h
  unfold Interp.define
  rw [run_bind_of (run_object m id), hown]
  simp only [hadmits, Bool.not_true, Bool.false_eq_true, if_false, hkey, decide_false,
    Bool.and_false, Bool.false_and]
  rw [run_bind_of (run_object m id), run_bind_of (run_settleProperty_of_data hown hdata),
    run_bind_of (run_object m id), hown, Option.getD_some, h]
  rfl

end

/-! ## The definition of the property of carriers -/

/-- What is defined when a payload is attached. -/
def carrierDescriptor (c : ObjectId) : Descriptor :=
  { value := some (.object c), configurable := some true }

/-- An object refuses a carrier if it gets no new properties, or has one there that is to stay. -/
def Object.refusesCarrier (o : Object) : Bool :=
  match o.own? payloadKey with
  | none => !o.extensible
  | some p => !p.flags.configurable

theorem content_redefined {p after : Property} {d : Datum} (hp : p.content = .data d)
    (h : p.redefined? (carrierDescriptor c) = some after) :
    after.content = .data (.object c) ∧ after.flags.configurable = true := by
  have hcontent := Descriptor.redefined_eq_some h
  simp only [Property.contentAfter?, hp, carrierDescriptor, Descriptor.isAccessor] at hcontent
  refine ⟨by grind, ?_⟩
  unfold Property.redefined? at h
  split at h
  · cases h
  · obtain ⟨content, -, hafter⟩ := Option.bind_eq_some_iff.mp h
    rw [← Option.some.inj hafter]
    rfl

theorem redefined_ne_none {p : Property} {d : Datum} (hp : p.content = .data d)
    (hconfigurable : p.flags.configurable = true) :
    p.redefined? (carrierDescriptor c) ≠ none := by
  simp [Property.redefined?, Property.admits, Property.contentAfter?, hp, hconfigurable,
    carrierDescriptor, Descriptor.isAccessor]

/-- What the machine has under the key of carriers is data, so that redefining it changes the value
or is refused. -/
theorem run_define_carrier (invoke : Invoke) (c : ObjectId)
    (hdata : ∀ p, (m.object id).own? payloadKey = some p → ∃ d, p.content = .data d) :
    (∃ fault, (m.object id).refusesCarrier = true ∧
      (Interp.define invoke id payloadKey (carrierDescriptor c)).run m = (some (some fault), m)) ∨
    ∃ flags, flags.configurable = true ∧
      (Interp.define invoke id payloadKey (carrierDescriptor c)).run m =
        (some none, m.update id (·.put payloadKey ⟨.data (.object c), flags⟩)) := by
  cases hown : (m.object id).own? payloadKey with
  | none =>
    have hdefine := run_define_of_own?_eq_none rfl hown invoke (carrierDescriptor c)
    cases hextensible : (m.object id).extensible with
    | false =>
      rw [hextensible] at hdefine
      exact .inl ⟨_, by rw [Object.refusesCarrier, hown, hextensible]; rfl, hdefine⟩
    | true =>
      rw [hextensible] at hdefine
      exact .inr ⟨(carrierDescriptor c).flags, rfl, hdefine⟩
  | some p =>
    obtain ⟨d, hd⟩ := hdata p hown
    have hlength : payloadKey ≠ "length" := by decide
    cases hafter : p.redefined? (carrierDescriptor c) with
    | none =>
      refine .inl ⟨_, ?_, run_define_of_redefined?_eq_none hlength hown hd hafter invoke⟩
      rw [Object.refusesCarrier, hown]
      by_contra hconfigurable
      exact redefined_ne_none hd (by simpa using hconfigurable) hafter
    | some after =>
      obtain ⟨hcontent, hconfigurable⟩ := content_redefined hd hafter
      refine .inr ⟨after.flags, hconfigurable, ?_⟩
      rw [run_define_of_redefined hlength hown hd hafter, ← hcontent]

/-! ## Attaching -/

/-- The object that carries a payload. -/
def carrierObject (payload : Payload) : Object :=
  .empty (.carrier payload) (some Realm.carrierPrototype)

theorem run_attachPayload (invoke : Invoke) (id : ObjectId) (payload : Payload) (m : Machine) :
    (Interp.attachPayload invoke id payload).run m =
      match (Interp.defineOrThrow invoke id payloadKey (carrierDescriptor m.fresh)).run
          (m.placed (carrierObject payload)) with
      | (some _, after) => (some (), after.entrusted id m.fresh)
      | (none, after) => (none, after) := by
  unfold Interp.attachPayload
  rw [Interp.run_bind]
  show (Interp.defineOrThrow invoke id payloadKey (carrierDescriptor m.fresh) >>= fun _ ↦
    modify (Machine.entrusted id m.fresh) : Interp Unit).run (m.placed (carrierObject payload)) = _
  rw [Interp.run_bind]
  rcases (Interp.defineOrThrow invoke id payloadKey (carrierDescriptor m.fresh)).run
    (m.placed (carrierObject payload)) with ⟨_ | _, after⟩ <;> rfl

namespace Machine

theorem Sound.carried (h : Sound m) (payload : Payload) :
    Sound (m.placed (carrierObject payload)) := by
  refine h.placed (fun x hx ↦ h.roots (mem_roots.mpr (.inl ?_))) rfl
  rw [List.mem_singleton.mp hx, h.anchors]
  simp [Realm.anchors]

theorem fresh_mem_carriers (payload : Payload) (m : Machine) :
    m.fresh ∈ (m.placed (carrierObject payload)).carriers := by
  rw [carriers_placed]
  simp [carrierObject, Object.empty, Object.payload?]

/-- The carrier is new, so it was not given to an object before. -/
theorem Sound.fresh_notMem_given (h : Sound m) {after : Machine}
    (hevolves : Evolves [] (m.placed (carrierObject payload)) after) :
    m.fresh ∉ after.ledger.given.map Prod.snd := by
  obtain ⟨new, hgiven, hnew⟩ := hevolves.given
  rw [hgiven, List.map_append, List.mem_append]
  rintro (hold | hmem)
  · exact h.toTidy.fresh_notMem_carriers (h.given_subset hold)
  · obtain ⟨entry, hentry, heq⟩ := List.mem_map.mp hmem
    have hlt : m.nextObject + 1 ≤ entry.2.index := hnew entry hentry
    rw [heq] at hlt
    exact Nat.lt_irrefl _ hlt

/-- What a sound machine has under the key of carriers is data. -/
theorem Sound.data_of_own (h : Sound m) (htouched : m.ledger.isTouched = false) (hid : id ∈ m.heap)
    {p : Property} (hp : (m.object id).own? payloadKey = some p) : ∃ d, p.content = .data d := by
  have hhidden : (m.object id).hidden = _ := h.hidden htouched (getElem?_of_mem hid)
  have hhead := Object.head?_contentsAt payloadKey (m.object id).properties
  rw [show Object.contentsAt payloadKey (m.object id).properties = _ from hhidden,
    show (m.object id).properties.lookup payloadKey = some p from hp] at hhead
  cases hcurrent : m.current id with
  | none => simp [hcurrent] at hhead
  | some c =>
    simp only [hcurrent, Option.toList_some, List.map_singleton, List.head?_cons, Option.map_some,
      Option.some.injEq] at hhead
    exact ⟨_, hhead.symm⟩

/-- What an attached payload makes of a machine that has evolved so far. -/
theorem Evolves.entrusted (h : Evolves [] m m') (hc : m.nextObject ≤ c.index) :
    Evolves [] m (m'.entrusted id c) where
  nextObject := h.nextObject
  nextHandle := h.nextHandle
  slots := h.slots
  pins := h.pins
  isOpen := h.isOpen
  globalHandle := h.globalHandle
  gone := h.gone
  kept := h.kept
  makes := h.makes
  made := h.made
  given := by
    obtain ⟨new, hgiven, hnew⟩ := h.given
    refine ⟨new ++ [(id, c)], ?_, fun entry hentry ↦ ?_⟩
    · rw [Machine.entrusted, hgiven, List.append_assoc]
    · rcases List.mem_append.mp hentry with hentry | hentry
      · exact hnew entry hentry
      · rw [List.mem_singleton.mp hentry]
        exact hc
  isTouched := h.isTouched
  counts := h.counts
  trace := h.trace

end Machine

/-- What comes of the attempt to attach a payload: an object is given the carrier, or an exception
is pending. -/
inductive Attempted (m : Machine) (id : ObjectId) (payload : Payload) :
    Option Unit × Machine → Prop
  | attached {after : Machine} (h : Evolves [] (m.placed (carrierObject payload)) after)
    (hsound : Sound (after.entrusted id m.fresh)) (haccounts : Accounts m true after) :
    Attempted m id payload (some (), after.entrusted id m.fresh)
  | refused {after : Machine} (h : Evolves [] (m.placed (carrierObject payload)) after)
    (hsound : Sound after) (haccounts : Accounts m false after) :
    Attempted m id payload (none, after)

/-- Once the property of carriers has been named it may be anything, and the carrier may be had by
anybody. -/
theorem Machine.Sound.attempted_of_touched (hm : Sound m) (hinvoke : Faithful invoke)
    (htouched : m.ledger.isTouched = true) (hoffers : m.Offers id) (payload : Payload) :
    Attempted m id payload ((Interp.attachPayload invoke id payload).run m) := by
  let placed := m.placed (carrierObject payload)
  have hplaced : Sound placed := hm.carried payload
  have hdefine : Safe True placed.pins [id, m.fresh]
      (Interp.defineOrThrow invoke id payloadKey (carrierDescriptor m.fresh)) fun _ ↦ [] :=
    .defineOrThrow hinvoke (fun _ ↦ trivial) (by simp)
      (by simp [Descriptor.references, carrierDescriptor])
  have hfresh : placed.Offers m.fresh := by
    refine ⟨mem_heap_placed.mpr (.inl rfl), fun hfalse ↦ ?_⟩
    rw [show placed.ledger.isTouched = _ from htouched] at hfalse
    cases hfalse
  obtain ⟨hdefines, hsound, haccounts, -⟩ := hdefine hplaced (fun _ ↦ htouched) rfl
    (by simpa using ⟨hm.toTidy.offers_placed hoffers, hfresh⟩)
  have haccounts : Accounts m _ _ := (Accounts.of_eq rfl rfl).trans haccounts
  rw [run_attachPayload]
  split
  · next after hrun =>
    rw [hrun] at hdefines hsound haccounts
    have hcarrier : m.fresh ∈ after.carriers := by
      obtain ⟨new, hmade, -⟩ := hdefines.made
      rw [carriers, hmade, List.map_append]
      exact List.mem_append_left _ (fresh_mem_carriers payload m)
    have hlt : id.index < after.nextObject :=
      Nat.lt_of_lt_of_le (hplaced.heap_lt (mem_heap_placed.mpr (.inr hoffers.1)))
        hdefines.nextObject
    exact .attached hdefines (hsound.entrusted (hdefines.isTouched htouched) hcarrier
      (hm.fresh_notMem_given hdefines) hlt) haccounts
  · next after hrun =>
    rw [hrun] at hdefines hsound haccounts
    exact .refused hdefines hsound haccounts

/-- Otherwise the carrier takes the place of the one before, or the object is refused. -/
theorem Machine.Sound.attempted_of_untouched (hm : Sound m)
    (htouched : m.ledger.isTouched = false) (hid : id ∈ m.heap) (payload : Payload) :
    Attempted m id payload ((Interp.attachPayload invoke id payload).run m) := by
  let placed := m.placed (carrierObject payload)
  have hplaced : Sound placed := hm.carried payload
  have hidPlaced : id ∈ placed.heap := mem_heap_placed.mpr (.inr hid)
  have hdata {p : Property} (hp : (placed.object id).own? payloadKey = some p) :
      ∃ d, p.content = .data d := hplaced.data_of_own htouched hidPlaced hp
  rw [run_attachPayload, Interp.defineOrThrow, Interp.run_bind]
  rcases run_define_carrier invoke m.fresh fun _ ↦ hdata with ⟨fault, -, hrun⟩ | ⟨flags, -, hrun⟩
  · rw [hrun]
    have hraise : Safe False placed.pins [] (Interp.raiseFault fault : Interp Unit) fun _ ↦ [] :=
      .raiseFault fault
    obtain ⟨hraises, hsound, haccounts, -⟩ :=
      hraise hplaced False.elim rfl (List.forall_mem_nil _)
    have haccounts : Accounts m _ _ := (Accounts.of_eq rfl rfl).trans haccounts
    have hnone : ((Interp.raiseFault fault : Interp Unit).run placed).1 = none :=
      Safe.run_raiseFault fault placed
    dsimp only
    split
    · next hsome =>
      rw [hsome] at hnone
      cases hnone
    · next after hafter =>
      rw [hafter] at hraises hsound haccounts
      exact .refused hraises hsound haccounts
  · rw [hrun]
    exact .attached (evolves_update placed id fun _ ↦ rfl)
      (hplaced.attached htouched hidPlaced (mem_heap_placed.mpr (.inl rfl))
        (fresh_mem_carriers payload m) (hm.fresh_notMem_given (.refl placed)) flags)
      (.of_eq rfl rfl)

theorem Machine.Sound.attempted (hm : Sound m) (hinvoke : Faithful invoke)
    (hoffers : m.Offers id) (payload : Payload) :
    Attempted m id payload ((Interp.attachPayload invoke id payload).run m) := by
  cases htouched : m.ledger.isTouched with
  | true => exact hm.attempted_of_touched hinvoke htouched hoffers payload
  | false => exact hm.attempted_of_untouched htouched hoffers.1 payload

theorem Safe.attachPayload (hinvoke : Faithful invoke) (hid : Known pins needs [id])
    (payload : Payload) :
    Safe t pins needs (Interp.attachPayload invoke id payload) fun _ ↦ [] := by
  intro m hm ht hpins hneeds
  have hoffers : m.Offers id := hid.offers hm hpins hneeds id (List.mem_singleton_self id)
  have hevolves := hm.toTidy.evolves_placed (carrierObject payload)
  have hattempted := hm.attempted hinvoke hoffers payload
  generalize (Interp.attachPayload invoke id payload).run m = outcome at hattempted ⊢
  cases hattempted with
  | attached hdefines hsound haccounts =>
    exact ⟨(hevolves.trans hdefines).entrusted (Nat.le_refl _), hsound, haccounts.congr rfl rfl,
      fun _ _ ↦ List.forall_mem_nil _⟩
  | refused hdefines hsound haccounts =>
    exact ⟨hevolves.trans hdefines, hsound, haccounts, fun _ h ↦ by cases h⟩

end ScriptBridge.Script
