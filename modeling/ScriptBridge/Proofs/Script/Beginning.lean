import Mathlib.Data.List.Induction
import ScriptBridge.Proofs.Script.Reading

/-!
# A fresh machine is sound

The objects of a fresh machine refer to each other only, and none of them is a carrier or has one.
-/

namespace ScriptBridge.Script

open Machine

namespace Realm

variable {o : Object} {id : ObjectId}

/-- The places of the objects of a fresh machine. -/
def places : List ObjectId := (List.range size).map ObjectId.mk

theorem mem_places : id ∈ places ↔ id.index < size := by
  constructor
  · intro h
    obtain ⟨i, hi, rfl⟩ := List.mem_map.mp h
    exact List.mem_range.mp hi
  · exact fun h ↦ List.mem_map.mpr ⟨id.index, List.mem_range.mpr h, rfl⟩

/-- An object of a fresh machine. -/
abbrev Native (o : Object) : Prop := Placeable [] places o

theorem function_lt (which : Intrinsic) : (function which).index < size := by
  unfold function
  exact Nat.lt_of_le_of_lt (Nat.add_le_add_left List.findIdx_le_length firstFunction) (by decide)

@[simp]
theorem function_mem (which : Intrinsic) : function which ∈ places :=
  mem_places.mpr (function_lt which)

@[simp]
theorem reflect_mem : reflect ∈ places := mem_places.mpr (by decide)

theorem mem_places_of_anchor (h : id ∈ anchors) : id ∈ places := by
  have hall : ∀ id ∈ anchors, id.index < size := by decide
  exact mem_places.mpr (hall id h)

theorem native_withFunctions (h : Native o) {entries : List (String × Intrinsic)}
    (hkeys : payloadKey ∉ entries.map Prod.fst) : Native (withFunctions o entries) := by
  unfold withFunctions
  induction entries generalizing o with
  | nil => exact h
  | cons entry entries ih =>
    rw [List.map_cons, List.mem_cons, not_or] at hkeys
    exact ih (h.withData (Ne.symm hkeys.1) (by simp)) hkeys.2

theorem native_prototypeObject {parent : Option ObjectId}
    (hparent : Known [] places parent.toList) (constructor : Intrinsic)
    {methods : List (String × Intrinsic)} (hkeys : payloadKey ∉ methods.map Prod.fst) :
    Native (prototypeObject parent constructor methods) :=
  native_withFunctions (.ordinary hparent) (by simpa [payloadKey] using hkeys)

theorem native_functionObject {which : Intrinsic}
    (h : Known [] places (Kind.function (.intrinsic which)).references) (parameters : Nat)
    (name : String) : Native (functionObject (.intrinsic which) parameters name) := by
  have hempty : Native (.empty (.function (.intrinsic which)) (some functionPrototype)) :=
    .empty (by simp [Realm.anchors, pinned]) h rfl rfl
  exact (hempty.withData (by simp [payloadKey]) (by simp)).withData (by simp [payloadKey]) (by simp)

theorem native_withTag (h : Native o) (tag : Option String) : Native { o with tag } :=
  ⟨h.references, h.payload?, h.native?, h.hidden⟩

theorem native_withKind (h : Native o) {kind : Kind} (hkind : kind.references = [])
    (hpayload : (Object.empty kind none).payload? = none)
    (hnative : (Object.empty kind none).native? = none) : Native { o with kind } where
  references id hid := by
    rcases Object.mem_references.mp hid with hid | hid | hid
    · exact h.references id (Object.mem_references.mpr (.inl hid))
    · rw [show Kind.references _ = [] from hkind] at hid
      cases hid
    · exact h.references id (Object.mem_references.mpr (.inr (.inr hid)))
  payload? := hpayload
  native? := hnative
  hidden := h.hidden

theorem native_globalThis : Native globalThis := by
  have hempty :
      Native { Object.empty .ordinary (some objectPrototype) with tag := some "global" } :=
    native_withTag (.ordinary (by simp)) _
  refine .withData (.withData (.withData (native_withFunctions
    (.withData (.withData (.withData (.withData hempty ?_ ?_) ?_ ?_) ?_ ?_) ?_ ?_) ?_) ?_ ?_)
    ?_ ?_) ?_ ?_
  all_goals simp [payloadKey, PrimitiveType.all, PrimitiveType.name, ErrorKind.all, ErrorKind.name]

theorem native_errorPrototype (kind : ErrorKind) : Native (errorPrototype kind) := by
  refine .withData (.withData (native_prototypeObject ?_ _ ?_) ?_ ?_) ?_ ?_
  · split <;> simp
  · split <;> simp [payloadKey]
  all_goals simp [payloadKey]

theorem native_primitivePrototype (type : PrimitiveType) : Native (primitivePrototype type) := by
  have hbase : Native (prototypeObject (some objectPrototype) (.primitiveConstructor type)
      [("toString", .primitiveToString type), ("valueOf", .primitiveValueOf type)]) :=
    native_prototypeObject (by simp) _ (by simp [payloadKey])
  unfold primitivePrototype
  cases type with
  | string => exact (native_withKind hbase rfl rfl rfl).withData (by simp [payloadKey]) (by simp)
  | number => exact native_withKind hbase (Datum.references_natural 0) rfl rfl
  | boolean => exact native_withKind hbase rfl rfl rfl
  | symbol =>
    exact (native_withTag hbase _).put (by simp [payloadKey]) (by simp)
  | bigint => exact native_withTag hbase _

theorem native_functionPrototypeObject : Native functionPrototypeObject := by
  have hfunction : Native { functionObject (.intrinsic .ignore) 0 "" with
      prototype := some objectPrototype } :=
    (native_functionObject known_nil 0 "").edit (.withPrototype _) (by simp)
  exact native_withFunctions hfunction (by simp [payloadKey])

theorem native_arrayPrototype : Native ({ prototypeObject (some objectPrototype) .arrayConstructor
    [("join", .arrayJoin), ("toString", .arrayToString)] with kind := .array }.withData
      "length" (.natural 0) .permanent) := by
  have hbase : Native (prototypeObject (some objectPrototype) .arrayConstructor
      [("join", .arrayJoin), ("toString", .arrayToString)]) :=
    native_prototypeObject (by simp) _ (by simp [payloadKey])
  exact (native_withKind hbase rfl rfl rfl).withData (by simp [payloadKey]) (by simp)

/-- A constructor of errors refers to the prototype of one of the kinds of errors. -/
theorem known_of_mem_functions {f : String × Nat × Intrinsic} (h : f ∈ functions) :
    Known [] places (Kind.function (.intrinsic f.2.2)).references := by
  obtain ⟨name, parameters, which⟩ := f
  cases which with
  | errorConstructor prototype =>
    simp only [functions, List.mem_append, List.mem_cons, Prod.mk.injEq, reduceCtorEq, and_false,
      or_false, List.mem_flatMap, List.mem_map, List.not_mem_nil, exists_false, false_or,
      Intrinsic.errorConstructor.injEq] at h
    obtain ⟨kind, -, -, -, rfl⟩ := h
    simp [Kind.references]
  | _ => exact known_nil

theorem native_intrinsicFunction (name : String) (parameters : Nat) {which : Intrinsic}
    (h : Known [] places (Kind.function (.intrinsic which)).references) :
    Native (intrinsicFunction name parameters which) := by
  have hinstance : ∀ prototype ∈ instancePrototype? which, Known [] places [prototype] := by
    cases which with
    | errorConstructor prototype => simpa [instancePrototype?, Kind.references] using h
    | _ => simp [instancePrototype?]
  have hstatics : payloadKey ∉ (statics which).map Prod.fst := by
    cases which <;> simp [statics, payloadKey]
  have hfunction (parent : ObjectId) (hparent : Known [] places [parent]) :
      Native { functionObject (.intrinsic which) parameters name with prototype := some parent } :=
    (native_functionObject h parameters name).edit (.withPrototype _) hparent
  have hparent : ∀ parent, parent = functionPrototype ∨
      parent = function (.errorConstructor ErrorKind.error.prototype) →
        Known [] places [parent] := by
    rintro _ (rfl | rfl) <;> simp
  unfold intrinsicFunction
  refine native_withFunctions ?_ hstatics
  split
  · next prototype hprototype =>
    refine (hfunction _ (hparent _ ?_)).withData (by simp [payloadKey]) (hinstance _ hprototype)
    split
    · split <;> simp
    · simp
  · refine hfunction _ (hparent _ ?_)
    split
    · split <;> simp
    · simp

theorem native_of_mem (h : o ∈ objects) : Native o := by
  simp only [objects, List.cons_append, List.nil_append, List.mem_cons, List.mem_append,
    List.mem_map,
    List.not_mem_nil, or_false] at h
  rcases h with rfl | rfl | rfl | rfl | rfl |
    ((⟨type, -, rfl⟩ | ⟨kind, -, rfl⟩) | ⟨f, hf, rfl⟩) | rfl | rfl
  · exact native_globalThis
  · exact (native_prototypeObject (by simp) _ (by simp [payloadKey])).put (by simp [payloadKey])
      (by simp)
  · exact native_functionPrototypeObject
  · exact native_arrayPrototype
  · exact native_withTag (native_prototypeObject (by simp) _ (by simp [payloadKey])) _
  · exact native_primitivePrototype type
  · exact native_errorPrototype kind
  · exact native_intrinsicFunction _ _ (known_of_mem_functions hf)
  · exact native_withFunctions (native_withTag (.ordinary (by simp)) _) (by simp [payloadKey])
  · exact .ordinary (by simp)

theorem length_objects : objects.length = size := by
  decide

/-- Objects that are put at places one after the other stand there. -/
theorem getElem?_foldl_insert (l : List Object) (id : ObjectId) :
    ((l.mapIdx fun i o ↦ (i, o)).foldl (fun heap (i, o) ↦ heap.insert (⟨i⟩ : ObjectId) o)
      (∅ : Std.ExtTreeMap ObjectId Object))[id]? = l[id.index]? := by
  induction l using List.reverseRecOn with
  | nil => rfl
  | append_singleton l o ih =>
    rw [List.mapIdx_append, List.foldl_append, List.mapIdx_singleton, List.foldl_cons,
      List.foldl_nil, Std.ExtTreeMap.getElem?_insert, ih]
    obtain ⟨i⟩ := id
    by_cases hi : i = l.length
    · simp [hi]
    · have hne : (⟨l.length⟩ : ObjectId) ≠ ⟨i⟩ := fun h ↦ hi (congrArg ObjectId.index h).symm
      rw [if_neg (by simpa using hne)]
      dsimp only
      rcases Nat.lt_or_gt_of_ne hi with hlt | hgt
      · rw [List.getElem?_append_left hlt]
      · rw [List.getElem?_eq_none (by omega), List.getElem?_eq_none (by simp; omega)]

theorem getElem?_heap (isStrict : Bool) (id : ObjectId) :
    (machine isStrict).heap[id]? = objects[id.index]? :=
  getElem?_foldl_insert objects id

theorem native_of_heap {isStrict : Bool} (h : (machine isStrict).heap[id]? = some o) :
    Native o := by
  rw [getElem?_heap] at h
  exact native_of_mem (List.mem_of_getElem? h)

theorem mem_heap {isStrict : Bool} : id ∈ (machine isStrict).heap ↔ id ∈ places := by
  rw [mem_places, ← length_objects, mem_heap_iff]
  simp only [getElem?_heap, List.getElem?_eq_some_iff]
  exact ⟨fun ⟨_, h, _⟩ ↦ h, fun h ↦ ⟨_, h, rfl⟩⟩

/-- What stands at one of the places is offered: there are no carriers yet. -/
theorem offers_places {isStrict : Bool} (h : Known [] places [id]) :
    (machine isStrict).Offers id := by
  refine ⟨mem_heap.mpr ?_, fun _ hc ↦ by cases hc⟩
  have hid : id ∈ places ∨ id ∈ anchors := by simpa [pinned] using h
  exact hid.elim (fun h ↦ h) mem_places_of_anchor

end Realm

theorem slot_machine {isStrict : Bool} {h : Handle} {s : Slot}
    (hs : (Realm.machine isStrict).slots[h]? = some s) :
    h = ⟨0⟩ ∧ s = ⟨Realm.globalObject, true⟩ := by
  have hs : ((∅ : Std.ExtTreeMap Handle Slot).insert ⟨0⟩ ⟨Realm.globalObject, true⟩)[h]? = some s :=
    hs
  rw [Std.ExtTreeMap.getElem?_insert] at hs
  split at hs
  · next heq =>
    cases hs
    exact ⟨(Std.compare_eq_iff_eq.mp heq).symm, rfl⟩
  · simp at hs

theorem sound_machine (isStrict : Bool) : Sound (Realm.machine isStrict) where
  heap_lt hid := Realm.mem_places.mp (Realm.mem_heap.mp hid)
  slots_lt hs := by
    rw [(slot_machine hs).1]
    exact Nat.zero_lt_one
  target_lt hs := by
    rw [(slot_machine hs).2]
    exact Realm.mem_places.mp (Realm.mem_places_of_anchor (by simp [Realm.anchors]))
  carriers_lt hc := by cases hc
  nodup_carriers := .nil
  given_subset hc := by cases hc
  nodup_given := .nil
  owners_lt hx := by cases hx
  payload? hx := (Realm.native_of_heap hx).payload?
  anchors := rfl
  roots {id} hid := by
    apply Realm.offers_places
    rcases mem_roots.mp hid with hid | hid | ⟨d, hd, hid⟩
    · simpa using .inr (mem_pinned_of_anchor hid)
    · obtain ⟨k, s, hs, -, rfl⟩ := mem_rooted.mp hid
      rw [(slot_machine hs).2]
      simp
    · rcases mem_held.mp hd with heq | hpending | hpin | hjob
      · rw [heq] at hid
        cases hid
      · cases hpending
      · cases hpin
      · cases hjob
  targets _ _ hc := by cases hc
  shown hx hid := Realm.offers_places fun _ h ↦
    (Realm.native_of_heap hx).references _
      (List.mem_singleton.mp h ▸ Object.mem_references_of_shown hid)
  references hx hid := (Realm.offers_places fun _ h ↦
    (Realm.native_of_heap hx).references _ (List.mem_singleton.mp h ▸ hid)).1
  hidden _ hx := (Realm.native_of_heap hx).hidden

end ScriptBridge.Script
