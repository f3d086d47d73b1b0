import ScriptBridge.Proofs.Script.Evaluation
import ScriptBridge.Script.Service

/-!
# Requests are safe

What a machine does for native code is made of the same steps as what it does for scripts, so it is
safe in the same sense. An object behind a handle is offered, and if a result is an object it is
offered when its handle is issued, which is the last step.
-/

namespace ScriptBridge.Script

open Machine

variable {α : Type} {t : Prop} {pins : List Datum} {needs : List ObjectId}
  {id owner child : ObjectId}
  {invoke : Invoke} {m : Machine}

/-- What a handle leads to is offered, rooted or not. -/
theorem Machine.Sound.offers_resolve (h : Sound m) {k : Handle}
    (hk : m.resolve k = .ok (some id)) : m.Offers id := by
  unfold Machine.resolve at hk
  split at hk
  · cases hk
  · next s hs =>
    split at hk
    · next halive =>
      obtain rfl : s.target = id := by simpa using hk
      cases hrooted : s.isRooted with
      | true =>
        exact h.roots (mem_roots.mpr (.inr (.inl (mem_rooted.mpr ⟨k, s, hs, hrooted, rfl⟩))))
      | false =>
        rw [hrooted, Bool.false_or, Std.ExtTreeMap.contains_iff_mem] at halive
        exact ⟨halive, h.targets hs⟩
    · simp at hk

theorem Machine.Sound.offers_resolveLive (h : Sound m) {k : Handle}
    (hk : m.resolveLive k = .ok id) : m.Offers id := by
  unfold Machine.resolveLive at hk
  split at hk
  · next hresolve =>
    cases hk
    exact h.offers_resolve hresolve
  · cases hk
  · cases hk

theorem Machine.Sound.offers_ofValue (h : Sound m) {value : Value} {d : Datum}
    (hd : m.ofValue value = .ok d) : ∀ id ∈ d.references, m.Offers id := by
  cases value with
  | object k =>
    cases hk : m.resolveLive k with
    | error failure => simp [ofValue, hk, Except.map] at hd
    | ok id =>
      obtain rfl : .object id = d := by simpa [ofValue, hk, Except.map] using hd
      simpa using h.offers_resolveLive hk
  | undefined | null | boolean | string => cases hd; simp
  | number x =>
    cases hd
    rw [Datum.references_ofFloat]
    exact List.forall_mem_nil _

namespace Safe

/-! ## Edges -/

/-- What a holder is known by. -/
def holderRefs : Except Failure (Option ObjectId) → List ObjectId
  | .ok holder => holder.toList
  | .error _ => []

theorem holder (h : Pinned pins [owner]) :
    Safe t pins needs (Machine.holder? owner) holderRefs := by
  unfold Machine.holder?
  refine (Safe.read faithful_invoke h.known _).bind fun d ↦ ?_
  split
  · next found hfound =>
    refine .ret ?_
    rw [holderRefs, Datum.toList_of_optionalObject hfound]
    exact known_append_left
  · exact .ret known_nil

theorem attachTo (h : Pinned pins [owner, child]) (key : String) :
    Safe t pins needs (Machine.attachTo owner key child) fun _ ↦ [] := by
  have hassign {t : Prop} {pins : List Datum} {needs : List ObjectId} {holder : ObjectId}
      (h : Known pins needs [holder, child]) : Safe t pins needs (do
        return .ok (← Interp.assignOrThrow Interp.invoke holder key (.object child)) :
          Interp (Except Failure Unit)) fun _ ↦ [] :=
    (Safe.assignOrThrow faithful_invoke (by grind)).bind fun _ ↦ .ret known_nil
  unfold Machine.attachTo
  refine (Safe.holder (by grind)).bind fun found ↦ ?_
  split
  · exact .ret known_nil
  · next holder =>
    refine Safe.holding (by simp [holderRefs]) (hassign (by grind))
  · refine (Safe.allocate (.ordinary (by grind))).bind fun holder ↦ ?_
    refine Safe.holding (by grind) ?_
    refine (Safe.defineOrThrow faithful_invoke (by simp [childrenKey, payloadKey]) (by grind)
      ?_).bind fun _ ↦ ?_
    · simp [Descriptor.references, pinned]
    · exact hassign (by grind)

theorem detachFrom (h : Pinned pins [owner]) (key : String) :
    Safe t pins needs (Machine.detachFrom owner key) fun _ ↦ [] := by
  unfold Machine.detachFrom
  refine (Safe.holder h).bind fun found ↦ ?_
  split
  · exact .ret known_nil
  · exact .ret known_nil
  · refine (Safe.delete _ key).bind fun deleted ↦ ?_
    split
    · exact .ret known_nil
    · exact .raiseFault _

/-! ## Classes -/

/-- What a prototype is known by. -/
def prototypeRefs : Except Failure ObjectId → List ObjectId
  | .ok prototype => [prototype]
  | .error _ => []

theorem parentPrototype (parent : String) :
    Safe t pins needs (Machine.parentPrototype parent) prototypeRefs := by
  unfold Machine.parentPrototype
  refine (Safe.readGlobal faithful_invoke parent).bind fun d ↦ ?_
  split
  · exact .ret known_nil
  · exact .ret known_nil
  · next constructor hconstructor =>
    have hknown : Known pins d.references [constructor] := by
      rw [← Datum.toList_of_optionalObject hconstructor]
      exact known_self
    refine (Safe.read faithful_invoke hknown "prototype").bind fun found ↦ ?_
    split
    · exact .ret known_nil
    · next prototype hprototype =>
      refine .ret ?_
      rw [prototypeRefs, Datum.singleton_of_requiredObject hprototype]
      exact known_append_left

end Safe

/-- The interpretation keeps machines sound on which the needed objects are offered. It may make
constructors of the given native classes. -/
def Crafts (made : List NativeClass) (pins : List Datum) (needs : List ObjectId)
    (action : Interp α) : Prop :=
  ∀ ⦃m : Machine⦄, Sound m → m.pins = pins → (∀ id ∈ needs, m.Offers id) →
    Evolves made m (action.run m).2 ∧ Sound (action.run m).2

namespace Crafts

variable {β : Type} {made : List NativeClass} {spec : NativeClass} {x : Interp α}
  {f : α → Interp β} {gives : α → List ObjectId}

theorem of_safe (h : Safe False pins needs x gives) : Crafts made pins needs x := by
  intro m hm hpins hneeds
  obtain ⟨hevolves, hsound, -⟩ := h hm False.elim hpins hneeds
  exact ⟨hevolves.of_none, hsound⟩

theorem bind (hx : Safe False pins needs x gives) (hf : ∀ a, Crafts made pins (gives a) (f a)) :
    Crafts made pins needs (x >>= f) := by
  intro m hm hpins hneeds
  obtain ⟨hevolves, hsound, -, hoffers⟩ := hx hm False.elim hpins hneeds
  rw [Interp.run_bind]
  rcases hrun : x.run m with ⟨_ | a, m'⟩
  · rw [hrun] at hevolves hsound
    exact ⟨hevolves.of_none, hsound⟩
  · rw [hrun] at hevolves hsound hoffers
    obtain ⟨hevolves', hsound'⟩ := hf a hsound (hevolves.pins.trans hpins) (hoffers a rfl)
    exact ⟨hevolves.of_none.trans hevolves', hsound'⟩

theorem map {g : α → β} (hx : Crafts made pins needs x) : Crafts made pins needs (do
    return g (← x)) := by
  intro m hm hpins hneeds
  have hboth := hx hm hpins hneeds
  rw [Interp.run_bind]
  rcases hrun : x.run m with ⟨_ | a, m'⟩ <;> rwa [hrun] at hboth

theorem holding {values : List Datum} (hvalues : Known pins needs (values.flatMap Datum.references))
    (hx : Crafts made (values ++ pins) needs x) :
    Crafts made pins needs (Interp.holding values x) := by
  intro m hm hpins hneeds
  subst hpins
  obtain ⟨hevolves, hsound⟩ := hx (hm.pinning (hvalues.offers hm rfl hneeds)) rfl hneeds
  exact ⟨{ hevolves with pins := rfl }, hsound.unpinning hevolves.pins⟩

/-- The constructor of a native class is made. -/
theorem constructor {f : ObjectId → Interp β} (name : String)
    (hf : ∀ id, Safe False pins [id] (f id) fun _ ↦ []) : Crafts [spec] pins needs (do
      f (← Interp.allocate (Realm.functionObject (.native spec) 0 name))) := by
  intro m hm hpins hneeds
  let o := Realm.functionObject (.native spec) 0 name
  have hrun : (Interp.allocate o).run m = (some m.fresh, m.placed o) :=
    congrArg (fun p : ObjectId × Machine ↦ (some p.1, p.2)) (allocate_eq rfl)
  have hrefs : ∀ id ∈ o.references, id = Realm.functionPrototype := by
    simp [o, Realm.functionObject, Object.references, Object.withData, Object.put, Object.putEntry,
      Object.empty, Kind.references]
  have hplaced : Sound (m.placed o) := hm.placed (fun id hid ↦ by
    refine hm.offers_pinned (List.mem_append_left _ ?_)
    rw [hrefs id hid]
    decide) rfl
  have hoffers : ∀ id ∈ [m.fresh], (m.placed o).Offers id := by
    simpa using hm.toTidy.offers_fresh rfl
  obtain ⟨hevolves, hsound, -⟩ := hf m.fresh hplaced False.elim hpins hoffers
  rw [run_bind_of hrun]
  exact ⟨(hm.toTidy.evolves_placed o).trans hevolves.of_none, hsound⟩

end Crafts

/-- The native class whose constructor an installation makes. -/
def NativeClass.of (spec : ClassSpec) : NativeClass :=
  ⟨spec.name, spec.constructor, spec.finalizer⟩

theorem crafts_offerClass (spec : ClassSpec) {prototype : ObjectId} (h : Pinned pins [prototype]) :
    Crafts [.of spec] pins needs (Machine.offerClass spec prototype) := by
  refine Crafts.constructor spec.name fun constructor ↦ ?_
  refine Safe.holding (by grind) ?_
  refine (Safe.defineOrThrow faithful_invoke (by simp [payloadKey]) (by grind) ?_).bind fun _ ↦ ?_
  · grind [Descriptor.references]
  refine (Safe.defineOrThrow faithful_invoke (by simp [payloadKey]) (by grind) ?_).bind fun _ ↦ ?_
  · simp [Descriptor.references, pinned]
  exact .assignOrThrow faithful_invoke (by grind)

theorem crafts_makeClass (spec : ClassSpec) :
    Crafts [.of spec] pins needs (Machine.makeClass spec) := by
  unfold Machine.makeClass
  refine Crafts.bind (Safe.allocate (.ordinary (by grind))) fun prototype ↦ ?_
  refine Crafts.holding (by grind) ?_
  have hoffer {needs : List ObjectId} :
      Crafts [.of spec] ([.object prototype] ++ pins) needs (do
        return .ok (← Machine.offerClass spec prototype) : Interp (Except Failure Unit)) :=
    (crafts_offerClass spec (by grind)).map
  split
  · exact hoffer
  · refine Crafts.bind (Safe.parentPrototype _) fun found ↦ ?_
    split
    · next failure =>
      have hrefused : Safe False ([.object prototype] ++ pins) (Safe.prototypeRefs (.error failure))
          (return .error failure : Interp (Except Failure Unit)) fun _ ↦ [] := .ret known_nil
      exact .of_safe hrefused
    · next inherited =>
      exact Crafts.bind
        (Safe.edit (.withPrototype (some inherited)) (by grind [Safe.prototypeRefs]) prototype)
        fun _ ↦ hoffer

namespace Safe

/-! ## Properties and payloads -/

theorem setProperty (h : Pinned pins [id]) (key : String) (value : Value) :
    Safe t pins needs (do
      match ← Interp.view (ofValue value) with
      | .error failure => return .error failure
      | .ok d => return .ok (← Interp.assignOrThrow Interp.invoke id key d) :
        Interp (Except Failure Unit)) fun _ ↦ [] := by
  have hvalue : Safe t pins needs (Interp.view (ofValue value))
      fun d ↦ d.toOption.toList.flatMap Datum.references ++ needs := by
    refine .view fun m hm _ _ _ x hx ↦ ?_
    cases hd : m.ofValue value with
    | error failure => simp [hd, Except.toOption] at hx
    | ok d => exact hm.offers_ofValue hd x (by simpa [hd, Except.toOption] using hx)
  refine hvalue.bind fun found ↦ ?_
  split
  · exact .ret known_nil
  · next d =>
    have hassign : Known pins (d.references ++ needs) (id :: d.references) := by grind
    exact (Safe.assignOrThrow faithful_invoke (hassign.mono (by simp [Except.toOption]))).bind
      fun _ ↦ .ret known_nil

end Safe

/-! ## Results -/

/-- Whether the result of an interpretation is an object. -/
def IsObject (result : Option (Except Failure Value)) : Prop := ∃ k, result = some (.ok (.object k))

/-- The interpretation is safe, and if its result is an object, a handle for that is issued at the
very end. -/
def Handing (pins : List Datum) (needs : List ObjectId) (action : Interp (Except Failure Value)) :
    Prop :=
  ∀ ⦃m : Machine⦄, Sound m → m.pins = pins → (∀ id ∈ needs, m.Offers id) →
    ∃ m', Evolves [] m m' ∧ Sound m' ∧ Accounts m (action.run m).1.isSome m' ∧
      ((¬ IsObject (action.run m).1 ∧ (action.run m).2 = m') ∨
        ∃ id, m'.Offers id ∧
          action.run m = (some (.ok (.object ⟨m'.nextHandle⟩)), (m'.issue id).2))

namespace Handing

theorem bind {β : Type} {x : Interp β} {f : β → Interp (Except Failure Value)}
    {gives : β → List ObjectId} (hx : Safe False pins needs x gives)
    (hf : ∀ a, Handing pins (gives a) (f a)) : Handing pins needs (x >>= f) := by
  intro m hm hpins hneeds
  obtain ⟨hevolves, hsound, haccounts, hoffers⟩ := hx hm False.elim hpins hneeds
  rw [Interp.run_bind]
  rcases hrun : x.run m with ⟨_ | a, m₁⟩
  · rw [hrun] at hevolves hsound haccounts
    refine ⟨m₁, hevolves, hsound, haccounts, .inl ⟨?_, rfl⟩⟩
    rintro ⟨k, hk⟩
    cases hk
  · rw [hrun] at hevolves hsound haccounts hoffers
    obtain ⟨m₂, hevolves', hsound', haccounts', hresult⟩ :=
      hf a hsound (hevolves.pins.trans hpins) (hoffers a rfl)
    exact ⟨m₂, hevolves.trans hevolves', hsound', haccounts.trans haccounts', hresult⟩

/-- The value of a datum: only an object has a handle. -/
theorem toValue {d : Datum} (hd : Known pins needs d.references) :
    Handing pins needs (modifyGet (Machine.toValue d) : Interp (Except Failure Value)) := by
  intro m hm hpins hneeds
  have hrun : (modifyGet (Machine.toValue d) : Interp (Except Failure Value)).run m =
      (some (m.toValue d).1, (m.toValue d).2) := rfl
  rw [hrun]
  refine ⟨m, .refl m, hm, .refl m, ?_⟩
  rcases toValue_cases d m with ⟨failure, h⟩ | ⟨value, hvalue, h⟩ | ⟨id, rfl, h⟩
  · rw [h]
    refine .inl ⟨?_, rfl⟩
    rintro ⟨k, hk⟩
    cases hk
  · rw [h]
    refine .inl ⟨?_, rfl⟩
    rintro ⟨k, hk⟩
    cases hk
    cases hvalue
  · rw [h]
    exact .inr ⟨id, hd.offers hm hpins hneeds id (by simp), rfl⟩

theorem handOver {d : Datum} (hd : Known pins needs d.references) :
    Handing pins needs (Interp.handOver Interp.invoke d) :=
  bind (Safe.described faithful_invoke (fun _ _ ↦ rfl) hd) fun _ ↦ toValue known_self

/-- What throws has no result. -/
theorem of_none {action : Interp (Except Failure Value)}
    {gives : Except Failure Value → List ObjectId}
    (h : Safe False pins needs action gives) (hnone : ∀ m, (action.run m).1 = none) :
    Handing pins needs action := by
  intro m hm hpins hneeds
  obtain ⟨hevolves, hsound, haccounts, -⟩ := h hm False.elim hpins hneeds
  refine ⟨_, hevolves, hsound, haccounts, .inl ⟨?_, rfl⟩⟩
  rintro ⟨k, hk⟩
  rw [hnone] at hk
  cases hk

theorem holding {values : List Datum} {action : Interp (Except Failure Value)}
    (hvalues : Known pins needs (values.flatMap Datum.references))
    (h : Handing (values ++ pins) needs action) :
    Handing pins needs (Interp.holding values action) := by
  intro m hm hpins hneeds
  subst hpins
  obtain ⟨m', hevolves, hsound, haccounts, hresult⟩ :=
    h (hm.pinning (hvalues.offers hm rfl hneeds)) rfl hneeds
  refine ⟨{ m' with pins := m.pins }, { hevolves with pins := rfl }, hsound.unpinning hevolves.pins,
    haccounts, ?_⟩
  rcases hresult with ⟨hno, hafter⟩ | ⟨id, hoffers, hrun⟩
  · exact .inl ⟨hno, congrArg (fun after : Machine ↦ { after with pins := m.pins }) hafter⟩
  · refine .inr ⟨id, hoffers, ?_⟩
    show (let (result, after) := action.run { m with pins := values ++ m.pins }
      (result, { after with pins := m.pins })) = _
    rw [hrun]
    rfl

theorem getProperty (h : Pinned pins [id]) (key : String) : Handing pins needs (do
    Interp.handOver Interp.invoke (← Interp.read Interp.invoke id key)) :=
  bind (Safe.read faithful_invoke h.known key) fun _ ↦ handOver known_append_left

theorem runSource (source : Source) (file : String) :
    Handing pins needs (Machine.runSource source file) := by
  unfold Machine.runSource
  split
  · next mistake _ =>
    have hraise : Safe False pins needs
        (Interp.raiseMistake file mistake : Interp (Except Failure Value)) fun _ ↦ [] :=
      .raiseMistake file mistake
    refine of_none hraise fun m ↦ ?_
    unfold Interp.raiseMistake
    exact Safe.run_bind_eq_none (fun id m ↦ rfl) m
  · next program _ => exact bind (Safe.runProgram file program) fun _ ↦ handOver known_self

end Handing

end ScriptBridge.Script
