import ScriptBridge.Proofs.Script.Pending

/-!
# Safe interpretations

An interpretation is safe if it keeps a sound machine sound, as long as it is given objects that the
machine offers, and if it tells which objects are offered afterwards. What is pinned stays offered
throughout; what is not may be gone as soon as a function has been called. It also accounts for the
pending exception. Safety goes through the combinators of which interpretations are made, so that
every function of the interpreter needs one lemma only, about its own steps.
-/

namespace ScriptBridge.Script

open Machine

variable {α β : Type} {t : Prop} {pins : List Datum} {needs ids : List ObjectId} {id : ObjectId}
  {m m' : Machine}

/-! ## What is known to be offered -/

/-- The objects that are offered as long as the values are pinned. -/
def pinned (pins : List Datum) : List ObjectId :=
  Realm.anchors ++ pins.flatMap Datum.references

/-- The objects are among those that are needed, or they are pinned. -/
def Known (pins : List Datum) (needs ids : List ObjectId) : Prop :=
  ∀ id ∈ ids, id ∈ needs ∨ id ∈ pinned pins

@[simp]
theorem known_nil : Known pins needs [] := List.forall_mem_nil _

@[simp]
theorem known_cons {ids : List ObjectId} :
    Known pins needs (id :: ids) ↔ (id ∈ needs ∨ id ∈ pinned pins) ∧ Known pins needs ids :=
  List.forall_mem_cons

@[simp]
theorem known_append {more : List ObjectId} :
    Known pins needs (ids ++ more) ↔ Known pins needs ids ∧ Known pins needs more :=
  List.forall_mem_append

@[simp]
theorem known_self : Known pins needs needs := fun _ h ↦ .inl h

@[simp]
theorem known_append_left {more : List ObjectId} : Known pins (needs ++ more) needs :=
  fun _ h ↦ .inl (List.mem_append_left _ h)

@[simp]
theorem known_append_right {more : List ObjectId} : Known pins (more ++ needs) needs :=
  fun _ h ↦ .inl (List.mem_append_right _ h)

theorem Known.mono {more : List ObjectId} (h : Known pins needs ids)
    (hmore : Known pins more needs) : Known pins more ids :=
  fun id hid ↦ (h id hid).elim (hmore id) .inr

@[grind =]
theorem known_iff : Known pins needs ids ↔ ∀ id ∈ ids, id ∈ needs ∨ id ∈ pinned pins := Iff.rfl

/-- What is pinned is known whatever is needed. -/
def Pinned (pins : List Datum) (ids : List ObjectId) : Prop := ∀ id ∈ ids, id ∈ pinned pins

@[grind =]
theorem pinned_append {more : List Datum} {id : ObjectId} : id ∈ pinned (more ++ pins) ↔
    id ∈ pinned pins ∨ ∃ d ∈ more, id ∈ d.references := by
  grind [pinned]

@[grind =]
theorem pinned_cons {d : Datum} {id : ObjectId} : id ∈ pinned (d :: pins) ↔
    id ∈ pinned pins ∨ id ∈ d.references := by
  grind [pinned]

@[grind =]
theorem pinned_iff : Pinned pins ids ↔ ∀ id ∈ ids, id ∈ pinned pins := Iff.rfl

/-- What data in use refer to is pinned. -/
theorem Pinned.of_subset {values : List Datum} (h : values ⊆ pins) :
    Pinned pins (values.flatMap Datum.references) := by
  intro id hid
  obtain ⟨d, hd, hid⟩ := List.mem_flatMap.mp hid
  exact List.mem_append_right _ (List.mem_flatMap.mpr ⟨d, h hd, hid⟩)

theorem Pinned.known (h : Pinned pins ids) : Known pins needs ids := fun id hid ↦ .inr (h id hid)

/-- An object that may be put on the heap: it refers to what is known, it neither is a carrier nor
has one, and it is not the constructor of a native class. -/
structure Placeable (pins : List Datum) (needs : List ObjectId) (o : Object) : Prop where
  references : Known pins needs o.references
  payload? : o.payload? = none
  native? : o.native? = none
  hidden : o.hidden = []

/-! ## Safety -/

/-- The interpretation keeps machines sound on which the needed objects are offered, and accounts
for the pending exception. It gives what is offered afterwards. Under the condition `t` the property
of carriers has been named. -/
def Safe (t : Prop) (pins : List Datum) (needs : List ObjectId) (action : Interp α)
    (gives : α → List ObjectId) : Prop :=
  ∀ ⦃m : Machine⦄, Sound m → (t → m.ledger.isTouched = true) → m.pins = pins →
    (∀ id ∈ needs, m.Offers id) →
      Evolves [] m (action.run m).2 ∧ Sound (action.run m).2 ∧
        Accounts m (action.run m).1.isSome (action.run m).2 ∧
        ∀ a, (action.run m).1 = some a → ∀ id ∈ gives a, (action.run m).2.Offers id

theorem Machine.Sound.offers_pinned (h : Sound m) (hid : id ∈ pinned m.pins) : m.Offers id := by
  apply h.roots
  rw [mem_roots, h.anchors]
  rcases List.mem_append.mp hid with hid | hid
  · exact .inl hid
  · obtain ⟨d, hd, hid⟩ := List.mem_flatMap.mp hid
    exact .inr (.inr ⟨d, mem_held.mpr (.inr (.inr (.inl hd))), hid⟩)

theorem Known.offers (h : Known pins needs ids) (hsound : Sound m) (hpins : m.pins = pins)
    (hneeds : ∀ id ∈ needs, m.Offers id) : ∀ id ∈ ids, m.Offers id := fun id hid ↦
  (h id hid).elim (hneeds id) fun hpinned ↦ hsound.offers_pinned (hpins ▸ hpinned)

theorem Interp.run_bind (x : Interp α) (f : α → Interp β) (m : Machine) :
    (x >>= f).run m = match x.run m with
      | (some a, m') => (f a).run m'
      | (none, m') => (none, m') := by
  rcases h : x.run m with ⟨_ | a, m'⟩
  · simp only [bind, OptionT.bind, OptionT.mk, OptionT.run, StateT.bind] at h ⊢
    rw [h]
    rfl
  · simp only [bind, OptionT.bind, OptionT.mk, OptionT.run, StateT.bind] at h ⊢
    rw [h]

namespace Machine

theorem run_bind_of {action : Interp α} {f : α → Interp β} {a : α}
    (h : action.run m = (some a, m')) : (action >>= f).run m = (f a).run m' := by
  rw [Interp.run_bind, h]

theorem run_bind_of_none {action : Interp α} {f : α → Interp β}
    (h : action.run m = (none, m')) : (action >>= f).run m = (none, m') := by
  rw [Interp.run_bind, h]

theorem run_object (m : Machine) (id : ObjectId) :
    (Interp.object id).run m = (some (m.object id), m) :=
  rfl

end Machine

namespace Safe

variable {x : Interp α} {f : α → Interp β} {gives gives' : α → List ObjectId}
  {gx : α → List ObjectId} {gf : β → List ObjectId}

/-- What is given may be less. -/
theorem giving (h : Safe t pins needs x gx) (hg : ∀ a, Known pins (gx a) (gives' a)) :
    Safe t pins needs x gives' := by
  intro m hm ht hpins hneeds
  obtain ⟨hevolves, hsound, haccounts, hoffers⟩ := h hm ht hpins hneeds
  exact ⟨hevolves, hsound, haccounts, fun a ha ↦
    (hg a).offers hsound (hevolves.pins.trans hpins) (hoffers a ha)⟩

/-- What is needed may be more. -/
theorem needing {more : List ObjectId} (h : Safe t pins needs x gx) (hn : Known pins more needs) :
    Safe t pins more x gx :=
  fun _ hm ht hpins hneeds ↦ h hm ht hpins (hn.offers hm hpins hneeds)

/-- The outcome of the first interpretation may be used in the second. -/
theorem bind_of (hx : Safe t pins needs x gx)
    (hf : ∀ a, (∃ m, (x.run m).1 = some a) → Safe t pins (gx a) (f a) gf) :
    Safe t pins needs (x >>= f) gf := by
  intro m hm ht hpins hneeds
  obtain ⟨hevolves, hsound, haccounts, hoffers⟩ := hx hm ht hpins hneeds
  rw [Interp.run_bind]
  rcases hrun : x.run m with ⟨_ | a, m'⟩
  · rw [hrun] at hevolves hsound haccounts
    exact ⟨hevolves, hsound, haccounts, fun a ha ↦ by cases ha⟩
  · rw [hrun] at hevolves hsound haccounts hoffers
    obtain ⟨hevolves', hsound', haccounts', hoffers'⟩ := hf a ⟨m, by rw [hrun]⟩ hsound
      (fun h ↦ hevolves.isTouched (ht h)) (hevolves.pins.trans hpins) (hoffers a rfl)
    exact ⟨hevolves.trans hevolves', hsound', haccounts.trans haccounts', hoffers'⟩

theorem bind (hx : Safe t pins needs x gx) (hf : ∀ a, Safe t pins (gx a) (f a) gf) :
    Safe t pins needs (x >>= f) gf :=
  hx.bind_of fun a _ ↦ hf a

theorem done (a : α) : Safe t pins needs (pure a : Interp α) fun _ ↦ needs :=
  fun m hm _ _ hneeds ↦ ⟨.refl m, hm, .refl m, fun _ _ ↦ hneeds⟩

/-- A result for which what is given is known. -/
theorem ret {a : α} (h : Known pins needs (gives' a)) :
    Safe t pins needs (Pure.pure a : Interp α) gives' := by
  intro m hm _ hpins hneeds
  refine ⟨.refl m, hm, .refl m, fun b hb ↦ ?_⟩
  obtain rfl : a = b := Option.some.inj hb
  exact h.offers hm hpins hneeds

theorem map {g : α → β} (hx : Safe t pins needs x gx) (hg : ∀ a, Known pins (gx a) (gf (g a))) :
    Safe t pins needs (g <$> x) gf := by
  rw [map_eq_pure_bind]
  exact hx.bind fun a ↦ .ret (hg a)

/-- Looking at the machine. -/
theorem view {g : Machine → α}
    (h : ∀ m, Sound m → (t → m.ledger.isTouched = true) → m.pins = pins →
      (∀ id ∈ needs, m.Offers id) → ∀ id ∈ gx (g m), m.Offers id) :
    Safe t pins needs (Interp.view g) fun a ↦ gx a ++ needs := by
  intro m hm ht hpins hneeds
  refine ⟨.refl m, hm, .refl m, fun a ha ↦ ?_⟩
  obtain rfl : g m = a := Option.some.inj ha
  exact List.forall_mem_append.mpr ⟨h m hm ht hpins hneeds, hneeds⟩

/-- Looking for something that is no object. -/
theorem look {g : Machine → α} : Safe t pins needs (Interp.view g) fun _ ↦ needs :=
  fun m hm _ _ hneeds ↦ ⟨.refl m, hm, .refl m, fun _ _ ↦ hneeds⟩

theorem get_bind {f : Machine → Interp β} (hf : ∀ m, Safe t pins needs (f m) gf) :
    Safe t pins needs ((get : Interp Machine) >>= f) gf :=
  fun m hm ht hpins hneeds ↦ hf m hm ht hpins hneeds

/-- A change that keeps everything offered. -/
theorem modifying {g : Machine → Machine}
    (h : ∀ m, Sound m → (t → m.ledger.isTouched = true) → m.pins = pins →
      (∀ id ∈ needs, m.Offers id) → Evolves [] m (g m) ∧ Sound (g m) ∧ Accounts m true (g m) ∧
        ∀ id, m.Offers id → (g m).Offers id) :
    Safe t pins needs (modify g : Interp Unit) fun _ ↦ needs := by
  intro m hm ht hpins hneeds
  obtain ⟨hevolves, hsound, haccounts, hkeeps⟩ := h m hm ht hpins hneeds
  exact ⟨hevolves, hsound, haccounts, fun _ _ id hid ↦ hkeeps id (hneeds id hid)⟩

theorem allocate {o : Object} (ho : Placeable pins needs o) :
    Safe t pins needs (Interp.allocate o) fun id ↦ id :: needs := by
  intro m hm _ hpins hneeds
  obtain ⟨hrefs, hpayload, hnative, hhidden⟩ := ho
  have hplaced := hm.toTidy.evolves_placed o
  rw [hnative] at hplaced
  have hrun : (Interp.allocate o).run m = (some m.fresh, m.placed o) :=
    congrArg (fun p : ObjectId × Machine ↦ (some p.1, p.2)) (allocate_eq hpayload)
  rw [hrun]
  refine ⟨hplaced, hm.placed (hrefs.offers hm hpins hneeds) hhidden,
    .of_eq rfl rfl, fun a ha ↦ ?_⟩
  obtain rfl : m.fresh = a := Option.some.inj ha
  exact List.forall_mem_cons.mpr ⟨hm.toTidy.offers_fresh hpayload,
    fun id hid ↦ hm.toTidy.offers_placed (hneeds id hid)⟩

theorem update {f : Object → Object} (id : ObjectId)
    (hf : ∀ m, Sound m → (t → m.ledger.isTouched = true) → (∀ id, Known pins needs [id] →
      m.Offers id) → m.Revises f) :
    Safe t pins needs (Interp.update id f) fun _ ↦ needs := by
  apply Safe.modifying
  intro m hm ht hpins hneeds
  have hrevises :=
    hf m hm ht fun id hid ↦ hid.offers hm hpins hneeds id (List.mem_singleton_self id)
  exact ⟨evolves_update m id hrevises.native?, hm.update hrevises id, .of_eq rfl rfl,
    fun _ ↦ offers_update⟩

/-- An event that is neither the end of a payload nor tells of handles. -/
theorem emit {event : Notice} (hhandles : event.handles = [])
    (hfinal : ∀ payload, event.finalizes payload = false) :
    Safe t pins needs (Interp.emit event) fun _ ↦ needs := by
  apply Safe.modifying
  intro m hm _ _ _
  refine ⟨{ Evolves.refl m with
    trace := ⟨[event], rfl, .none rfl ?_, fun payload ↦ ?_⟩ }, ?_, .of_eq rfl rfl, fun _ h ↦ h⟩
  · rw [List.map_singleton, hhandles]
    rfl
  · rw [List.countP_singleton, hfinal]
    exact Nat.zero_add _
  · exact hm.withHeld rfl rfl rfl rfl rfl rfl fun hd _ ↦ .inl hd

/-- After the property of a key has been named, it may be that of carriers. -/
theorem touch {key : String} : Safe t pins needs (Interp.touch key) fun _ ↦ needs := by
  apply Safe.modifying
  intro m hm _ _ _
  split
  · exact ⟨evolves_exposed m, hm.exposed, .of_eq rfl rfl, fun _ ↦ offers_exposed⟩
  · exact ⟨.refl m, hm, .refl m, fun _ h ↦ h⟩

theorem touch_bind {key : String} {f : Unit → Interp β}
    (hf : Safe (t ∨ key = payloadKey) pins needs (f ()) gf) :
    Safe t pins needs (Interp.touch key >>= f) gf := by
  intro m hm ht hpins hneeds
  have htouch : Safe t pins needs (Interp.touch key) fun _ ↦ needs := .touch
  obtain ⟨hevolves, hsound, haccounts, hoffers⟩ := htouch hm ht hpins hneeds
  rw [Interp.run_bind]
  have htouched : t ∨ key = payloadKey →
      ((Interp.touch key).run m).2.ledger.isTouched = true := by
    rintro (h | h)
    · exact hevolves.isTouched (ht h)
    · show (if key = payloadKey then m.exposed else m).ledger.isTouched = true
      rw [if_pos h]
      rfl
  obtain ⟨hevolves', hsound', haccounts', hoffers'⟩ :=
    hf hsound htouched (hevolves.pins.trans hpins) (hoffers () rfl)
  exact ⟨hevolves.trans hevolves', hsound', haccounts.trans haccounts', hoffers'⟩

/-! ## Exceptions -/

theorem raise {thrown : Datum} (h : Known pins needs thrown.references) :
    Safe t pins needs (Interp.raise thrown : Interp α) gives' := by
  intro m hm _ hpins hneeds
  refine ⟨{ Evolves.refl m with }, ?_, .of_raised rfl rfl,
    fun a ha ↦ by cases ha⟩
  refine hm.withHeld rfl rfl rfl rfl rfl rfl fun {d id} hd hid ↦ ?_
  rcases mem_held.mp hd with hd | hd | hd | hd
  · exact .inl (mem_held.mpr (.inl hd))
  · obtain rfl : thrown = d := Option.some.inj hd
    exact .inr (h.offers hm hpins hneeds id hid)
  · exact .inl (mem_held.mpr (.inr (.inr (.inl hd))))
  · exact .inl (mem_held.mpr (.inr (.inr (.inr hd))))

/-- What is given if there is something. -/
def givesOf (gives : α → List ObjectId) : Option α → List ObjectId
  | some a => gives a
  | none => []

theorem takePending : Safe t pins needs Interp.takePending
    fun d ↦ d.toList.flatMap Datum.references ++ needs := by
  intro m hm _ _ hneeds
  refine ⟨{ Evolves.refl m with }, ?_, .of_taken rfl rfl, fun a ha ↦ ?_⟩
  · refine hm.withHeld rfl rfl rfl rfl rfl rfl fun {d id} hd hid ↦ ?_
    rcases mem_held.mp hd with hd | hd | hd | hd
    · exact .inl (mem_held.mpr (.inl hd))
    · cases hd
    · exact .inl (mem_held.mpr (.inr (.inr (.inl hd))))
    · exact .inl (mem_held.mpr (.inr (.inr (.inr hd))))
  · obtain rfl : m.pending = a := Option.some.inj ha
    refine List.forall_mem_append.mpr ⟨fun id hid ↦ ?_, hneeds⟩
    obtain ⟨d, hd, hid⟩ := List.mem_flatMap.mp hid
    have hpending : m.pending = some d := Option.mem_toList.mp hd
    exact hm.roots (mem_roots.mpr (.inr (.inr ⟨d, mem_held.mpr (.inr (.inl hpending)), hid⟩)))

/-- What is thrown is taken before anything else is done. -/
theorem trying_bind {f : Option α → Interp β} {g : Option Datum → Interp β}
    (hx : Safe t pins needs x gx) (hf : ∀ a, Safe t pins (gx a) (f (some a)) gf)
    (hnone : f none = Interp.takePending >>= g)
    (hg : ∀ thrown, Safe t pins (thrown.toList.flatMap Datum.references) (g thrown) gf) :
    Safe t pins needs (Interp.trying x >>= f) gf := by
  intro m hm ht hpins hneeds
  obtain ⟨hevolves, hsound, haccounts, hoffers⟩ := hx hm ht hpins hneeds
  have htry : (Interp.trying x >>= f).run m = (f (x.run m).1).run (x.run m).2 :=
    Interp.run_bind ..
  rw [htry]
  rcases hrun : x.run m with ⟨_ | a, m'⟩
  · rw [hrun] at hevolves hsound haccounts
    have htaken : (f none).run m' = (g m'.pending).run { m' with pending := none } := by
      rw [hnone, Interp.run_bind]
      rfl
    have htake : Safe t pins [] Interp.takePending fun d ↦ d.toList.flatMap Datum.references :=
      Safe.takePending.giving fun _ ↦ known_append_left
    obtain ⟨htakes, hafter, -, hthrown⟩ := htake hsound (fun h ↦ hevolves.isTouched (ht h))
      (hevolves.pins.trans hpins) (List.forall_mem_nil _)
    obtain ⟨hevolves', hsound', haccounts', hoffers'⟩ := hg m'.pending hafter
      (fun h ↦ hevolves.isTouched (ht h)) (hevolves.pins.trans hpins) (hthrown _ rfl)
    rw [htaken]
    exact ⟨(hevolves.trans htakes).trans hevolves', hsound', haccounts.taken.trans haccounts',
      hoffers'⟩
  · rw [hrun] at hevolves hsound haccounts hoffers
    obtain ⟨hevolves', hsound', haccounts', hoffers'⟩ := hf a hsound
      (fun h ↦ hevolves.isTouched (ht h)) (hevolves.pins.trans hpins) (hoffers a rfl)
    exact ⟨hevolves.trans hevolves', hsound', haccounts.trans haccounts', hoffers'⟩

/-- Native code may pass over what is thrown. -/
theorem passingOver (hx : Safe t pins needs x gx) :
    Safe t pins needs (Interp.passingOver x) (givesOf gx) := by
  intro m hm ht hpins hneeds
  obtain ⟨hevolves, hsound, haccounts, hoffers⟩ := hx hm ht hpins hneeds
  cases hresult : (x.run m).1 with
  | none =>
    have hrun : (Interp.passingOver x).run m = (some none, (x.run m).2.overlook) := by
      show (some (x.run m).1, if (x.run m).1.isSome then _ else _) = _
      rw [hresult]
      rfl
    rw [hrun]
    rw [hresult] at haccounts
    refine ⟨{ hevolves with }, hsound.withHeld rfl rfl rfl rfl rfl rfl fun hd _ ↦ .inl hd,
      haccounts.overlook, ?_⟩
    intro r hr
    cases hr
    exact List.forall_mem_nil _
  | some a =>
    have hrun : (Interp.passingOver x).run m = (some (some a), (x.run m).2) := by
      show (some (x.run m).1, if (x.run m).1.isSome then _ else _) = _
      rw [hresult]
      rfl
    rw [hrun]
    rw [hresult] at haccounts
    refine ⟨hevolves, hsound, haccounts, fun r hr ↦ ?_⟩
    cases hr
    exact hoffers a hresult

/-! ## Holding values, frames, and removals -/

/-- What is held is pinned meanwhile, and may be given afterwards. -/
theorem holding {values : List Datum} (hvalues : Known pins needs (values.flatMap Datum.references))
    (hx : Safe t (values ++ pins) needs x gx) :
    Safe t pins needs (Interp.holding values x) gx := by
  intro m hm ht hpins hneeds
  subst hpins
  obtain ⟨hevolves, hsound, haccounts, hoffers⟩ :=
    hx (hm.pinning (hvalues.offers hm rfl hneeds)) ht rfl hneeds
  exact ⟨{ hevolves with pins := rfl }, hsound.unpinning hevolves.pins, haccounts, hoffers⟩

theorem inFrame {frame : Frame} (hx : Safe t pins needs x gx) :
    Safe t pins needs (Interp.inFrame frame x) gx := by
  intro m hm ht hpins hneeds
  have hframed : Sound { m with frames := frame :: m.frames } :=
    hm.withHeld rfl rfl rfl rfl rfl rfl fun hd _ ↦ .inl hd
  obtain ⟨hevolves, hsound, haccounts, hoffers⟩ := hx hframed ht hpins hneeds
  exact ⟨{ hevolves with }, hsound.withHeld rfl rfl rfl rfl rfl rfl fun hd _ ↦ .inl hd, haccounts,
    hoffers⟩

theorem updatePlace (g : Place → Place) :
    Safe t pins needs (Interp.updatePlace g) fun _ ↦ needs := by
  apply Safe.modifying
  intro m hm _ _ _
  split
  · exact ⟨.refl m, hm, .refl m, fun _ h ↦ h⟩
  · exact ⟨{ Evolves.refl m with },
      hm.withHeld rfl rfl rfl rfl rfl rfl fun hd _ ↦ .inl hd, .of_eq rfl rfl, fun _ h ↦ h⟩

/-- The result is kept when what nothing refers to is removed. -/
theorem settling {x : Interp Datum} (hx : Safe t pins needs x Datum.references) :
    Safe t pins needs (Interp.settling x) Datum.references := by
  intro m hm ht hpins hneeds
  obtain ⟨hevolves, hsound, haccounts, hoffers⟩ := hx hm ht hpins hneeds
  obtain ⟨hsettled, hremoved, hkept⟩ :=
    hsound.settle ((x.run m).1.toList.flatMap Datum.references)
  refine ⟨hevolves.trans hremoved, hsettled, haccounts.settle _, fun d hd id hid ↦ ?_⟩
  have hresult : (x.run m).1 = some d := hd
  refine hkept id ?_ (hoffers d hresult id hid)
  rw [hresult]
  simpa using hid

end Safe

end ScriptBridge.Script
