import ScriptBridge.Proofs.Script.Payloads

/-!
# Constructions by native code

The arguments of a constructor are handed over one by one. An object gets a handle of its own, and
scripts that run while later arguments are looked at find that handle among the others; when native
code is done, all of them are taken back. So a construction leaves the handles as it found them, and
those that it gave out meanwhile are not given out again.
-/

namespace ScriptBridge.Script

open Machine

variable {t : Prop} {pins : List Datum} {needs : List ObjectId} {id x : ObjectId}
  {invoke : Invoke} {m m' m'' : Machine} {made : List NativeClass} {ds : List Datum}
  {values : List Value}

/-! ## New handles -/

namespace Machine

/-- A handle is given out as long as there are indices for another one. -/
theorem handOut_of_lt (h : m.nextHandle < mostHandles) (id : ObjectId) :
    m.handOut id = (.ok ⟨m.nextHandle⟩, (m.issue id).2) := by
  rw [handOut, if_pos h]
  rfl

theorem handOut_of_le (h : mostHandles ≤ m.nextHandle) (id : ObjectId) :
    m.handOut id = (.error noHandleLeft, m) := by
  rw [handOut, if_neg (Nat.not_lt.mpr h)]

theorem handOut_cases (id : ObjectId) (m : Machine) :
    (∃ failure, m.handOut id = (.error failure, m)) ∨
      m.handOut id = (.ok ⟨m.nextHandle⟩, (m.issue id).2) :=
  (Nat.lt_or_ge m.nextHandle mostHandles).symm.imp (fun h ↦ ⟨_, handOut_of_le h id⟩)
    fun h ↦ handOut_of_lt h id

theorem heap_handOut (id : ObjectId) (m : Machine) : (m.handOut id).2.heap = m.heap := by
  unfold handOut
  split <;> rfl

/-- What becomes of a datum that leaves the heap: only an object changes the machine. -/
theorem toValue_cases (d : Datum) (m : Machine) :
    (∃ failure, m.toValue d = (.error failure, m)) ∨
      (∃ value, value.asObject? = none ∧ m.toValue d = (.ok value, m)) ∨
      ∃ id, d = .object id ∧ m.toValue d = (.ok (.object ⟨m.nextHandle⟩), (m.issue id).2) := by
  cases d with
  | object id =>
    rcases handOut_cases id m with ⟨failure, hout⟩ | hout
    · exact .inl ⟨failure, by rw [toValue, hout]; rfl⟩
    · exact .inr (.inr ⟨id, rfl, by rw [toValue, hout]; rfl⟩)
  | string units =>
    cases hdecode : units.decode with
    | ok s => exact .inr (.inl ⟨.string s, rfl, by simp only [toValue, hdecode]⟩)
    | error place => exact .inl ⟨_, by simp only [toValue, hdecode]; rfl⟩
  | undefined | null | boolean | integer | double | symbol | bigint =>
    exact .inr (.inl ⟨_, rfl, rfl⟩)

/-- What is offered may be given a handle. -/
theorem Sound.issue (h : Sound m) (hid : m.Offers id) : Sound (m.issue id).2 := by
  have hslots : Sound { m with
      slots := m.slots.insert ⟨m.nextHandle⟩ ⟨id, true⟩, nextHandle := m.nextHandle + 1 } := by
    refine h.withSlots _ fun {k s} hs ↦ ?_
    rw [Std.ExtTreeMap.getElem?_insert] at hs
    split at hs
    · next heq =>
      cases hs
      rw [← Std.compare_eq_iff_eq.mp heq]
      exact ⟨Nat.lt_succ_self _, .inr hid⟩
    · exact ⟨Nat.lt_succ_of_lt (h.slots_lt hs), .inl ⟨s, hs, rfl, fun h ↦ h⟩⟩
  exact hslots.withHeld rfl rfl rfl rfl rfl rfl fun hd _ ↦ .inl hd

theorem getElem?_slots_issue (m : Machine) (id : ObjectId) (k : Handle) :
    (m.issue id).2.slots[k]? = if k = ⟨m.nextHandle⟩ then some ⟨id, true⟩ else m.slots[k]? := by
  rw [slots_issue, Std.ExtTreeMap.getElem?_insert]
  by_cases hk : k = ⟨m.nextHandle⟩
  · simp [hk, Machine.issue]
  · simp [hk, Ne.symm hk, Machine.issue]

/-- A handle is given out. -/
theorem issues_issue (m : Machine) (id : ObjectId) :
    Issues m (m.issue id).2 [[⟨m.nextHandle⟩]] := by
  refine ⟨[⟨m.nextHandle⟩], rfl, ⟨List.pairwise_singleton _ _, fun k hk ↦ ?_⟩, ?_⟩
  · rw [List.mem_singleton.mp hk]
    exact ⟨Nat.le_refl _, Nat.lt_succ_self _⟩
  · exact .singleton _

theorem unfolds_issue (m : Machine) (id : ObjectId) :
    Unfolds made [⟨m.nextHandle⟩] m (m.issue id).2 :=
  { Unfolds.refl m with
    nextHandle := Nat.le_succ _
    trace := ⟨[], (List.append_nil _).symm, issues_issue m id, fun _ ↦ Nat.zero_add _⟩ }

theorem getElem?_retire (handles : List Handle) (m : Machine) (h : Handle) :
    (m.retire handles).slots[h]? = if h ∈ handles then none else m.slots[h]? := by
  show (handles.foldl _ m.slots)[h]? = _
  generalize m.slots = slots
  induction handles generalizing slots with
  | nil => rfl
  | cons k handles ih =>
    rw [List.foldl_cons, ih, Std.ExtTreeMap.getElem?_erase]
    by_cases hk : h = k
    · simp [hk]
    · simp [hk, Ne.symm hk]

end Machine

/-! ## Values that are handed over -/

/-- Native code sees an object as it is, and nothing else as an object. -/
theorem exists_described (invoke : Invoke) (d : Datum) (m : Machine) : ∃ seen m',
    (Interp.described invoke d).run m = (some seen, m') ∧
      ∀ x, seen = .object x → d = .object x := by
  cases d with
  | symbol number description => exact ⟨_, _, rfl, fun x hx ↦ by cases hx⟩
  | _ => exact ⟨_, _, rfl, fun _ ↦ id⟩

namespace Safe

/-- A description is read for symbols only, and they refer to nothing. -/
theorem described (hinvoke : Faithful invoke) {d : Datum} {gives : Datum → List ObjectId}
    (hsymbol : ∀ number description, gives (.symbol number description) = [])
    (hd : Known pins needs (gives d)) :
    Safe t pins needs (Interp.described invoke d) gives := by
  unfold Interp.described
  split
  · next number description =>
    have hread : Safe t pins needs (Interp.readFor invoke PrimitiveType.symbol.prototype
        (.symbol number description) "description") _ :=
      .readFor hinvoke (by simp [known_cons, PrimitiveType.prototype_pinned .symbol]) _
    exact (Safe.passingOver hread).bind fun _ ↦ .ret (by simp [hsymbol])
  · exact .ret hd

end Safe

namespace Machine

/-- Values have been handed over for data. The handles among them are held back for native code, and
lead to the objects that they stand for; every other handle is as it was. -/
structure HandsOver (m : Machine) (ds : List Datum) (values : List Value) (m' : Machine) :
    Prop where
  unfolds : Unfolds [] (values.filterMap Value.asObject?) m m'
  sound : Sound m'
  pins : m'.pins = m.pins
  accounts : Accounts m true m'
  slots : ∀ k ∉ values.filterMap Value.asObject?, m'.slots[k]? = m.slots[k]?
  leads : ∀ (i : Nat) k, values[i]? = some (.object k) →
    ∃ x, ds[i]? = some (.object x) ∧ m'.slots[k]? = some ⟨x, true⟩

namespace HandsOver

variable {d : Datum} {value : Value} {k : Handle}

theorem none (hevolves : Evolves [] m m') (hsound : Sound m') (haccounts : Accounts m true m')
    (ds : List Datum) : HandsOver m ds [] m' where
  unfolds := hevolves.toUnfolds
  sound := hsound
  pins := hevolves.pins
  accounts := haccounts
  slots k _ := by rw [hevolves.slots]
  leads i k hk := by cases hk

/-- A value that is no object is handed over first. -/
theorem cons_plain (hevolves : Evolves [] m m') (haccounts : Accounts m true m')
    (hvalue : value.asObject? = Option.none) (h : HandsOver m' ds values m'') (d : Datum) :
    HandsOver m (d :: ds) (value :: values) m'' where
  unfolds := by
    rw [List.filterMap_cons_none hvalue]
    exact hevolves.toUnfolds.trans h.unfolds
  sound := h.sound
  pins := h.pins.trans hevolves.pins
  accounts := haccounts.trans h.accounts
  slots k hk := by
    rw [List.filterMap_cons_none hvalue] at hk
    rw [h.slots k hk, hevolves.slots]
  leads i k hk := by
    cases i with
    | zero =>
      obtain rfl : value = .object k := Option.some.inj hk
      cases hvalue
    | succ i => exact h.leads i k hk

/-- Handles that are handed over later are others. -/
theorem index_ge (h : HandsOver m ds values m') (hk : k ∈ values.filterMap Value.asObject?) :
    m.nextHandle ≤ k.index := by
  obtain ⟨events, -, hissues, -⟩ := h.unfolds.trace
  exact (hissues.bounds (List.mem_append_left _ hk)).1

/-- An object is handed over first. -/
theorem cons_object (hevolves : Evolves [] m m') (haccounts : Accounts m true m')
    (h : HandsOver (m'.issue x).2 ds values m'') :
    HandsOver m (.object x :: ds) (.object ⟨m'.nextHandle⟩ :: values) m'' where
  unfolds := (hevolves.toUnfolds.trans (unfolds_issue m' x)).trans h.unfolds
  sound := h.sound
  pins := h.pins.trans hevolves.pins
  accounts := haccounts.trans ((Accounts.of_eq rfl rfl).trans h.accounts)
  slots k hk := by
    obtain ⟨hne, hk⟩ := not_or.mp (mt List.mem_cons.mpr hk)
    rw [h.slots k hk, getElem?_slots_issue, if_neg hne, hevolves.slots]
  leads i k hk := by
    cases i with
    | zero =>
      obtain rfl : ⟨m'.nextHandle⟩ = k := Value.object.inj (Option.some.inj hk)
      refine ⟨x, rfl, ?_⟩
      rw [h.slots _ fun hmem ↦ Nat.not_succ_le_self _ (h.index_ge hmem), getElem?_slots_issue,
        if_pos rfl]
    | succ i => exact h.leads i k hk

end HandsOver

/-- Data that are in use are handed over one by one, up to the first that cannot leave. -/
theorem Sound.handsOver (h : Sound m) (hinvoke : Faithful invoke)
    (hds : Pinned m.pins (ds.flatMap Datum.references)) : ∃ values failure m',
      (Interp.handOverAll invoke ds).run m = (some (values, failure), m') ∧
        HandsOver m ds values m' := by
  induction ds generalizing m with
  | nil => exact ⟨[], none, m, rfl, .none (.refl m) h (.refl m) []⟩
  | cons d ds ih =>
    obtain ⟨seen, m₁, hdescribed, hobject⟩ := exists_described invoke d m
    have hsafe : Safe False m.pins [] (Interp.described invoke d) fun _ ↦ [] :=
      .described hinvoke (fun _ _ ↦ rfl) known_nil
    obtain ⟨hevolves, hsound, haccounts, -⟩ := hsafe h False.elim rfl (List.forall_mem_nil _)
    rw [hdescribed] at hevolves hsound haccounts
    have hpinned : Pinned m₁.pins (d.references ++ ds.flatMap Datum.references) :=
      hevolves.pins ▸ hds
    have hover : (Interp.handOver invoke d).run m =
        (some (m₁.toValue seen).1, (m₁.toValue seen).2) := by
      unfold Interp.handOver
      rw [run_bind_of hdescribed]
      rfl
    rw [Interp.handOverAll, run_bind_of hover]
    rcases toValue_cases seen m₁ with ⟨failure, hvalue⟩ | ⟨value, hplain, hvalue⟩ | ⟨x, rfl, hvalue⟩
    · rw [hvalue]
      exact ⟨[], some failure, m₁, rfl, .none hevolves hsound haccounts _⟩
    · obtain ⟨values, failure, m', hrest, hhands⟩ := ih hsound (by grind)
      rw [hvalue]
      dsimp only
      rw [run_bind_of hrest]
      exact ⟨_, _, _, rfl, hhands.cons_plain hevolves haccounts hplain d⟩
    · obtain rfl := hobject x rfl
      have hoffers : m₁.Offers x := hsound.offers_pinned (hpinned x (by simp))
      obtain ⟨values, failure, m', hrest, hhands⟩ :=
        ih (hsound.issue hoffers) (show Pinned m₁.pins _ by grind)
      rw [hvalue]
      dsimp only
      rw [run_bind_of hrest]
      exact ⟨_, _, _, rfl, hhands.cons_object hevolves haccounts⟩

/-- Native code is told of what is held back for it, or of nothing. -/
theorem Unfolds.told {held : List Handle} (h : Unfolds made held m m') {events : List Notice}
    (hhandles : (events.map Notice.handles).Sublist [held])
    (hfinal : ∀ payload, events.countP (Notice.finalizes payload) = 0) :
    Unfolds made [] m { m' with trace := m'.trace ++ events } :=
  { h with
    trace := by
      obtain ⟨earlier, htrace, hissues, hlost⟩ := h.trace
      refine ⟨earlier ++ events, by rw [htrace, List.append_assoc], ?_, fun payload ↦ ?_⟩
      · have htold : Issues m m' ((earlier ++ events).map Notice.handles) := by
          refine hissues.subperm ?_
          rw [List.map_append]
          exact (hhandles.append_left _).subperm.trans (List.perm_append_singleton ..).subperm
        exact htold.nil_cons
      · rw [List.countP_append, hfinal]
        exact hlost payload }

/-- Native code is done with what was handed over, whether it was told of it or not. -/
def finish (values : List Value) (events : List Notice) (m : Machine) : Machine :=
  retire (values.filterMap Value.asObject?) { m with trace := m.trace ++ events }

namespace HandsOver

variable {events : List Notice}

/-- The handles that were handed over are new, so the others are those there were before. -/
theorem slots_finish (h : HandsOver m ds values m') (hm : Sound m) (events : List Notice) :
    (m'.finish values events).slots = m.slots := by
  apply Std.ExtTreeMap.ext_getElem?
  intro k
  rw [finish, getElem?_retire]
  split
  · next hk =>
    cases hold : m.slots[k]? with
    | none => rfl
    | some s => exact absurd (hm.slots_lt hold) (Nat.not_lt.mpr (h.index_ge hk))
  · next hk => exact h.slots k hk

theorem evolves_finish (h : HandsOver m ds values m') (hm : Sound m)
    (hhandles : (events.map Notice.handles).Sublist [values.filterMap Value.asObject?])
    (hfinal : ∀ payload, events.countP (Notice.finalizes payload) = 0) :
    Evolves [] m (m'.finish values events) :=
  { h.unfolds.told hhandles hfinal with
    slots := h.slots_finish hm events
    pins := h.pins }

theorem sound_finish (h : HandsOver m ds values m') (events : List Notice) :
    Sound (m'.finish values events) := by
  have htold : Sound { m' with trace := m'.trace ++ events } :=
    h.sound.withHeld rfl rfl rfl rfl rfl rfl fun hd _ ↦ .inl hd
  refine htold.withSlots m'.nextHandle fun {k s} hs ↦ ?_
  have hget := getElem?_retire (values.filterMap Value.asObject?) m' k
  rw [show (m'.retire (values.filterMap Value.asObject?)).slots[k]? = some s from hs] at hget
  split at hget
  · cases hget
  · exact ⟨h.sound.slots_lt hget.symm, .inl ⟨s, hget.symm, rfl, fun h ↦ h⟩⟩

end HandsOver

end Machine

/-! ## Building a payload -/

section

variable {spec : NativeClass} {constructor : NativeConstructor} {arguments : List Datum}
  {calling : Machine}

/-- What was asked for an argument that cannot be handed over is nothing. -/
theorem run_buildPayload_of_failure {failure : Failure}
    (h : (Interp.handOverAll invoke arguments).run m = (some (values, some failure), calling)) :
    (Interp.buildPayload invoke spec constructor arguments).run m =
      (some (.error failure), calling.finish values []) := by
  unfold Interp.buildPayload
  rw [run_bind_of h, finish, List.append_nil]
  rfl

/-- The call of a constructor is noted. -/
theorem run_buildPayload
    (h : (Interp.handOverAll invoke arguments).run m = (some (values, none), calling)) :
    (Interp.buildPayload invoke spec constructor arguments).run m =
      (some (constructor values), calling.finish values [.construct spec.name values]) := by
  unfold Interp.buildPayload
  rw [run_bind_of h]
  rfl

/-- Native code has handles for the arguments only while it builds a payload, and whether it was
called or not, none of them is left. What is built is what the constructor gives. -/
theorem Machine.Sound.buildsPayload (h : Sound m) (hinvoke : Faithful invoke) (spec : NativeClass)
    (constructor : NativeConstructor)
    (harguments : Pinned m.pins (arguments.flatMap Datum.references)) :
    ∃ values failure calling events result,
      (Interp.handOverAll invoke arguments).run m = (some (values, failure), calling) ∧
        HandsOver m arguments values calling ∧
        (Interp.buildPayload invoke spec constructor arguments).run m =
          (some result, calling.finish values events) ∧
        Evolves [] m (calling.finish values events) ∧
        ∀ built, result = .ok built → failure = none ∧ constructor values = .ok built ∧
          events = [.construct spec.name values] := by
  obtain ⟨values, failure, calling, hrun, hhands⟩ := h.handsOver hinvoke harguments
  cases failure with
  | some failure =>
    refine ⟨_, _, _, _, _, hrun, hhands, run_buildPayload_of_failure hrun,
      hhands.evolves_finish h (List.nil_sublist _) fun _ ↦ rfl, fun _ h ↦ by cases h⟩
  | none =>
    refine ⟨_, _, _, _, _, hrun, hhands, run_buildPayload hrun,
      hhands.evolves_finish h ?_ fun _ ↦ rfl, fun _ hbuilt ↦ ⟨rfl, hbuilt, rfl⟩⟩
    exact List.Sublist.refl _

end

theorem Datum.toList_of_optionalObject {d : Datum} {found : Option ObjectId}
    (h : d.optionalObject = .ok found) : found.toList = d.references := by
  cases d <;> cases h <;> rfl

theorem Datum.singleton_of_requiredObject {d : Datum} (h : d.requiredObject = .ok id) :
    [id] = d.references := by
  cases d <;> cases h
  rfl

namespace Safe

theorem buildPayload (hinvoke : Faithful invoke) (spec : NativeClass)
    (constructor : NativeConstructor) {arguments : List Datum}
    (harguments : Pinned pins (arguments.flatMap Datum.references)) :
    Safe t pins needs (Interp.buildPayload invoke spec constructor arguments) fun _ ↦ [] := by
  intro m hm _ hpins _
  obtain ⟨values, failure, calling, events, result, -, hhands, hrun, hevolves, -⟩ :=
    hm.buildsPayload hinvoke spec constructor (hpins ▸ harguments)
  rw [hrun]
  exact ⟨hevolves, hhands.sound_finish events, hhands.accounts, fun _ _ ↦ List.forall_mem_nil _⟩

theorem raiseFailure (hinvoke : Faithful invoke) (message : String) :
    Safe t pins needs (Interp.raiseFailure invoke message) Datum.references := by
  unfold Interp.raiseFailure
  refine (Safe.allocate (.empty (by simp) known_nil rfl rfl)).bind fun id ↦ ?_
  have hassign : Safe t ([.object id] ++ pins) (id :: needs)
      (Interp.assignOrThrow invoke id "message" (.text message)) fun _ ↦ [id] :=
    (Safe.assignOrThrow hinvoke (by grind)).giving fun _ ↦ by grind
  exact (Safe.holding (by grind) hassign).bind fun _ ↦ .raiseDatum (by grind)

theorem constructionTarget {this : Datum} {newTarget : Option ObjectId}
    (h : Known pins needs (this.references ++ newTarget.toList)) :
    Safe t pins needs (Interp.constructionTarget this newTarget) fun target ↦ target.toList := by
  unfold Interp.constructionTarget
  split
  · exact .ret (by grind)
  · rw [← bind_pure (Interp.function? this)]
    exact Safe.function_bind (.ret known_nil) fun id hid ↦ .ret (by grind)

/-- The arguments of a construction are held by the call. -/
theorem constructNative (hinvoke : Faithful invoke) (spec : NativeClass) {this : Datum}
    {newTarget : Option ObjectId} {arguments : List Datum}
    (h : Known pins needs (this.references ++ newTarget.toList))
    (harguments : Pinned pins (arguments.flatMap Datum.references)) :
    Safe t pins needs (Interp.constructNative invoke spec this newTarget arguments)
      Datum.references := by
  unfold Interp.constructNative
  refine (Safe.constructionTarget h).bind fun target ↦ ?_
  split
  · exact .raiseError _ _
  · next target =>
    refine (Safe.read hinvoke (by grind) "prototype").bind fun d ↦ ?_
    split
    · exact .raiseError _ _
    · next prototype hprototype =>
      have hknown : Known pins (d.references ++ [target]) prototype.toList := by
        rw [Datum.toList_of_optionalObject hprototype]
        exact known_append_left
      refine (Safe.allocate (.ordinary hknown)).bind fun made ↦ ?_
      refine Safe.holding (by grind) ?_
      split
      · exact .ret (by grind)
      · next constructor _ =>
        refine (Safe.buildPayload hinvoke spec constructor (by grind)).bind fun result ↦ ?_
        split
        · exact .raiseFailure hinvoke _
        · exact .ret (by grind)
        · exact (Safe.attachPayload hinvoke (by grind) _).bind fun _ ↦ .ret (by grind)

end Safe

end ScriptBridge.Script
