import ScriptBridge.Proofs.Script.Handles

/-!
# Accepted payloads

A payload is accepted when an object is given its carrier. That happens when a request to attach it
succeeds, and when a native constructor returns it for an instance that is then built. Every payload
has a carrier of its own, and what an object was given last is its current one.
-/

namespace ScriptBridge.Script

open Machine

variable {α β : Type} {t : Prop} {pins : List Datum} {needs : List ObjectId} {id x c : ObjectId}
  {payload : Payload} {invoke : Invoke} {m m' m'' : Machine} {k : Handle}

/-! ## Interpretations with a result -/

theorem of_run_bind {action : Interp α} {f : α → Interp β} {b : β}
    (h : (action >>= f).run m = (some b, m'')) :
    ∃ a m', action.run m = (some a, m') ∧ (f a).run m' = (some b, m'') := by
  rw [Interp.run_bind] at h
  split at h
  · next a m' hrun => exact ⟨a, m', hrun, h⟩
  · cases h

theorem run_holding (values : List Datum) (action : Interp α) (m : Machine) :
    (Interp.holding values action).run m = ((action.run { m with pins := values ++ m.pins }).1,
      { (action.run { m with pins := values ++ m.pins }).2 with pins := m.pins }) :=
  rfl

theorem of_run_holding {values : List Datum} {action : Interp α} {a : α}
    (h : (Interp.holding values action).run m = (some a, m')) :
    ∃ after, action.run { m with pins := values ++ m.pins } = (some a, after) ∧
      m' = { after with pins := m.pins } := by
  obtain ⟨hresult, hafter⟩ := Prod.mk.inj h
  exact ⟨_, Prod.ext hresult rfl, hafter.symm⟩

namespace Machine

/-- Meanwhile an object was given a new carrier of a payload, and none after it. -/
def Entrusts (m : Machine) (x : ObjectId) (payload : Payload) (m' : Machine) : Prop :=
  ∃ c, c ∉ m.carriers ∧ (c, payload) ∈ m'.ledger.made ∧ m'.current x = some c

/-- Only the ledger says which payloads were accepted. -/
theorem Entrusts.congr (h : Entrusts m x payload m') (hledger : m''.ledger = m'.ledger) :
    Entrusts m x payload m'' := by
  unfold Entrusts current at h ⊢
  rwa [hledger]

/-- What is new now was new before. -/
theorem Entrusts.of_evolves (hevolves : Evolves [] m m') (h : Entrusts m' x payload m'') :
    Entrusts m x payload m'' := by
  obtain ⟨c, hnew, hmade, hcurrent⟩ := h
  obtain ⟨new, hextends, -⟩ := hevolves.made
  refine ⟨c, fun hc ↦ hnew ?_, hmade, hcurrent⟩
  rw [carriers, hextends, List.map_append]
  exact List.mem_append_left _ hc

theorem ledger_conclude (m : Machine) (result : α) :
    (m.conclude result).state.ledger = m.ledger := by
  show (m.settle []).ledger = m.ledger
  rw [settle_eq]

/-- If a payload is attached, its carrier was given to the object. -/
theorem Sound.entrusts (h : Sound m) (hinvoke : Faithful invoke) (hoffers : m.Offers id)
    (hrun : (Interp.attachPayload invoke id payload).run m = (some (), m')) :
    Entrusts m id payload m' ∧ Evolves [] m m' := by
  have hattempted := h.attempted hinvoke hoffers payload
  rw [hrun] at hattempted
  cases hattempted with
  | @attached after hevolves _ =>
    have hplaced := h.toTidy.evolves_placed (carrierObject payload)
    refine ⟨⟨m.fresh, h.toTidy.fresh_notMem_carriers, ?_, ?_⟩,
      (hplaced.trans hevolves).entrusted (Nat.le_refl _)⟩
    · obtain ⟨new, hmade, -⟩ := hevolves.made
      show (m.fresh, payload) ∈ after.ledger.made
      rw [hmade]
      refine List.mem_append_left _ (List.mem_append_right _ ?_)
      exact List.mem_singleton_self _
    · rw [current_entrusted, if_pos rfl]

/-! ## By a request -/

theorem whileOpen_of_ok {run : Machine → Except Failure α × Machine} {a : α}
    (h : (Machine.whileOpen run m).result = .ok a) : m.isOpen = true ∧ (run m).1 = .ok a ∧
      Machine.whileOpen run m = (run m).2.conclude (run m).1 := by
  unfold Machine.whileOpen at h ⊢
  split at h
  · next hopen => exact ⟨hopen, h, by rw [if_pos hopen]⟩
  · cases h

theorem onLive_of_ok {run : ObjectId → Interp (Except Failure α)} {a : α}
    (h : (Machine.onLive k run m).1 = .ok a) : ∃ x, m.resolveLive k = .ok x ∧
      (Interp.holding [.object x] (run x)).run m = (some (.ok a), (Machine.onLive k run m).2) := by
  unfold Machine.onLive Machine.interpret at h ⊢
  split at h
  · cases h
  · next x hx =>
    refine ⟨x, hx, ?_⟩
    split at h
    · next result m' hrun =>
      rw [hrun]
      exact congrArg (fun result ↦ (some result, m')) h
    · cases h

/-- If a request to attach a payload succeeds, the object behind the handle was given it. -/
theorem Steady.entrusts (h : Steady m)
    (hresult : (Backend.setPrivateData k payload m).result = .ok ()) :
    ∃ x, m.lookup k = .ok (some x) ∧
      Entrusts m x payload (Backend.setPrivateData k payload m).state := by
  have hrequest : Backend.setPrivateData k payload m =
      Machine.whileOpen (Machine.setPrivateData k payload) m := rfl
  rw [hrequest] at hresult ⊢
  obtain ⟨hopen, hran, hstate⟩ := whileOpen_of_ok hresult
  obtain ⟨x, hx, hheld⟩ := onLive_of_ok hran
  have hoffers := (h.sound hopen).offers_resolveLive hx
  have hpinned : Sound { m with pins := [.object x] ++ m.pins } :=
    (h.sound hopen).pinning (by simpa using hoffers)
  refine ⟨x, by rw [Machine.lookup, if_pos hopen, resolve_of_resolveLive hx], ?_⟩
  obtain ⟨after, hattaches, hafter⟩ := of_run_holding hheld
  obtain ⟨⟨⟩, attached, hattach, hreturns⟩ := of_run_bind hattaches
  obtain ⟨hentrusts, -⟩ := hpinned.entrusts faithful_invoke hoffers hattach
  obtain rfl : attached = after := congrArg Prod.snd hreturns
  have hledger : (Machine.setPrivateData k payload m).2.ledger = attached.ledger := by
    unfold Machine.setPrivateData
    rw [hafter]
  rw [hstate]
  exact Entrusts.congr hentrusts ((ledger_conclude _ _).trans hledger)

/-! ## By a native constructor -/

/-- An interpretation that is safe and has a result leaves a sound machine. -/
theorem Sound.of_run {action : Interp α} {gives : α → List ObjectId} {a : α} (h : Sound m)
    (hx : Safe False m.pins needs action gives) (hneeds : ∀ id ∈ needs, m.Offers id)
    (hrun : action.run m = (some a, m')) :
    Evolves [] m m' ∧ Sound m' ∧ ∀ id ∈ gives a, m'.Offers id := by
  obtain ⟨hevolves, hsound, -, hoffers⟩ := hx h False.elim rfl hneeds
  rw [hrun] at hevolves hsound hoffers
  exact ⟨hevolves, hsound, hoffers a rfl⟩

theorem run_raiseFailure (message : String) (m : Machine) :
    ((Interp.raiseFailure invoke message).run m).1 = none := by
  unfold Interp.raiseFailure
  refine Safe.run_bind_eq_none (fun id m ↦ ?_) m
  exact Safe.run_bind_eq_none (fun _ m ↦ Safe.run_raiseDatum _ m) m

variable {spec : NativeClass} {constructor : NativeConstructor} {this : Datum}
  {newTarget : Option ObjectId} {arguments : List Datum}

/-- How a new instance is given what its constructor returns. -/
def fill (invoke : Invoke) (spec : NativeClass) (constructor : NativeConstructor)
    (made : ObjectId) (arguments : List Datum) : Interp Datum := do
  match ← Interp.buildPayload invoke spec constructor arguments with
  | .error failure => Interp.raiseFailure invoke (spec.name ++ ": " ++ failure.message)
  | .ok none => return .object made
  | .ok (some text) =>
    Interp.attachPayload invoke made ⟨text, spec.finalizer⟩
    return .object made

/-- A construction that yields something has made an instance, and then filled it. -/
theorem Sound.instantiates {d : Datum} (h : Sound m) (hinvoke : Faithful invoke)
    (hoffers : ∀ id ∈ this.references ++ newTarget.toList, m.Offers id)
    (hconstructor : spec.constructor = some constructor)
    (hrun : (Interp.constructNative invoke spec this newTarget arguments).run m = (some d, m')) :
    ∃ made allocated after, Evolves [] m allocated ∧ Sound allocated ∧ allocated.Offers made ∧
      (fill invoke spec constructor made arguments).run
        { allocated with pins := [.object made] ++ allocated.pins } = (some d, after) ∧
      m' = { after with pins := allocated.pins } := by
  unfold Interp.constructNative at hrun
  obtain ⟨target, targeted, htarget, hrun⟩ := of_run_bind hrun
  obtain ⟨hevolves₁, hsound₁, hoffers₁⟩ :=
    h.of_run (.constructionTarget known_self) hoffers htarget
  split at hrun
  · have hnone := congrArg Prod.fst hrun
    rw [Safe.run_raiseError] at hnone
    cases hnone
  · next target =>
    obtain ⟨seen, read, hread, hrun⟩ := of_run_bind hrun
    obtain ⟨hevolves₂, hsound₂, hoffers₂⟩ :=
      hsound₁.of_run (.read hinvoke known_self "prototype") hoffers₁ hread
    split at hrun
    · have hnone := congrArg Prod.fst hrun
      rw [Safe.run_raiseError] at hnone
      cases hnone
    · next prototype hprototype =>
      have hplaceable : Placeable read.pins (seen.references ++ [target])
          (.empty .ordinary prototype) := by
        refine .ordinary ?_
        rw [Datum.toList_of_optionalObject hprototype]
        exact known_append_left
      obtain ⟨made, allocated, hallocate, hrun⟩ := of_run_bind hrun
      obtain ⟨hevolves₃, hsound₃, hoffers₃⟩ :=
        hsound₂.of_run (.allocate hplaceable) hoffers₂ hallocate
      obtain ⟨after, hfill, rfl⟩ := of_run_holding hrun
      rw [hconstructor] at hfill
      exact ⟨made, allocated, after, hevolves₁.trans (hevolves₂.trans hevolves₃), hsound₃,
        hoffers₃ made (List.mem_cons_self ..), hfill, rfl⟩

/-- An instance was built: the constructor of its class was called on the values that the arguments
were handed over as, and what it returned was given to the instance, with the finalizer of the
class. -/
def Builds (invoke : Invoke) (m : Machine) (spec : NativeClass) (constructor : NativeConstructor)
    (arguments : List Datum) (x : ObjectId) (m' : Machine) : Prop :=
  ∃ (asked calling : Machine) (values : List Value) (more : List Notice),
    m.trace <+: asked.trace ∧
    (Interp.handOverAll invoke arguments).run asked = (some (values, none), calling) ∧
    m'.trace = calling.trace ++ .construct spec.name values :: more ∧
    ∀ text, constructor values = .ok (some text) → Entrusts m x ⟨text, spec.finalizer⟩ m'

/-- What was built later was built. -/
theorem Builds.of_evolves (hevolves : Evolves [] m m')
    (h : Builds invoke m' spec constructor arguments x m'') :
    Builds invoke m spec constructor arguments x m'' := by
  obtain ⟨asked, calling, values, more, ⟨new, hbefore⟩, hhanded, hnoted, hentrusts⟩ := h
  obtain ⟨before, htrace, -⟩ := hevolves.trace
  refine ⟨asked, calling, values, more, ⟨before ++ new, ?_⟩, hhanded, hnoted,
    fun text htext ↦ (hentrusts text htext).of_evolves hevolves⟩
  rw [← hbefore, htrace, List.append_assoc]

/-- An instance that is filled is given what the constructor returns for its arguments. -/
theorem Sound.fills {made : ObjectId} (h : Sound m) (hinvoke : Faithful invoke)
    (hmade : made ∈ pinned m.pins)
    (harguments : Pinned m.pins (arguments.flatMap Datum.references))
    (hrun : (fill invoke spec constructor made arguments).run m = (some (.object x), m')) :
    Builds invoke m spec constructor arguments x m' := by
  unfold fill at hrun
  obtain ⟨result, built, hbuild, hrun⟩ := of_run_bind hrun
  obtain ⟨values, failure, calling, events, result', hhanded, hhands, hbuild', hevolves, hgives⟩ :=
    h.buildsPayload hinvoke spec constructor harguments
  obtain ⟨hresult, rfl⟩ := Prod.mk.inj (hbuild.symm.trans hbuild')
  obtain rfl := Option.some.inj hresult
  have hsound : Sound (calling.finish values events) := hhands.sound_finish events
  have hoffered : (calling.finish values events).Offers made :=
    hsound.offers_pinned (hevolves.pins ▸ hmade)
  split at hrun
  · have hnone := congrArg Prod.fst hrun
    rw [run_raiseFailure] at hnone
    cases hnone
  · obtain ⟨rfl, hnothing, rfl⟩ := hgives none rfl
    obtain rfl : calling.finish values _ = m' := congrArg Prod.snd hrun
    refine ⟨m, calling, values, [], List.prefix_rfl, hhanded, rfl, fun text htext ↦ ?_⟩
    rw [hnothing] at htext
    cases htext
  · next text =>
    obtain ⟨rfl, hpayload, rfl⟩ := hgives (some text) rfl
    obtain ⟨⟨⟩, attached, hattach, hrun⟩ := of_run_bind hrun
    obtain ⟨hentrusts, hattaches⟩ := hsound.entrusts hinvoke hoffered hattach
    obtain ⟨hinstance, rfl⟩ := Prod.mk.inj hrun
    obtain rfl : made = x := Datum.object.inj (Option.some.inj hinstance)
    obtain ⟨more, htrace, -⟩ := hattaches.trace
    refine ⟨m, calling, values, more, List.prefix_rfl, hhanded, ?_, fun text' htext' ↦ ?_⟩
    · show attached.trace = _
      rw [htrace]
      exact List.append_assoc ..
    · obtain rfl : text = text' := by
        rw [hpayload] at htext'
        exact Option.some.inj (Except.ok.inj htext')
      exact hentrusts.of_evolves hevolves

/-- If a construction yields an instance, then it has been built. -/
theorem Sound.constructs (h : Sound m) (hinvoke : Faithful invoke)
    (hoffers : ∀ id ∈ this.references ++ newTarget.toList, m.Offers id)
    (harguments : Pinned m.pins (arguments.flatMap Datum.references))
    (hconstructor : spec.constructor = some constructor)
    (hrun : (Interp.constructNative invoke spec this newTarget arguments).run m =
      (some (.object x), m')) : Builds invoke m spec constructor arguments x m' := by
  obtain ⟨made, allocated, after, hevolves, hsound, hmade, hfill, rfl⟩ :=
    h.instantiates hinvoke hoffers hconstructor hrun
  let asked : Machine := { allocated with pins := [.object made] ++ allocated.pins }
  have hasked : Sound asked := hsound.pinning (by simpa using hmade)
  have hpinned : made ∈ pinned asked.pins :=
    pinned_cons.mpr (.inr (List.mem_singleton_self _))
  have hbuilds : Builds invoke asked spec constructor arguments x after := by
    refine hasked.fills hinvoke hpinned (fun id hid ↦ pinned_cons.mpr (.inl ?_)) hfill
    exact hevolves.pins ▸ harguments id hid
  exact Builds.of_evolves hevolves hbuilds

theorem run_raiseFault_ne_some {a : α} (why : Fault) :
    (Interp.raiseFault why : Interp α).run m ≠ (some a, m') := by
  intro hrun
  have hnone := congrArg Prod.fst hrun
  rw [Safe.run_raiseFault] at hnone
  cases hnone

/-- However deep calls are nested, a call of the constructor of a native class that yields an
instance has built it. -/
theorem Sound.builds_invoked {depth : Nat} (h : Sound m) (hnative : m.native? id = some spec)
    (hconstructor : spec.constructor = some constructor)
    (hoffers : ∀ y ∈ inputs id this arguments newTarget, m.Offers y)
    (hrun : (Interp.invokeWithin depth id this arguments newTarget).run m =
      (some (.object x), m')) : ∃ less, depth = less + 1 ∧
        Builds (Interp.invokeWithin less) m spec constructor arguments x m' := by
  cases depth with
  | zero => exact absurd hrun (run_raiseFault_ne_some _)
  | succ depth =>
    let values := .object id :: this :: arguments ++ (newTarget.map Datum.object).toList
    let held : Machine := { m with pins := values ++ m.pins }
    have hheld : Sound held := h.pinning fun y hy ↦ hoffers y (by
      cases newTarget <;> grind)
    rw [Interp.invokeWithin] at hrun
    obtain ⟨after, hcalled, rfl⟩ := of_run_holding hrun
    obtain ⟨o, looked, hobject, hcalled⟩ := of_run_bind hcalled
    obtain ⟨hcallee, rfl⟩ := Prod.mk.inj hobject
    have hcallable : (held.object id).callable? = some (.native spec) := by
      obtain ⟨callee, hfound, hclass⟩ := Option.bind_eq_some_iff.mp hnative
      rw [object_of_getElem? (m := held) hfound]
      exact Object.native?_eq_some_iff.mp hclass
    obtain rfl : held.object id = o := Option.some.inj hcallee
    rw [hcallable] at hcalled
    have harguments : arguments ⊆ held.pins := fun d hd ↦ by simp [held, values, hd]
    have hbuilds : Builds (Interp.invokeWithin depth) held spec constructor arguments x after :=
      hheld.constructs (faithful_invokeWithin depth) (fun y hy ↦ hoffers y (by grind))
        (.of_subset harguments) hconstructor hcalled
    exact ⟨depth, rfl, hbuilds⟩

/-! ## Requests that succeed -/

variable {extra : List Exchange} {made : List NativeClass} {o : Object}

/-- A rooted handle leads to an object that is like this. -/
structure Holds (m : Machine) (k : Handle) (x : ObjectId) (o : Object) : Prop where
  slot : m.slots[k]? = some ⟨x, true⟩
  object : m.heap[x]? = some o

/-- What is rooted stays as it is at the end of a request. -/
theorem Underway.holds (h : Underway made m extra m') (hk : m'.Holds k x o) (result : α) :
    (m'.conclude result).state.Holds k x o := by
  obtain ⟨hsteady, -⟩ := h.conclude result
  have hslot : (m'.conclude result).state.slots[k]? = some ⟨x, true⟩ := by
    rw [slots_conclude]
    exact hk.slot
  obtain ⟨o', ho'⟩ := mem_heap_iff.mp (hsteady.of_rooted hslot rfl).2
  have hsame : m'.heap[x]? = some o' := of_getElem?_heap_settle ho'
  refine ⟨hslot, ?_⟩
  rw [ho', ← hsame, hk.object]

theorem Holds.resolveLive (h : m.Holds k x o) : m.resolveLive k = .ok x := by
  have hresolve : m.resolve k = .ok (some x) := by
    rw [resolve_eq, h.slot]
    rfl
  unfold Machine.resolveLive
  rw [hresolve]

/-- Creating an object gives a handle that holds it, if there is one left. -/
theorem Steady.holds_createObject (h : Steady m) (hopen : m.isOpen = true)
    (hroom : m.nextHandle < mostHandles) :
    (Backend.createObject m).state.Holds ⟨m.nextHandle⟩ m.fresh
      (.empty .ordinary (some Realm.objectPrototype)) ∧
      (Backend.createObject m).state.nextHandle = m.nextHandle + 1 ∧
      (Backend.createObject m).state.ledger = m.ledger := by
  have hstate : Backend.createObject m = _ := whileOpen_of_isOpen hopen Machine.createObject
  have hunderway := h.createObject hopen
  let placed := (m.allocate (.empty .ordinary (some Realm.objectPrototype))).2
  have hcreate : Machine.createObject m = (.ok ⟨m.nextHandle⟩, (placed.issue m.fresh).2) :=
    handOut_of_lt (m := placed) hroom m.fresh
  rw [hcreate] at hunderway hstate
  rw [hstate]
  refine ⟨hunderway.holds ⟨?_, ?_⟩ _, nextHandle_conclude _ _, ledger_conclude _ _⟩
  · exact (getElem?_slots_issue placed m.fresh _).trans (if_pos rfl)
  · show (m.heap.insert m.fresh _)[m.fresh]? = _
    rw [Std.ExtTreeMap.getElem?_insert_self]

/-- An object that does not refuse a carrier gets it. -/
theorem run_attachPayload_of_accepts (ho : m.heap[x]? = some o) (hx : x ≠ m.fresh)
    (haccepts : o.refusesCarrier = false)
    (hdata : ∀ p, o.own? payloadKey = some p → ∃ d, p.content = .data d) (payload : Payload) :
    ∃ flags, flags.configurable = true ∧ (Interp.attachPayload invoke x payload).run m =
      (some (), (m.placed (carrierObject payload)).attached x m.fresh flags) := by
  have hobject : (m.placed (carrierObject payload)).object x = o := by
    apply object_of_getElem?
    rw [getElem?_heap_placed, if_neg hx]
    exact ho
  obtain ⟨-, hfalse, -⟩ | ⟨flags, hflags, hdefine⟩ :=
    run_define_carrier (m := m.placed (carrierObject payload)) invoke m.fresh
      (by rwa [hobject] : ∀ p, ((m.placed (carrierObject payload)).object x).own? payloadKey =
        some p → ∃ d, p.content = .data d)
  · rw [hobject, haccepts] at hfalse
    cases hfalse
  · refine ⟨flags, hflags, ?_⟩
    rw [run_attachPayload, Interp.defineOrThrow, Interp.run_bind, hdefine]
    rfl

theorem Holds.setPrivateData (h : m.Holds k x o) (hx : x ≠ m.fresh)
    (haccepts : o.refusesCarrier = false)
    (hdata : ∀ p, o.own? payloadKey = some p → ∃ d, p.content = .data d) (payload : Payload) :
    ∃ flags, flags.configurable = true ∧ Machine.setPrivateData k payload m =
      (.ok (), (m.placed (carrierObject payload)).attached x m.fresh flags) := by
  let held : Machine := { m with pins := [.object x] ++ m.pins }
  obtain ⟨flags, hflags, hattach⟩ : ∃ flags, flags.configurable = true ∧
      (Interp.attachPayload Interp.invoke x payload).run held =
        (some (), (held.placed (carrierObject payload)).attached x held.fresh flags) :=
    run_attachPayload_of_accepts (m := held) h.object hx haccepts hdata payload
  refine ⟨flags, hflags, ?_⟩
  unfold Machine.setPrivateData Machine.onLive
  rw [h.resolveLive]
  dsimp only
  have hheld : (Interp.holding [.object x] (do
      return .ok (← Interp.attachPayload Interp.invoke x payload) :
        Interp (Except Failure Unit))).run m =
      (some (.ok ()), (m.placed (carrierObject payload)).attached x m.fresh flags) := by
    rw [run_holding, Interp.run_bind, hattach]
    rfl
  unfold Machine.interpret
  rw [hheld]

/-- An own property is found first. -/
theorem find?_of_own {key : String} {p : Property} (ho : m.heap[x]? = some o)
    (hp : o.own? key = some p) : m.find? x key = some (x, p) := by
  have hsize : m.heap.size ≠ 0 := by
    rw [← Std.ExtTreeMap.length_keys]
    exact Nat.ne_of_gt
      (List.length_pos_of_mem (Std.ExtTreeMap.mem_keys.mpr (mem_heap_of_getElem? ho)))
  obtain ⟨steps, hsteps⟩ := Nat.exists_eq_succ_of_ne_zero hsize
  unfold Machine.find? Machine.chain
  rw [hsteps, chainWithin, List.findSome?_cons, object_of_getElem? ho, hp]
  rfl

/-- Reading the property of carriers names it. -/
theorem run_read_of_own {p : Property} {d : Datum} (ho : m.heap[x]? = some o)
    (hp : o.own? payloadKey = some p) (hdata : p.content = .data d) :
    (Interp.read invoke x payloadKey).run m = (some d, m.exposed) := by
  have htouch : (Interp.touch payloadKey).run m = (some (), m.exposed) := rfl
  have hview : (Interp.view (·.find? x payloadKey)).run m.exposed =
      (some (some (x, p)), m.exposed) :=
    congrArg (fun found ↦ (some found, m.exposed)) (find?_of_own (m := m.exposed) ho hp)
  unfold Interp.read Interp.readFor
  rw [Interp.run_bind, htouch]
  dsimp only
  rw [Interp.run_bind, hview]
  dsimp only
  rw [hdata]
  rfl

/-- Native code that names the property of carriers gets a handle for the carrier. -/
theorem Holds.getProperty {p : Property} (h : m.Holds k x o) (hroom : m.nextHandle < mostHandles)
    (hp : o.own? payloadKey = some p) (hdata : p.content = .data (.object c)) :
    Machine.getProperty k payloadKey m = (.ok (.object ⟨m.nextHandle⟩), (m.exposed.issue c).2) := by
  let held : Machine := { m with pins := [.object x] ++ m.pins }
  have hread : (Interp.read Interp.invoke x payloadKey).run held =
      (some (.object c), held.exposed) := run_read_of_own (m := held) h.object hp hdata
  unfold Machine.getProperty Machine.onLive
  rw [h.resolveLive]
  dsimp only
  have hover : (Interp.handOver Interp.invoke (.object c)).run held.exposed =
      (some (.ok (.object ⟨m.nextHandle⟩)), (held.exposed.issue c).2) := by
    show (some ((held.exposed.handOut c).1.map Value.object), (held.exposed.handOut c).2) = _
    rw [handOut_of_lt (m := held.exposed) hroom]
    rfl
  have hheld : (Interp.holding [.object x] (do
      Interp.handOver Interp.invoke (← Interp.read Interp.invoke x payloadKey))).run m =
      (some (.ok (.object ⟨m.nextHandle⟩)), (m.exposed.issue c).2) := by
    rw [run_holding, Interp.run_bind, hread]
    dsimp only
    rw [hover]
    rfl
  unfold Machine.interpret
  rw [hheld]

theorem Steady.ne_fresh (h : Steady m) (hk : m.Holds k x o) : x ≠ m.fresh := by
  rintro rfl
  exact Nat.lt_irrefl _ (h.heap_lt (mem_heap_of_getElem? hk.object))

/-- A machine with a rooted handle is open. -/
theorem Holds.isOpen (hk : m.Holds k x o) (h : Steady m) : m.isOpen = true :=
  h.isOpen_of_slot hk.slot

/-- What a held object refers to is there. -/
theorem Holds.mem_of_references (hk : m.Holds k x o) (h : Steady m) (hid : id ∈ o.references) :
    id ∈ m.heap :=
  (h.sound (hk.isOpen h)).references hk.object hid

/-- A payload is attached to an object that does not refuse its carrier. -/
theorem Steady.holds_setPrivateData (h : Steady m) (hk : m.Holds k x o)
    (haccepts : o.refusesCarrier = false)
    (hdata : ∀ p, o.own? payloadKey = some p → ∃ d, p.content = .data d) (payload : Payload) :
    ∃ flags, flags.configurable = true ∧ (Backend.setPrivateData k payload m).result = .ok () ∧
      (Backend.setPrivateData k payload m).state.Holds k x
        (o.put payloadKey ⟨.data (.object m.fresh), flags⟩) ∧
      (Backend.setPrivateData k payload m).state.slots = m.slots ∧
      (Backend.setPrivateData k payload m).state.nextHandle = m.nextHandle ∧
      (Backend.setPrivateData k payload m).state.ledger.made =
        m.ledger.made ++ [(m.fresh, payload)] := by
  have hopen := hk.isOpen h
  have hunderway := h.setPrivateData hopen k payload
  obtain ⟨flags, hflags, hrun⟩ := hk.setPrivateData (h.ne_fresh hk) haccepts hdata payload
  have hstate : Backend.setPrivateData k payload m = _ :=
    whileOpen_of_isOpen hopen (Machine.setPrivateData k payload)
  rw [hrun] at hunderway hstate
  rw [hstate]
  refine ⟨flags, hflags, rfl, hunderway.holds ⟨hk.slot, ?_⟩ _, slots_conclude _ _,
    nextHandle_conclude _ _, congrArg Ledger.made (ledger_conclude _ _)⟩
  show (Machine.update x _ (m.placed (carrierObject payload))).heap[x]? = _
  rw [getElem?_heap_update, if_pos rfl, getElem?_heap_placed, if_neg (h.ne_fresh hk), hk.object]
  rfl

/-- A carrier is handed over to native code that names its property. -/
theorem Steady.holds_getProperty {p : Property} (h : Steady m) (hk : m.Holds k x o)
    (hroom : m.nextHandle < mostHandles) (hp : o.own? payloadKey = some p)
    (hdata : p.content = .data (.object c)) :
    (Backend.getProperty k payloadKey m).result = .ok (.object ⟨m.nextHandle⟩) ∧
      (Backend.getProperty k payloadKey m).state.Holds k x o ∧
      (Backend.getProperty k payloadKey m).state.slots[(⟨m.nextHandle⟩ : Handle)]? =
        some ⟨c, true⟩ ∧
      (Backend.getProperty k payloadKey m).state.ledger.made = m.ledger.made := by
  have hopen := hk.isOpen h
  have hunderway := h.getProperty hopen k payloadKey
  have hrun := hk.getProperty hroom hp hdata
  have hstate : Backend.getProperty k payloadKey m = _ :=
    whileOpen_of_isOpen hopen (Machine.getProperty k payloadKey)
  rw [hrun] at hunderway hstate
  rw [hstate]
  refine ⟨rfl, hunderway.holds ⟨?_, hk.object⟩ _, ?_, by rw [ledger_conclude]; rfl⟩
  · rw [getElem?_slots_issue, if_neg fun hk' ↦ Nat.lt_irrefl _ (hk' ▸ h.slots_lt hk.slot)]
    exact hk.slot
  · rw [slots_conclude]
    exact (getElem?_slots_issue m.exposed c _).trans (if_pos rfl)

/-- A carrier that native code was handed is there even when its payload has been replaced. -/
theorem Steady.keeps_replaced (h : Steady m) (hk : m.Holds k x o)
    (hroom : m.nextHandle < mostHandles) (haccepts : o.refusesCarrier = false)
    (hdata : ∀ p, o.own? payloadKey = some p → ∃ d, p.content = .data d)
    (payload later : Payload) :
    let first := Backend.setPrivateData k payload m
    let second := Backend.getProperty k payloadKey first.state
    let third := Backend.setPrivateData k later second.state
    first.result = .ok () ∧ third.result = .ok () ∧ m.fresh ∈ third.state.heap ∧
      third.state.ledger.made =
        m.ledger.made ++ [(m.fresh, payload), (second.state.fresh, later)] := by
  intro first second third
  obtain ⟨flags, hflags, hfirst, hheld, -, hnext, hmade⟩ :=
    h.holds_setPrivateData hk haccepts hdata payload
  have hsteady : Steady first.state := (h.dealing (.setPrivateData k payload m)).1
  have hown := o.own?_put_self payloadKey ⟨.data (.object m.fresh), flags⟩
  obtain ⟨hsecond, hheld', hslot, hmade'⟩ :=
    hsteady.holds_getProperty hheld (hnext ▸ hroom) hown rfl
  have hsteady' : Steady second.state := (hsteady.dealing (.getProperty k _ first.state)).1
  have hdata' : ∀ p, (o.put payloadKey ⟨.data (.object m.fresh), flags⟩).own? payloadKey = some p →
      ∃ d, p.content = .data d := by
    intro p hp
    obtain rfl := Option.some.inj (hown.symm.trans hp)
    exact ⟨_, rfl⟩
  obtain ⟨-, -, hthird, -, hslots, -, hmade''⟩ := hsteady'.holds_setPrivateData hheld'
    (by rw [Object.refusesCarrier, hown]; exact congrArg not hflags) hdata' later
  have hsteady'' : Steady third.state :=
    (hsteady'.dealing (.setPrivateData k later second.state)).1
  refine ⟨hfirst, hthird, ?_, ?_⟩
  · rw [← hslots] at hslot
    exact (hsteady''.of_rooted hslot rfl).2
  · rw [hmade'', hmade', hmade, List.append_assoc]
    rfl

end Machine

end ScriptBridge.Script
