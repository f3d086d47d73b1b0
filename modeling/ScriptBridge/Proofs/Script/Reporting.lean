import ScriptBridge.Proofs.Engine.Attending
import ScriptBridge.Proofs.Script.Trapping

/-!
# Collections that scripts ask for

A script may ask for a collection as often as it likes. The requests are counted, and once native
code is in control again they are reported as one cycle, before anything else is done. So an
evaluation shows one cycle to the hooks if scripts have asked for one since the last that was
reported, however it ends, and shows nothing otherwise.
-/

namespace ScriptBridge.Script.Machine

open Backend

variable {m m' : Machine} {config : Config} {history exchanges : List Exchange}
  {calls : List (HookCall Machine)} {notices : List Notice} {waived : List Waiver}
  {made : List NativeClass} {extra : List Exchange} {last : Nat} {source : Source} {file : String}
  {k : Handle} {α : Type}

/-! ## Counting -/

theorem iterate_countRequest {n : Nat} (h : n ≤ mostRequests) (calls : Nat) :
    countRequest^[calls] n = min (n + calls) mostRequests := by
  induction calls with
  | zero => exact (Nat.min_eq_left h).symm
  | succ calls ih =>
    rw [Function.iterate_succ_apply', ih, countRequest]
    omega

/-- The requests since the last report are counted. `last` tells how often scripts had asked for a
collection then. -/
structure Tallied (last : Nat) (m : Machine) : Prop where
  le : last ≤ m.forced
  requests : m.requests = min (m.forced - last) mostRequests

theorem Tallied.requests_eq_zero_iff (h : Tallied last m) :
    m.requests = 0 ↔ ¬ last < m.forced := by
  have hle := h.le
  rw [h.requests, mostRequests, UInt32.size]
  omega

theorem Tallied.counts (h : Tallied last m) (hcounts : Counts m m') : Tallied last m' := by
  obtain ⟨calls, hforced, hrequests⟩ := hcounts
  have hle := h.le
  have hcounted : m.requests ≤ mostRequests := h.requests ▸ Nat.min_le_right _ _
  refine ⟨by omega, ?_⟩
  rw [hrequests, iterate_countRequest hcounted, h.requests, hforced]
  omega

/-- With a report the count begins anew. -/
theorem tallied_of_reported (h : m.requests = 0) : Tallied m.forced m :=
  ⟨Nat.le_refl _, by rw [h, Nat.sub_self]; rfl⟩

/-! ## Requests -/

theorem forced_conclude (m : Machine) (result : α) :
    (m.conclude result).state.forced = m.forced := by
  show (m.settle []).forced = m.forced
  rw [settle_eq]

theorem requests_conclude (m : Machine) (result : α) :
    (m.conclude result).state.requests = m.requests := by
  show (m.settle []).requests = m.requests
  rw [settle_eq]

theorem counts_conclude (m : Machine) (result : α) : Counts m (m.conclude result).state :=
  .of_eq (forced_conclude m result) (requests_conclude m result)

theorem counts_whileOpen (hopen : m.isOpen = true) {run : Machine → Except Failure α × Machine}
    (hrun : Underway made m extra (run m).2) : Counts m (Machine.whileOpen run m).state := by
  rw [whileOpen_of_isOpen hopen]
  exact hrun.counts.trans (counts_conclude (run m).2 (run m).1)

theorem counts_release (k : Handle) (m : Machine) :
    Counts m ((m.release k).conclude ()).state := by
  refine Counts.trans ?_ (counts_conclude _ _)
  unfold Machine.release
  split <;> dsimp only <;> split <;> exact .of_eq rfl rfl

/-- A request that reports no collection lets the count go on. -/
theorem Steady.counts_served (h : Steady m) (hopen : m.isOpen = true) {call : Call}
    (hserved : Engine.Served call m m' notices) : Counts m m' := by
  cases hserved with
  | takePending =>
    show Counts m (Machine.takePending m).state
    unfold Machine.takePending
    split
    · exact .refl m
    · next hpending => exact (h.diagnosed hpending).counts.trans (counts_conclude _ _)
  | createObject => exact counts_whileOpen hopen (h.createObject hopen)
  | getProperty target key => exact counts_whileOpen hopen (h.getProperty hopen target key)
  | setProperty target key value =>
    exact counts_whileOpen hopen (h.setProperty hopen target key value)
  | root k => exact counts_whileOpen hopen (h.root hopen k)
  | unroot k => exact counts_whileOpen hopen (h.unroot hopen k)
  | release k => exact counts_release k m
  | attachChild owner child => exact counts_whileOpen hopen (h.attachChild hopen owner child)
  | detachChild owner child => exact counts_whileOpen hopen (h.detachChild hopen owner child)
  | setPrivateData k payload => exact counts_whileOpen hopen (h.setPrivateData hopen k payload)
  | installClass spec => exact counts_whileOpen hopen (h.installClass hopen spec)

/-! ## Updates -/

/-- Native code asks for no collection while it updates its weak references. -/
theorem counters_of_updated (h : Updated m notices waived m') :
    m'.forced = m.forced ∧ m'.requests = m.requests := by
  induction h with
  | rest => exact ⟨rfl, rfl⟩
  | queryDead _ _ ih => exact ih
  | tearDown _ k ih =>
    exact ⟨(forced_conclude _ ()).trans ih.1, (requests_conclude _ ()).trans ih.2⟩
  | forget _ k ih =>
    exact ⟨(forced_conclude _ ()).trans ih.1, (requests_conclude _ ()).trans ih.2⟩

theorem isDead_iff : m.isDead k = true ↔
    ∀ s : Slot, m.slots[k]? = some s → s.isRooted = false ∧ s.target ∉ m.heap := by
  unfold isDead
  rw [resolve_eq]
  cases m.slots[k]? with
  | none => simp
  | some s =>
    have hiff : s.target ∈ m.heap ↔ m.heap.contains s.target = true :=
      Std.ExtTreeMap.contains_iff_mem.symm
    simp only [Option.some.injEq, forall_eq', hiff]
    cases s.isRooted <;> cases m.heap.contains s.target <;> simp

/-- The end of a request brings no object back. -/
theorem isDead_conclude {result : α} (h : m.isDead k = true) :
    (m.conclude result).state.isDead k = true := by
  rw [isDead_iff] at h ⊢
  intro s hs
  rw [slots_conclude] at hs
  obtain ⟨hunrooted, hgone⟩ := h s hs
  refine ⟨hunrooted, fun hmem ↦ hgone ?_⟩
  obtain ⟨o, ho⟩ := mem_heap_iff.mp hmem
  exact mem_heap_of_getElem? (of_getElem?_heap_conclude result ho)

/-- What is gone stays gone during an update. -/
theorem isDead_of_updated (hupdated : Updated m notices waived m') (h : m.isDead k = true) :
    m'.isDead k = true := by
  induction hupdated with
  | rest => exact h
  | queryDead _ _ ih => exact ih
  | @tearDown m' _ _ _ other ih =>
    refine isDead_conclude (isDead_iff.mpr fun s hs ↦ ?_)
    replace hs : (m'.slots.modify other ({ · with isRooted := false }))[k]? = some s := hs
    rw [Std.ExtTreeMap.getElem?_modify] at hs
    split at hs
    · next heq =>
      obtain ⟨before, hbefore, rfl⟩ := Option.map_eq_some_iff.mp hs
      rw [Std.compare_eq_iff_eq.mp heq] at hbefore
      exact ⟨rfl, (isDead_iff.mp ih before hbefore).2⟩
    · exact isDead_iff.mp ih s hs
  | @forget m' _ _ _ other ih =>
    refine isDead_conclude (isDead_iff.mpr fun s hs ↦ ?_)
    rw [getElem?_retire] at hs
    split at hs
    · cases hs
    · exact isDead_iff.mp ih s hs

theorem departed_of_isDead (h : m.isDead k = true) : Departed k m :=
  fun _ _ _ hupdated ↦ isDead_of_updated hupdated h

/-! ## Reports -/

theorem Steady.tallied_run (h : Steady m) (hopen : m.isOpen = true) (htallied : Tallied last m)
    (source : Source) (file : String) : Tallied last (Machine.run source file m).state := by
  have hran := h.interpretSource hopen source file
  exact htallied.counts (hran.counts.trans (counts_conclude _ _))

/-- How often scripts had asked for a collection when a cycle was reported last. -/
def lastReport (last : Nat) (calls : List (HookCall Machine)) : Nat :=
  calls.foldl (fun last call ↦ match call with
    | .phase _ => last
    | .update before _ => before.forced) last

/-- An evaluation ends when its script does, unless scripts have asked for a collection. -/
theorem of_followed_evaluate (hopen : m.isOpen = true) (hdefect : defect? source file = none)
    {result : Except Failure Value}
    (h : Followed (Machine.evaluate source file m) calls result m') :
    let ran := (Machine.run source file m).state
    ran.requests = 0 ∧ calls = [] ∧ m' = ran ∨
      ran.requests ≠ 0 ∧
        calls = [.phase .begin, .update { ran with requests := 0 } m', .phase .finish] ∧
          ∃ notices waived, Updated { ran with requests := 0 } notices waived m' := by
  intro ran
  rw [evaluate_eq_run hopen hdefect] at h
  have hreport := h.of_events
  unfold Machine.reportRequests at hreport
  split at hreport
  · next hnone =>
    obtain ⟨rfl, -, rfl⟩ := hreport.of_done
    exact .inl ⟨hnone, rfl, rfl⟩
  · next hsome =>
    obtain ⟨-, hcalls, hupdated⟩ := hreport.of_cycle
    exact .inr ⟨hsome, hcalls, hupdated⟩

/-- What scripts have asked for by the end of an evaluation they have asked for while it ran. -/
theorem forced_of_followed_evaluate (hopen : m.isOpen = true)
    (hdefect : defect? source file = none) {result : Except Failure Value}
    (h : Followed (Machine.evaluate source file m) calls result m') :
    m'.forced = (Machine.run source file m).state.forced := by
  rcases of_followed_evaluate hopen hdefect h with ⟨-, -, rfl⟩ | ⟨-, -, notices, waived, hupdated⟩
  · rfl
  · exact (counters_of_updated hupdated).1

/-- What an evaluation shows, and what it leaves. -/
theorem Steady.evaluate_reports (h : Steady m) (hopen : m.isOpen = true)
    (htallied : Tallied last m) (hdefect : defect? source file = none)
    {result : Except Failure Value}
    (hfollowed : Followed (Machine.evaluate source file m) calls result m') :
    (if last < m'.forced then HookCall.IsCycle calls else calls = []) ∧
      lastReport last calls = m'.forced ∧ m'.requests = 0 := by
  have hran : Tallied last (Machine.run source file m).state :=
    h.tallied_run hopen htallied source file
  rcases of_followed_evaluate hopen hdefect hfollowed with
    ⟨hnone, rfl, rfl⟩ | ⟨hsome, rfl, notices, waived, hupdated⟩
  · have hnot := hran.requests_eq_zero_iff.mp hnone
    exact ⟨(if_neg hnot).mpr rfl, Nat.le_antisymm hran.le (Nat.le_of_not_lt hnot), hnone⟩
  · obtain ⟨hforced, hrequests⟩ := counters_of_updated hupdated
    rw [ne_eq, hran.requests_eq_zero_iff, not_not] at hsome
    have hasked : last < m'.forced := hforced ▸ hsome
    exact ⟨(if_pos hasked).mpr ⟨_, _, rfl⟩, hforced.symm, hrequests⟩

/-- A collection that native code asks for is always reported. -/
theorem collect_reports (last : Nat) (hopen : m.isOpen = true)
    (hfollowed : Followed (Machine.collect m) calls () m') :
    HookCall.IsCycle calls ∧ lastReport last calls = m'.forced ∧ m'.requests = 0 := by
  unfold Machine.collect at hfollowed
  rw [if_pos hopen] at hfollowed
  obtain ⟨-, rfl, notices, waived, hupdated⟩ := hfollowed.of_events.of_cycle
  obtain ⟨hforced, hrequests⟩ := counters_of_updated hupdated
  exact ⟨⟨_, _, rfl⟩, hforced.symm, hrequests.trans (requests_conclude _ ())⟩

/-- A request keeps the tally. -/
theorem Tallied.attended (htallied : Tallied last m) (h : Steady m) (hopen : m.isOpen = true)
    (hattended : Attended m calls m') (hopen' : m'.isOpen = true) :
    Tallied (lastReport last calls) m' := by
  cases hattended with
  | evaluate source file hfollowed =>
    cases hdefect : defect? source file with
    | none =>
      obtain ⟨-, hlast, hnone⟩ := h.evaluate_reports hopen htallied hdefect hfollowed
      exact hlast ▸ tallied_of_reported hnone
    | some defect =>
      replace hfollowed : Followed (Machine.evaluate source file m) _ _ m' := hfollowed
      have hrefused : ¬ (m.isOpen = true ∧ defect? source file = none) := by simp [hdefect]
      obtain ⟨failure, hdone⟩ := evaluate_eq_done hrefused
      rw [hdone] at hfollowed
      obtain ⟨rfl, -, rfl⟩ := hfollowed.of_done
      exact htallied
  | collect hfollowed =>
    obtain ⟨-, hlast, hnone⟩ := collect_reports last hopen hfollowed
    exact hlast ▸ tallied_of_reported hnone
  | served hserved => exact htallied.counts (h.counts_served hopen hserved)
  | globalObject => exact htallied
  | shutdown =>
    obtain ⟨-, -, hclosed⟩ := h.shutdown
    exact absurd (hclosed.symm.trans hopen') Bool.false_ne_true

/-! ## Whole lives -/

/-- A machine that native code has used, and how often scripts had asked for a collection when a
cycle was reported last, or when the machine was made. -/
inductive Watched (config : Config) : Nat → Machine → Prop
  | created {m : Machine} (h : Machine.create config = .ok m) : Watched config m.forced m
  | attended {last : Nat} {m m' : Machine} {calls : List (HookCall Machine)}
    (h : Watched config last m) (hattended : Attended m calls m') :
    Watched config (lastReport last calls) m'

/-- All machines in use are among these. -/
theorem Used.watched (h : Used config history m) : ∃ last, Watched config last m := by
  induction h with
  | created h => exact ⟨_, .created h⟩
  | dealt _ hdealing ih =>
    obtain ⟨last, hwatched⟩ := ih
    obtain ⟨calls, hattended⟩ := hdealing.attended
    exact ⟨_, hwatched.attended hattended⟩

theorem Watched.steady (h : Watched config last m) : Steady m := by
  induction h with
  | created h => exact create_eq h ▸ steady_machine config.strict
  | attended _ hattended ih =>
    obtain ⟨exchanges, hdealing⟩ := hattended.dealing
    exact (ih.dealing hdealing).1

theorem Watched.tallied (h : Watched config last m) (hopen : m.isOpen = true) :
    Tallied last m := by
  induction h with
  | created h =>
    obtain rfl := create_eq h
    exact tallied_of_reported rfl
  | @attended last m m' calls h hattended ih =>
    obtain ⟨exchanges, hdealing⟩ := hattended.dealing
    obtain ⟨-, made, hadvances, -⟩ := h.steady.dealing hdealing
    have hbefore : m.isOpen = true := hadvances.isOpen hopen
    exact (ih hbefore).attended h.steady hbefore hattended hopen

/-- An engine that executes a buffer is among the hooks. -/
theorem executeBuffer_removes {e : Engine Machine} (h : Engine.Reachable e)
    (hbackend : e.backend = some m) {bytes : List UInt8} {name : Option String} {text : String}
    (hdecode : Engine.decodeSource bytes = .ok text) :
    let report := Backend.evaluate (.text text) (e.fileName name) m
    let ending := e.follow (.evaluate (.text text) (e.fileName name)) report
    let left := (Engine.executeBuffer bytes name e).2.registry
    ∃ calls, Followed report calls ending.result ending.state ∧
      ∀ before after, .update before after ∈ calls → ∀ id w, e.registry.get? id = some w →
        w.isRooted = false → before.isDead w.handle = true →
          left.get? id = none ∧ left.find? w.native = none ∧
            ∀ k, left.findByHandle? k ≠ some id := by
  intro report ending left
  have hr : e.registry.Orderly := h.wellFormed.orderly
  obtain ⟨calls, hfollowed, hremoved⟩ := Reconcile.run_removes hr e.inCleanup report
    (e.trace ++ [.call (.evaluate (.text text) (e.fileName name))])
  refine ⟨calls, hfollowed, fun before after hmem id w hw hunrooted hdead ↦ ?_⟩
  have hgone := hremoved before after hmem id w hw hunrooted (departed_of_isDead hdead)
  obtain ⟨ids, -, hpruned, -, -⟩ := Reconcile.run_prunes hr.coherent e.inCleanup report
    (e.trace ++ [.call (.evaluate (.text text) (e.fileName name))])
  have hleft : left = e.registry.removeAll ids :=
    (Engine.registry_executeBuffer hbackend hdecode name).trans hpruned
  rw [hpruned] at hgone
  rw [hleft]
  exact ⟨hgone, hr.unmapped_removeAll hw hgone⟩

/-! ## A script that asks for a collection -/

section Asking

variable {g f g' f' : Object} {β : Type}

/-- Wherever the ground is like this, the interpretation gives that, and has asked for a
collection. -/
def Asks (g f : Object) (action : Interp α) (a : α) : Prop :=
  ∀ m, Ground g f m → ∃ m', action.run m = (some a, m') ∧ 0 < m'.forced

namespace Asks

variable {action : Interp α} {next : α → Interp β} {a : α} {b : β} {d : Datum}

theorem of_yields (first : Yields g f action a g' f') (second : Asks g' f' (next a) b) :
    Asks g f (action >>= next) b := by
  intro m hm
  obtain ⟨m', hfirst, hm', -⟩ := first m hm
  obtain ⟨m'', hsecond, hforced⟩ := second m' hm'
  exact ⟨m'', (run_bind_of hfirst).trans hsecond, hforced⟩

theorem holding (h : Asks g f action a) (values : List Datum) :
    Asks g f (Interp.holding values action) a := by
  intro m hm
  obtain ⟨m', hrun, hforced⟩ := h { m with pins := values ++ m.pins } (hm.of_heap rfl rfl rfl)
  exact ⟨{ m' with pins := m.pins }, run_holding_of hrun rfl, hforced⟩

theorem inFrame (h : Asks g f action a) (frame : Frame) :
    Asks g f (Interp.inFrame frame action) a := by
  intro m hm
  obtain ⟨m', hrun, hforced⟩ := h { m with frames := frame :: m.frames } (hm.of_heap rfl rfl rfl)
  exact ⟨{ m' with frames := m.frames }, run_inFrame_of hrun, hforced⟩

theorem settling {action : Interp Datum} (h : Asks g f action d) :
    Asks g f (Interp.settling action) d := by
  intro m hm
  obtain ⟨m', hrun, hforced⟩ := h m hm
  refine ⟨_, run_settling_of hrun, ?_⟩
  rw [settle_eq]
  exact hforced

end Asks

/-- A function that collects is found by its name. -/
theorem asks_call : Asks g f (Interp.eval Interp.invoke (.apply (.reference "forceGC") []))
    .undefined := by
  have hcallable : ∀ m, Ground g f m →
      (m.object (Realm.function .forceCollection)).callable? = some (.intrinsic .forceCollection) :=
    fun m hm ↦ hm.callable?_landmark (by simp [landmarks]) rfl rfl
  have hinvoke : Asks g f
      (Interp.invoke (Realm.function .forceCollection) .undefined [] none) .undefined := by
    intro m hm
    unfold Interp.invoke Interp.callDepth
    rw [Interp.invokeWithin]
    dsimp only
    rw [run_holding_object, hcallable m hm]
    exact ⟨_, rfl, Nat.succ_pos _⟩
  intro m hm
  have hshows := hm.guides.shows ("forceGC", Realm.function .forceCollection)
    (by simp [Script.guides])
  have hfunction : Yields g f (Interp.function? (.object (Realm.function .forceCollection)))
      (some (Realm.function .forceCollection)) g f :=
    Yields.function? fun m hm ↦ by rw [hcallable m hm]; rfl
  have hcall : Asks g f (Interp.call Interp.invoke (.object (Realm.function .forceCollection))
      .undefined []) .undefined := .of_yields hfunction hinvoke
  have harguments : Yields g f (Interp.evalAll Interp.invoke []) [] g f := .of_pure []
  have happly : Asks g f (do
      let ds ← Interp.evalAll Interp.invoke []
      Interp.call Interp.invoke (.object (Realm.function .forceCollection)) .undefined ds)
      .undefined := .of_yields harguments hcall
  rw [Interp.eval]
  exact (Asks.of_yields (.reference hshows)
    (.of_yields (.updatePlace _) (happly.holding _))).settling m hm

/-- A script that asks for a collection, and does nothing else. -/
def asking : Program := [(0, .expression (.apply (.reference "forceGC") []))]

theorem asks_program : Asks g f (Interp.runProgram file asking) .undefined := by
  refine Asks.inFrame (fun m hm ↦ ?_) _
  have henter : Yields g f (Interp.enterStatement 0
      (.expression (.apply (.reference "forceGC") []))) () g f :=
    (Yields.updatePlace _).bind (.updatePlace _)
  obtain ⟨entered, henter, hentered, -⟩ := henter m hm
  obtain ⟨m', hcall, hforced⟩ := asks_call entered hentered
  have hexec : (Interp.exec Interp.invoke (.expression (.apply (.reference "forceGC") []))).run
      entered = (some (.next (some .undefined)), m') := by
    rw [Interp.exec]
    exact (run_bind_of hcall).trans rfl
  let settled := { m' with retained := .undefined }.settle []
  have hstatements : (Interp.runStatements asking).run m = (some (), settled) :=
    (run_bind_of henter).trans ((run_bind_of hexec).trans rfl)
  have hretained : settled.retained = .undefined := by
    show (Machine.settle [] _).retained = _
    rw [settle_eq]
  refine ⟨settled, (run_bind_of hstatements).trans ?_, ?_⟩
  · show (some settled.retained, settled) = _
    rw [hretained]
  · show 0 < (Machine.settle [] _).forced
    rw [settle_eq]
    exact hforced

/-- The only name that a script applies to nothing, if it does nothing else. -/
def applied? : Except Mistake Program → Option String
  | .ok [(0, .expression (.apply (.reference name) []))] => some name
  | _ => none

theorem read_asking : Source.read (.text "forceGC()") = .ok asking := by
  have happlied : applied? (Source.read (.text "forceGC()")) = some "forceGC" := by decide +kernel
  unfold applied? at happlied
  split at happlied
  · next hread =>
    obtain rfl := Option.some.inj happlied
    exact hread
  · cases happlied

/-- The text `forceGC()` asks for a collection. -/
theorem forced_run_asking (h : Ground g f m) (file : String) :
    0 < (Machine.run (.text "forceGC()") file m).state.forced := by
  have hasks : Asks g f (Interp.runProgram file asking) .undefined := asks_program
  obtain ⟨ran, hrun, hforced⟩ := hasks m h
  have hsource : (runSource (.text "forceGC()") file).run m = (some (.ok .undefined), ran) := by
    unfold runSource
    rw [read_asking]
    exact (run_bind_of hrun).trans rfl
  unfold Machine.run Machine.interpret
  rw [hsource]
  exact (forced_conclude { ran with retained := .undefined } _).symm ▸ hforced

end Asking

/-! ## Requests are reported once -/

end ScriptBridge.Script.Machine
