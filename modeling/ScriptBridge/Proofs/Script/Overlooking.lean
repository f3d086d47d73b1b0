import ScriptBridge.Proofs.Engine.Executing
import ScriptBridge.Proofs.Script.Closing
import ScriptBridge.Proofs.Script.Throwing

/-!
# What an execution leaves pending

What a script throws is taken at the end of its execution and described. The description reads
properties, which may be script code, and so does the conversion of a result. Native code passes
over what such a read throws and leaves it pending. So an execution that starts with nothing pending
leaves nothing pending, or else the last exception that native code has passed over meanwhile.
-/

namespace ScriptBridge

open Backend Script

theorem Reconcile.Conducted.carried {σ α : Type} [Backend σ] {r : Registry} {inCleanup : Bool}
    {report : Report σ α} {passes : List (Sweep σ)} {o : Outcome σ α}
    (h : Conducted inCleanup r report passes o) :
    ∃ notices waived, Carried report notices waived o.result o.state := by
  induction h with
  | done r o => exact ⟨_, _, .done o⟩
  | events notices _ ih =>
    obtain ⟨more, waived, hcarried⟩ := ih
    exact ⟨_, _, .events notices hcarried⟩
  | phase p _ ih =>
    obtain ⟨notices, waived, hcarried⟩ := ih
    exact ⟨_, _, .phase p hcarried⟩
  | @update r state resume passes o _ ih =>
    obtain ⟨before, given, hupdated, -⟩ := Engine.updatedTo_pass r inCleanup state
    obtain ⟨notices, waived, hcarried⟩ := ih
    exact ⟨_, _, .update hupdated hcarried⟩

namespace Script

/-! ## Descriptions never throw -/

namespace Interp

variable {α β : Type}

/-- The interpretation has a result on every machine. -/
def Answers (action : Interp α) : Prop := ∀ m, (action.run m).1.isSome = true

namespace Answers

theorem done (a : α) : Answers (pure a : Interp α) := fun _ ↦ rfl

theorem bind {x : Interp α} {f : α → Interp β} (hx : Answers x) (hf : ∀ a, Answers (f a)) :
    Answers (x >>= f) := by
  intro m
  have hresult := hx m
  rw [run_bind]
  rcases hrun : x.run m with ⟨_ | a, m'⟩
  · rw [hrun] at hresult
    cases hresult
  · exact hf a m'

theorem object (id : ObjectId) : Answers (Interp.object id) := fun _ ↦ rfl

theorem takePending : Answers Interp.takePending := fun _ ↦ rfl

theorem trying (x : Interp α) : Answers (Interp.trying x) := fun _ ↦ rfl

theorem passingOver (x : Interp α) : Answers (Interp.passingOver x) := fun _ ↦ rfl

theorem holding {values : List Datum} {x : Interp α} (hx : Answers x) :
    Answers (Interp.holding values x) :=
  fun _ ↦ hx _

variable (invoke : Invoke) (id : ObjectId) (key : String)

theorem readText? : Answers (Interp.readText? invoke id key) :=
  (passingOver _).bind fun _ ↦ done _

theorem readString? : Answers (Interp.readString? invoke id key) :=
  (passingOver _).bind fun found ↦ by
    split
    · exact done _
    · exact done _

theorem readLine? : Answers (Interp.readLine? invoke id key) :=
  (passingOver _).bind fun _ ↦ done _

theorem diagnoseError : Answers (Interp.diagnoseError invoke id) := by
  refine (readText? invoke id _).bind fun message ↦ (readString? invoke id _).bind fun name ↦
    (readString? invoke id _).bind fun file ↦ (readLine? invoke id _).bind fun line ↦ ?_
  split
  · exact done _
  · refine (readText? invoke id _).bind fun stack ↦ ?_
    split
    · exact done _
    · exact done _

theorem typeName (d : Datum) : Answers (Interp.typeName d) := by
  unfold Interp.typeName
  split
  · exact (object _).bind fun _ ↦ done _
  · exact done _

theorem stringify (d : Datum) : Answers (Interp.stringify invoke d) := by
  refine (trying _).bind fun text ↦ ?_
  split
  · exact done _
  · exact takePending.bind fun _ ↦ (typeName d).bind fun _ ↦ done _

/-- Whatever was thrown, and whatever its properties do, there is a description. -/
theorem diagnose (thrown : Datum) : Answers (Interp.diagnose invoke thrown) := by
  have htext : Answers (do return ScriptException.of (← Interp.stringify invoke thrown) none 0) :=
    (stringify invoke thrown).bind fun _ ↦ done _
  refine holding ?_
  split
  · next id =>
    refine (object id).bind fun o ↦ ?_
    split
    · exact diagnoseError invoke id
    · exact htext
  · exact htext

end Answers

end Interp

namespace Machine

variable {m m' : Machine} {hasResult : Bool} {α : Type} {x : ObjectId} {o : Object}
  {name text file : String} {source : Source} {notices : List Notice} {waived : List Waiver}
  {result : Except Failure Value}

/-! ## Requests that run scripts -/

theorem pending_conclude (m : Machine) (result : α) :
    (m.conclude result).state.pending = m.pending := by
  show (m.settle []).pending = _
  rw [settle_eq]

theorem overlooked_conclude (m : Machine) (result : α) :
    (m.conclude result).state.overlooked = m.overlooked := by
  show (m.settle []).overlooked = _
  rw [settle_eq]

theorem Accounts.conclude (h : Accounts m hasResult m') (result : α) :
    Accounts m hasResult (m'.conclude result).state :=
  h.congr (pending_conclude m' result) (overlooked_conclude m' result)

/-- While native code looks at its references nothing is thrown. -/
theorem pending_updated (h : Updated m notices waived m') :
    m'.pending = m.pending ∧ m'.overlooked = m.overlooked := by
  induction h with
  | rest => exact ⟨rfl, rfl⟩
  | queryDead _ _ ih => exact ih
  | @tearDown m' _ _ _ k ih =>
    exact ⟨(pending_conclude (m'.dropRoot k) ()).trans ih.1,
      (overlooked_conclude (m'.dropRoot k) ()).trans ih.2⟩
  | @forget m' _ _ _ k ih =>
    exact ⟨(pending_conclude (m'.retire [k]) ()).trans ih.1,
      (overlooked_conclude (m'.retire [k]) ()).trans ih.2⟩

/-- An evaluation runs its source. What comes after that throws nothing and only removes objects. -/
theorem of_evaluate (hopen : m.isOpen = true) (hdefect : defect? source file = none)
    (hcarried : Carried (Machine.evaluate source file m) notices waived result m') :
    let o := Machine.run source file m
    result = o.result ∧ m'.pending = o.state.pending ∧ m'.overlooked = o.state.overlooked ∧
      ∀ {x : ObjectId} {object : Object}, m'.heap[x]? = some object →
        o.state.heap[x]? = some object := by
  obtain ⟨hresult, ⟨-, -, rfl⟩ | ⟨more, -, hupdated⟩⟩ := of_carried_evaluate hopen hdefect hcarried
  · exact ⟨hresult, rfl, rfl, fun ho ↦ ho⟩
  · obtain ⟨hpending, hoverlooked⟩ := pending_updated hupdated
    exact ⟨hresult, hpending, hoverlooked, (of_updated hupdated).2⟩

theorem Steady.accounts_run (h : Steady m) (hopen : m.isOpen = true) (source : Source)
    (file : String) :
    Accounts m ((runSource source file).run m).1.isSome (Machine.run source file m).state := by
  have hsource : Handing [] [] (runSource source file) := .runSource source file
  obtain ⟨m', -, -, haccounts, hissued⟩ := hsource (h.sound hopen) h.pins (List.forall_mem_nil _)
  have hafter : Accounts m ((runSource source file).run m).1.isSome
      ((runSource source file).run m).2 := by
    rcases hissued with ⟨-, hafter⟩ | ⟨id, -, hrun⟩
    · rwa [hafter]
    · rw [hrun] at haccounts ⊢
      exact haccounts.congr rfl rfl
  rw [← snd_interpret] at hafter
  have hreleased : Accounts m ((runSource source file).run m).1.isSome
      { (Machine.interpret (runSource source file) m).2 with retained := .undefined } :=
    hafter.congr rfl rfl
  exact hreleased.conclude (Machine.interpret (runSource source file) m).1

/-- An evaluation that raises an exception of its own says so. -/
theorem Steady.accounts_evaluate (h : Steady m)
    (hcarried : Carried (Machine.evaluate source file m) notices waived result m') :
    ∃ hasResult, Accounts m hasResult m' ∧
      (result ≠ .error .exceptionPending → hasResult = true) := by
  by_cases hruns : m.isOpen = true ∧ defect? source file = none
  · obtain ⟨hopen, hdefect⟩ := hruns
    obtain ⟨hresult, hpending, hoverlooked, -⟩ := of_evaluate hopen hdefect hcarried
    refine ⟨_, (h.accounts_run hopen source file).congr hpending hoverlooked, fun hne ↦ ?_⟩
    by_contra hnone
    refine hne (hresult.trans ?_)
    show (Machine.interpret (runSource source file) m).1 = _
    unfold Machine.interpret
    rcases hrun : (runSource source file).run m with ⟨_ | r, after⟩
    · rfl
    · rw [hrun] at hnone
      exact absurd rfl hnone
  · obtain ⟨failure, hdone⟩ := evaluate_eq_done hruns
    rw [hdone] at hcarried
    obtain ⟨⟩ | ⟨⟩ | ⟨⟩ | ⟨⟩ := hcarried
    exact ⟨true, .refl _, fun _ ↦ rfl⟩

/-- Once an exception is taken, only what its description passes over can be pending. -/
theorem Steady.accounts_takePending (h : Steady m) :
    Accounts { m with pending := none } true (Machine.takePending m).state := by
  unfold Machine.takePending
  split
  · next hnone => exact .of_eq hnone rfl
  · next thrown hpending =>
    have hopen : m.isOpen = true := h.isOpen_of_pending hpending
    obtain ⟨-, hsound, -, hoffers⟩ :=
      Safe.takePending (t := False) (h.sound hopen) False.elim rfl (List.forall_mem_nil _)
    have hdescribed : Safe False m.pins thrown.references (Interp.diagnose Interp.invoke thrown)
        fun _ ↦ [] := .diagnose faithful_invoke known_self
    obtain ⟨-, -, haccounts, -⟩ := hdescribed hsound False.elim rfl fun id hid ↦
      hoffers m.pending rfl id (by simp [hpending, hid])
    rw [Interp.Answers.diagnose Interp.invoke thrown] at haccounts
    exact haccounts.conclude _

/-! ## Executions -/

variable {config : Config} {e : Engine Machine} {events : List Event}

theorem Lives.steady (h : Lives config events e) (hm : e.backend = some m) : Steady m := by
  obtain ⟨history, m', hused, hkeeps, -⟩ := h.kept
  obtain rfl := hkeeps.eq_of_some hm
  exact hused.steady

/-- An engine tells whether its machine has an exception pending. -/
theorem Steady.hasPendingException_eq (h : Steady m) (hm : e.backend = some m) :
    e.hasPendingException = m.pending.isSome := by
  rw [Engine.hasPendingException, hm, Option.any_some]
  show (m.isOpen && m.pending.isSome) = _
  cases hpending : m.pending with
  | none => exact Bool.and_false _
  | some thrown => rw [h.isOpen_of_pending hpending, Bool.true_and]

/-- An execution accounts for the pending exception, whether it has a result or fails. -/
theorem Steady.accounts_verdict (h : Steady m) {s : Machine} {final : List Event}
    {o : Outcome Machine (Except Failure Value)} {result : Except Failure (Option Value)}
    (hcarried : Carried (Machine.evaluate source file m) notices waived o.result o.state)
    (hverdict : Engine.Verdict file o result s final) : Accounts m true s := by
  have ho : Steady o.state := (h.evaluate hcarried).1
  obtain ⟨hasResult, haccounts, hraised⟩ := h.accounts_evaluate hcarried
  have htaken : Accounts m true (Machine.takePending o.state).state :=
    haccounts.taken.trans ho.accounts_takePending
  cases hverdict with
  | nothing hok =>
    rw [hraised (by rw [hok]; nofun)] at haccounts
    exact haccounts
  | value hok =>
    rw [hraised (by rw [hok]; nofun)] at haccounts
    exact haccounts
  | thrown => exact htaken
  | failed => exact htaken

/-- Executing a buffer accounts for the pending exception. -/
theorem Steady.accounts_executeBuffer (h : Steady m) (hm : e.backend = some m)
    (bytes : List UInt8) (given : Option String) :
    ∃ m', (Engine.executeBuffer bytes given e).2.backend = some m' ∧ Accounts m true m' := by
  obtain ⟨failure, hrun, -⟩ | ⟨source, s, -, hs, hrun⟩ := Engine.executeBuffer_cases bytes given e
  · rw [hrun]
    exact ⟨m, hm, .refl m⟩
  · obtain rfl : m = s := Option.some.inj (hm.symm.trans hs)
    obtain ⟨passes, o, evaluation, m', final, hconducted, -, hverdict, hafter⟩ :=
      Engine.executeSource_verdict hm (.text source) given
    obtain ⟨notices, waived, hcarried⟩ := hconducted.carried
    rw [hrun, hafter]
    exact ⟨m', rfl, h.accounts_verdict hcarried hverdict⟩

/-- If no exception is pending before a buffer is executed, then afterwards none is pending, or else
the last one that native code has passed over meanwhile. What the script itself throws is never left
pending: if native code has passed over nothing, nothing is. -/
theorem executeBuffer_pending (h : Lives config events e) (hclear : e.hasPendingException = false)
    (bytes : List UInt8) (given : Option String) :
    let after := (Engine.executeBuffer bytes given e).2
    (e.backend = none → after.hasPendingException = false) ∧
      ∀ m, e.backend = some m → ∃ m' passed, after.backend = some m' ∧
        m'.overlooked = m.overlooked ++ passed ∧
        (m'.pending = none ∨ m'.pending = passed.getLast?) ∧
        (passed = [] → after.hasPendingException = false) := by
  intro after
  refine ⟨fun hnone ↦ ?_, fun m hm ↦ ?_⟩
  · obtain ⟨failure, hrun, -⟩ | ⟨source, s, -, hs, -⟩ := Engine.executeBuffer_cases bytes given e
    · have hsame : after = e := congrArg Prod.snd hrun
      rwa [hsame]
    · cases hnone.symm.trans hs
  · have hsteady : Steady m := h.steady hm
    have hnone : m.pending = none := by
      rwa [hsteady.hasPendingException_eq hm, Option.isSome_eq_false_iff,
        Option.isNone_iff_eq_none] at hclear
    obtain ⟨m', hm', passed, hpassed, hpending⟩ := hsteady.accounts_executeBuffer hm bytes given
    rw [if_pos rfl, hnone, Option.or_none] at hpending
    refine ⟨m', passed, hm', hpassed, hpending, ?_⟩
    rintro rfl
    have hnone' : m'.pending = none := hpending.elim id id
    rw [Engine.hasPendingException, hm', Option.any_some]
    show (m'.isOpen && m'.pending.isSome) = false
    rw [hnone', Option.isSome_none, Bool.and_false]

/-- In a fresh engine a script that is no more than an undeclared name leaves nothing pending, or
else what native code has passed over. -/
theorem executeBuffer_pending_fresh : ∃ e events m' passed, Lives .default events e ∧
    e.hasPendingException = false ∧
    (Engine.executeBuffer [0x65] none e).2.backend = some m' ∧ m'.overlooked = passed ∧
    (m'.pending = none ∨ m'.pending = passed.getLast?) := by
  have hcreated : ∃ e, Session.createScripting .default = (.ok e, [.call .globalObject]) ∧
      e.backend = some (Realm.machine Config.default.strict) ∧ e.hasPendingException = false :=
    ⟨_, rfl, rfl, rfl⟩
  obtain ⟨e, hcreate, hbackend, hclear⟩ := hcreated
  obtain ⟨-, hlast⟩ := executeBuffer_pending (.created hcreate) hclear [0x65] none
  obtain ⟨m', passed, hm', hpassed, hpending, -⟩ := hlast _ hbackend
  exact ⟨e, _, m', passed, .created hcreate, hclear, hm', hpassed, hpending⟩

/-! ## An execution that leaves an exception pending -/

/-- A pending object is as it was, if nothing was done but to remove objects. -/
theorem Steady.getElem?_of_pending (h : Steady m') (hpending : m'.pending = some (.object x))
    (hleft : ∀ {x : ObjectId} {o : Object}, m'.heap[x]? = some o → m.heap[x]? = some o)
    (ho : m.heap[x]? = some o) : m'.heap[x]? = some o := by
  have hmem : x ∈ m'.heap := by
    refine ((h.sound (h.isOpen_of_pending hpending)).roots (mem_roots.mpr (.inr (.inr ?_)))).1
    exact ⟨_, mem_held.mpr (.inr (.inl hpending)), List.mem_singleton_self x⟩
  rw [getElem?_of_mem hmem, ← hleft (getElem?_of_mem hmem), ho]

theorem Steady.evaluate_throwing {p : Property} (h : Steady m) (hnames : m.Names name x o)
    (hstack : o.own? "stack" = some p) (hread : source.read = .ok (throwing name))
    (hdefect : defect? source file = none)
    (hcarried : Carried (Machine.evaluate source file m) notices waived result m') :
    result = .error .exceptionPending ∧ m'.pending = some (.object x) ∧ m'.heap[x]? = some o := by
  have hopen : m.isOpen = true := h.isOpen_of_mem (mem_heap_of_getElem? hnames.object)
  obtain ⟨thrown, hrun, hpending, hthere⟩ := (h.sound hopen).run_throwing hnames hstack file
  have hran : Machine.run source file m =
      ({ thrown with retained := .undefined } : Machine).conclude (.error .exceptionPending) := by
    unfold Machine.run Machine.interpret Machine.runSource
    rw [hread]
    dsimp only
    rw [run_bind_of_none hrun]
  obtain ⟨hresult, hafter, -, hleft⟩ := of_evaluate hopen hdefect hcarried
  rw [hran] at hresult hafter hleft
  rw [pending_conclude] at hafter
  have hthrown : m'.pending = some (.object x) := hafter.trans hpending
  refine ⟨hresult, hthrown, ?_⟩
  refine (h.evaluate hcarried).1.getElem?_of_pending (m := thrown) hthrown (fun ho ↦ ?_) hthere
  exact of_getElem?_heap_conclude (m := { thrown with retained := .undefined }) _ (hleft ho)

/-- Executing a script that throws an error without a stack text leaves an exception pending. -/
theorem Steady.executeBuffer_throwing {bytes : List UInt8} {given : Option String} (h : Steady m)
    (hm : e.backend = some m) (hnames : m.Names name x o) (hlacks : o.LacksStack)
    (hdecode : Engine.decodeSource bytes = .ok text)
    (hread : Source.read (.text text) = .ok (throwing name))
    (hdefect : defect? (.text text) (e.fileName given) = none) :
    (Engine.executeBuffer bytes given e).2.hasPendingException = true := by
  obtain ⟨number, description, flags, hown⟩ := hlacks.stack
  obtain ⟨failure, -, hinvalid | ⟨hnone, -⟩⟩ | ⟨source, s, hsource, -, hrun⟩ :=
    Engine.executeBuffer_cases bytes given e
  · cases hdecode.symm.trans hinvalid
  · cases hm.symm.trans hnone
  obtain rfl : text = source := Except.ok.inj (hdecode.symm.trans hsource)
  obtain ⟨passes, outcome, evaluation, m', final, hconducted, -, hverdict, hafter⟩ :=
    Engine.executeSource_verdict hm (.text text) given
  obtain ⟨notices, waived, hcarried⟩ := hconducted.carried
  obtain ⟨hresult, hpending, hthere⟩ := h.evaluate_throwing hnames hown hread hdefect hcarried
  have htaken : m' = (Machine.takePending outcome.state).state := hverdict.of_error hresult
  have hsteady : Steady m' := htaken ▸ (h.evaluate hcarried).1.takePending.1
  rw [hrun, hsteady.hasPendingException_eq (by rw [hafter]), htaken]
  exact pending_takePending hpending hthere hlacks

/-- An error whose stack a script has replaced by a symbol. -/
def stackless : Object :=
  { Object.empty .error (some ErrorKind.error.prototype) with
    properties := [("message", ⟨.data (.text "boom"), .hidden⟩),
      ("name", ⟨.data (.text "Error"), .plain⟩), ("fileName", ⟨.data .undefined, .plain⟩),
      ("lineNumber", ⟨.data .undefined, .plain⟩), ("stack", ⟨.data (.symbol 0 none), .hidden⟩)] }

/-- A machine on which a script has named that error. -/
def laden : Machine :=
  let (id, m) := (Realm.machine false).allocate stackless
  m.update Realm.globalObject (·.withData "e" (.object id) .plain)

theorem steady_laden : Steady laden := by
  have hplaceable : Placeable [] [] stackless := by
    have hempty : Placeable [] [] (.empty .error (some ErrorKind.error.prototype)) :=
      .empty (by simp) known_nil rfl rfl
    exact hempty.withEntries (by simp [payloadKey])
  have hsafe : Safe False [] [] (do
      let id ← Interp.allocate stackless
      Interp.update Realm.globalObject (·.withData "e" (.object id) .plain)) fun _ ↦ [] := by
    refine (Safe.allocate hplaceable).bind fun id ↦ ?_
    exact (Safe.edit (.put (by simp [payloadKey])) (by simp) _).giving fun _ ↦ known_nil
  obtain ⟨-, hsound, -⟩ := hsafe (sound_machine false) False.elim rfl (List.forall_mem_nil _)
  have hladen : Sound laden := hsound
  exact { hladen.toTidy with
    sound := fun _ ↦ hladen
    spent := fun hclosed ↦ by cases hclosed
    pins := rfl
    trace := rfl
    settled := .inr ⟨rfl, rfl, rfl⟩ }

theorem names_laden : laden.Names "e" ⟨Realm.size⟩ stackless where
  ne_payloadKey := by decide
  global := ⟨_, rfl, _, rfl⟩
  object := rfl

theorem lacksStack_stackless : stackless.LacksStack where
  isError := rfl
  message := ⟨_, _, rfl⟩
  name := ⟨_, _, rfl⟩
  fileName := ⟨_, rfl⟩
  lineNumber := ⟨_, rfl⟩
  stack := ⟨_, _, _, rfl⟩

/-- The name of what a script throws that does nothing else. -/
def thrown? : Except Mistake Program → Option String
  | .ok [(0, .throw (.reference name))] => some name
  | _ => none

theorem eq_throwing_of_thrown? {r : Except Mistake Program} {name : String}
    (h : thrown? r = some name) : r = .ok (throwing name) := by
  unfold thrown? at h
  split at h
  · cases h
    rfl
  · cases h

/-- The text `throw e` is read as the script that throws what the name stands for. -/
theorem read_throwing : Source.read (.text "throw e") = .ok (throwing "e") :=
  eq_throwing_of_thrown? (by decide +kernel)

/-- Nothing is pending before the buffer is executed, but an exception is afterwards. -/
theorem execution_leaves_pending : Steady laden ∧ ∃ e events,
    Engine.create laden .default = (.ok e, events) ∧ e.hasPendingException = false ∧
    (Engine.executeBuffer [0x74, 0x68, 0x72, 0x6f, 0x77, 0x20, 0x65] none e).2.hasPendingException =
      true := by
  have hcreated : ∃ e events, Engine.create laden .default = (.ok e, events) ∧
      e.backend = some laden ∧ e.hasPendingException = false ∧ e.config = .default :=
    ⟨_, _, rfl, rfl, rfl, rfl⟩
  obtain ⟨e, events, hcreate, hbackend, hclear, hconfig⟩ := hcreated
  refine ⟨steady_laden, e, events, hcreate, hclear, ?_⟩
  have hdecode :
      Engine.decodeSource [0x74, 0x68, 0x72, 0x6f, 0x77, 0x20, 0x65] = .ok "throw e" := by
    decide +kernel
  refine steady_laden.executeBuffer_throwing hbackend names_laden lacksStack_stackless hdecode
    read_throwing ?_
  simp [Engine.fileName, hconfig, defect?, Config.default, noFileName]

end Machine

end Script

end ScriptBridge
