import ScriptBridge.Proofs.Script.Belonging

/-!
# Errors without a stack text

A script may throw an error whose stack has no text, since it is a symbol. Everything else about the
error can be read without running a script. Describing it then raises an exception that nobody
takes.
-/

namespace ScriptBridge.Script

variable {α : Type} {invoke : Invoke}

/-- The object has a data property of its own. -/
def Object.Shows (o : Object) (key : String) (d : Datum) : Prop :=
  ∃ flags, o.own? key = some ⟨.data d, flags⟩

/-- An error that can be read without running a script, but whose stack is a symbol. -/
structure Object.LacksStack (o : Object) : Prop where
  isError : o.isError = true
  message : ∃ units, o.Shows "message" (.string units)
  name : ∃ units, o.Shows "name" (.string units)
  fileName : o.Shows "fileName" .undefined
  lineNumber : o.Shows "lineNumber" .undefined
  stack : ∃ number description, o.Shows "stack" (.symbol number description)

namespace Machine

variable {m m' : Machine} {x : ObjectId} {o : Object} {key name file : String} {d : Datum}

/-! ## Description -/

theorem run_read_of_shows (ho : m.heap[x]? = some o) (h : o.Shows key d) (hkey : key ≠ payloadKey) :
    (Interp.read invoke x key).run m = (some d, m) := by
  obtain ⟨flags, hown⟩ := h
  unfold Interp.read Interp.readFor
  rw [run_bind_of (run_touch hkey m), run_bind_of (run_view_find? m x key), find?_of_own ho hown]
  rfl

theorem run_passingOver (action : Interp α) (m : Machine) :
    (Interp.passingOver action).run m = (some (action.run m).1,
      if (action.run m).1.isSome then (action.run m).2 else (action.run m).2.overlook) :=
  rfl

theorem run_passingOver_of {action : Interp α} {a : α} (h : action.run m = (some a, m')) :
    (Interp.passingOver action).run m = (some (some a), m') := by
  rw [run_passingOver, h]
  rfl

theorem run_passingOver_of_none {action : Interp α} (h : action.run m = (none, m')) :
    (Interp.passingOver action).run m = (some none, m'.overlook) := by
  rw [run_passingOver, h]
  rfl

theorem run_readString? (ho : m.heap[x]? = some o) (h : o.Shows key d) (hkey : key ≠ payloadKey) :
    (Interp.readString? invoke x key).run m = (some (d.units?.bind Text.Units.toString?), m) := by
  unfold Interp.readString?
  rw [run_bind_of (run_passingOver_of (run_read_of_shows ho h hkey))]
  cases d <;> rfl

theorem run_readLine? (ho : m.heap[x]? = some o) (h : o.Shows key d) (hkey : key ≠ payloadKey) :
    (Interp.readLine? invoke x key).run m = (some (d.number?.bind Interp.lineOf?), m) := by
  unfold Interp.readLine?
  rw [run_bind_of (run_passingOver_of (run_read_of_shows ho h hkey))]
  rfl

theorem run_readText?_of_string {units : Text.Units} (ho : m.heap[x]? = some o)
    (h : o.Shows key (.string units)) (hkey : key ≠ payloadKey) :
    (Interp.readText? invoke x key).run m = (some units.toString?, m) := by
  have hread : (Interp.read invoke x key).run m = _ := run_read_of_shows ho h hkey
  unfold Interp.readText?
  exact (run_bind_of (run_passingOver_of ((run_bind_of hread).trans rfl))).trans rfl

/-- A symbol has no text, and the exception that tells so is passed over. -/
theorem run_readText?_of_symbol {number : Nat} {description : Option Text.Units}
    (ho : m.heap[x]? = some o) (h : o.Shows key (.symbol number description))
    (hkey : key ≠ payloadKey) :
    ∃ m', (Interp.readText? invoke x key).run m = (some none, m') ∧ m'.pending.isSome = true := by
  have hread : (Interp.read invoke x key).run m = _ := run_read_of_shows ho h hkey
  have hraise : (Interp.toText invoke (.symbol number description)).run m =
      (none, ((Interp.raiseFault .symbolToText : Interp Text.Units).run m).2) := rfl
  unfold Interp.readText?
  exact ⟨_, (run_bind_of (run_passingOver_of_none
    ((run_bind_of hread).trans (run_bind_of_none hraise)))).trans rfl, rfl⟩

theorem pending_diagnose (ho : m.heap[x]? = some o) (h : o.LacksStack) :
    ((Interp.diagnose invoke (.object x)).run m).2.pending.isSome = true := by
  let held : Machine := { m with pins := [.object x] ++ m.pins }
  have ho : held.heap[x]? = some o := ho
  obtain ⟨message, hmessage⟩ := h.message
  obtain ⟨name, hname⟩ := h.name
  obtain ⟨number, description, hstack⟩ := h.stack
  obtain ⟨after, hread, hpending⟩ : ∃ after,
      (Interp.readText? invoke x "stack").run held = (some none, after) ∧
        after.pending.isSome = true :=
    run_readText?_of_symbol ho hstack (by decide)
  have hdescribe : (Interp.diagnoseError invoke x).run held = (some _, after) :=
    calc (Interp.diagnoseError invoke x).run held
        = _ := run_bind_of (run_readText?_of_string ho hmessage (by decide))
      _ = _ := run_bind_of (run_readString? ho hname (by decide))
      _ = _ := run_bind_of (run_readString? ho h.fileName (by decide))
      _ = _ := run_bind_of (run_readLine? ho h.lineNumber (by decide))
      _ = _ := run_bind_of hread
      _ = _ := rfl
  have herror : (held.object x).isError = true := by rw [object_of_getElem? ho, h.isError]
  unfold Interp.diagnose
  rw [run_holding]
  dsimp only
  rw [run_bind_of (run_object held x), if_pos herror, hdescribe]
  exact hpending

/-- When such an error is taken, another exception is pending. -/
theorem pending_takePending (hpending : m.pending = some (.object x)) (ho : m.heap[x]? = some o)
    (h : o.LacksStack) : (Machine.takePending m).state.pending.isSome = true := by
  let taken : Machine := { m with pending := none }
  have ho : taken.heap[x]? = some o := ho
  have hafter : ((Interp.diagnose Interp.invoke (.object x)).run taken).2.pending.isSome = true :=
    pending_diagnose ho h
  unfold Machine.takePending
  rw [hpending]
  show (Machine.settle [] _).pending.isSome = true
  rw [settle_eq]
  exact hafter

/-! ## A script that throws what a name stands for -/

/-- A global name stands for an object. -/
structure Names (m : Machine) (name : String) (x : ObjectId) (o : Object) : Prop where
  ne_payloadKey : name ≠ payloadKey
  global : ∃ g : Object, m.heap[Realm.globalObject]? = some g ∧ g.Shows name (.object x)
  object : m.heap[x]? = some o

/-- The script that throws what a name stands for. -/
def throwing (name : String) : Program := [(0, .throw (.reference name))]

theorem run_settling (action : Interp Datum) (m : Machine) :
    (Interp.settling action).run m = ((action.run m).1,
      (action.run m).2.settle ((action.run m).1.toList.flatMap Datum.references)) :=
  rfl

theorem run_settling_of {action : Interp Datum} (h : action.run m = (some d, m')) :
    (Interp.settling action).run m = (some d, m'.settle d.references) := by
  rw [run_settling, h]
  simp

theorem run_inFrame (frame : Frame) (action : Interp α) (m : Machine) :
    (Interp.inFrame frame action).run m =
      ((action.run { m with frames := frame :: m.frames }).1,
        { (action.run { m with frames := frame :: m.frames }).2 with frames := m.frames }) :=
  rfl

theorem run_inFrame_of {frame : Frame} {action : Interp α} {result : Option α}
    (h : action.run { m with frames := frame :: m.frames } = (result, m')) :
    (Interp.inFrame frame action).run m = (result, { m' with frames := m.frames }) := by
  rw [run_inFrame, h]

theorem Names.run_reference (h : m.Names name x o) :
    (Interp.eval invoke (.reference name)).run m = (some (.object x), m.settle [x]) := by
  obtain ⟨g, hg, flags, hown⟩ := h.global
  have hdeclared : (Interp.isDeclared name).run m = (some true, m) := by
    show (some (m.find? Realm.globalObject name).isSome, m) = _
    rw [find?_of_own hg hown]
    rfl
  rw [Interp.eval]
  refine run_settling_of ((run_bind_of hdeclared).trans ?_)
  exact run_read_of_shows hg ⟨flags, hown⟩ h.ne_payloadKey

/-- What a name stands for is kept when it is read. -/
theorem Sound.getElem?_settle_of_names (h : Sound m) (hnames : m.Names name x o) :
    (m.settle [x]).heap[x]? = some o := by
  obtain ⟨g, hg, flags, hown⟩ := hnames.global
  have hoffers : m.Offers x := by
    refine h.shown hg (Object.mem_shown_of_refsAt hnames.ne_payloadKey ?_)
    rw [Object.refsAt_eq hown]
    exact List.mem_singleton_self x
  obtain ⟨-, -, hkept⟩ := h.settle [x]
  have hsame := getElem?_of_mem (hkept x (List.mem_singleton_self x) hoffers).1
  rw [hsame, ← of_getElem?_heap_settle hsame, hnames.object]

/-- An error that has a stack is thrown as it is. -/
theorem run_raiseDatum_of_stack {p : Property} (ho : m.heap[x]? = some o)
    (hstack : o.own? "stack" = some p) :
    (Interp.raiseDatum (.object x) : Interp α).run m =
      (none, { m with pending := some (.object x) }) := by
  unfold Interp.raiseDatum
  dsimp only
  refine (run_bind_of (run_object m x)).trans ?_
  rw [object_of_getElem? ho, hstack, Option.isNone_some, Bool.and_false, Bool.false_and]
  rfl

/-- What is thrown is pending, and as it was. -/
theorem Sound.run_throwing {p : Property} (h : Sound m) (hnames : m.Names name x o)
    (hstack : o.own? "stack" = some p) (file : String) :
    ∃ m', (Interp.runProgram file (throwing name)).run m = (none, m') ∧
      m'.pending = some (.object x) ∧ m'.heap[x]? = some o := by
  let framed : Machine := { m with frames := ⟨none, some (.start file 1)⟩ :: m.frames }
  have hframed : Sound framed := h.withHeld rfl rfl rfl rfl rfl rfl fun hd _ ↦ .inl hd
  have hnames : framed.Names name x o := { hnames with }
  have hthere := hframed.getElem?_settle_of_names hnames
  let raised : Machine := { framed.settle [x] with pending := some (.object x) }
  have hexec : (Interp.exec Interp.invoke (.throw (.reference name))).run framed = (none, raised) :=
    (run_bind_of hnames.run_reference).trans (run_raiseDatum_of_stack hthere hstack)
  -- No line is noted before a value is thrown, and the script is still on its first line.
  have henter : (Interp.enterStatement 0 (.throw (.reference name))).run framed =
      (some (), framed) := rfl
  have hstatements : (Interp.runStatements (throwing name)).run framed = (none, raised) :=
    (run_bind_of henter).trans (run_bind_of_none hexec)
  have hcheck : (Interp.checkDeclarations (throwing name)).run framed = (some (), framed) := rfl
  have hmake : (Interp.makeDeclarations Interp.invoke (throwing name)).run framed =
      (some (), framed) := rfl
  refine ⟨{ raised with frames := m.frames }, run_inFrame_of ?_, rfl, hthere⟩
  calc _ = _ := run_bind_of hcheck
    _ = _ := run_bind_of hmake
    _ = _ := run_bind_of_none hstatements

end Machine

end ScriptBridge.Script
