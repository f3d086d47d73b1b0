import ScriptBridge.Proofs.Engine.Annotation
import ScriptBridge.Proofs.Engine.Parentage
import ScriptBridge.Proofs.Script.Overlooking
import ScriptBridge.Proofs.Script.Refusing

/-!
# The finalizer of instances

A constructor is made when a class is installed, and keeps the finalizer that the class has then.
So what it builds has that finalizer, whatever is defined later for the class or for others. This
goes for the constructor of an attempt that is refused as well, since a script may have met it.
-/

namespace ScriptBridge

open Script (Interp Machine ObjectId inputs)
open Script.Machine (Entrusts Granted Ground Honours Lives Moment Yields)

namespace Engine

variable {e e' first : Engine Machine} {deeds more : List ClassDeed} {m m' : Machine}
  {events : List Event} {i : Installation}

/-! ## Instances -/

/-- Payloads stay with their carriers. -/
theorem Annals.payloads (h : Annals e more e') (hm : e.backend = some m)
    (hm' : e'.backend = some m') (hsteady : m.Steady) {c : ObjectId} {payload : Payload}
    (hmade : (c, payload) ∈ m.ledger.made) : (c, payload) ∈ m'.ledger.made ∧
      ∀ o, m'.heap[c]? = some o → o.payload? = some payload := by
  obtain ⟨exchanges, after, hdealings, hkeeps⟩ := h.keeps (.inl hm)
  obtain rfl := hkeeps.eq_of_some hm'
  obtain ⟨hsteady', made, hadvances⟩ := hsteady.dealings hdealings
  obtain ⟨new, hgrown, -⟩ := hadvances.made
  have hmade' : (c, payload) ∈ after.ledger.made := by
    rw [hgrown]
    exact List.mem_append_left _ hmade
  exact ⟨hmade', fun o ↦ hsteady'.payload_of_made hmade'⟩

theorem backend_createClass (name : String) (parent : Option ClassId)
    (constructor : Option NativeConstructor) (e : Engine Machine) :
    (performSimple (.createClass name parent constructor) e).2.backend = e.backend := by
  rw [performSimple_createClass]
  split <;> rfl

theorem backend_defineFinalizer (id : ClassId) (tag : String) (e : Engine Machine) :
    (performSimple (.defineFinalizer id tag) e).2.backend = e.backend := by
  rw [performSimple_defineFinalizer]
  split <;> rfl

/-- What the annals of an engine say about the finalizers of instances. -/
structure Binding (e : Engine Machine) (deeds : List ClassDeed) : Prop where
  /-- No class is created twice. -/
  created : (deeds.filterMap ClassDeed.created?).Nodup
  /-- No class is accepted twice. -/
  accepted : (deeds.filterMap ClassDeed.accepted?).Nodup
  installed : ∀ id, e.catalog.isInstalled id = true ↔
    id ∈ deeds.filterMap ClassDeed.accepted? ∧ (e.catalog.get? id).isSome = true
  /-- An attempt to install a class, alone or with others, is made for the class as it was created
  and with the finalizer that was defined last before. -/
  attempted : ∀ newer i older id, deeds = newer ++ .attempted i :: older → i.id = some id →
    .created id i.spec.name i.spec.constructor ∈ older ∧
      i.native = ⟨i.spec.name, i.spec.constructor, finalizer? id older⟩
  /-- At any moment of what is done next, constructors keep to the attempts that have made them. -/
  moments : ∀ m made w, e.backend = some m → Moment made m w → Honours (attempts deeds) made m w
  /-- So they do at any moment of an attempt to install a class, when its own constructor may be
  there already. -/
  attempting : ∀ newer i older w, deeds = newer ++ .attempted i :: older →
    Moment [i.native] i.found w → Honours (attempts older) [i.native] i.found w
  /-- Creations and definitions do not reach the machine. -/
  create : ∀ name parent constructor,
    (performSimple (.createClass name parent constructor) e).2.backend = e.backend
  define : ∀ id tag, (performSimple (.defineFinalizer id tag) e).2.backend = e.backend
  /-- A payload stays with its carrier, together with its finalizer, whatever is done later. -/
  payloads : ∀ m later e' m', e.backend = some m → Annals e later e' → e'.backend = some m' →
    ∀ c payload, (c, payload) ∈ m.ledger.made → (c, payload) ∈ m'.ledger.made ∧
      ∀ o, m'.heap[c]? = some o → o.payload? = some payload

theorem Annals.binding (h : Annals first deeds e) {config : Config}
    (hcreate : Session.createScripting config = (.ok first, events)) : Binding e deeds := by
  have hannotated := h.annotated hcreate
  have hbooks := (h.enrolled hcreate).books
  exact
    { created := by
        rw [← List.nodup_reverse, hbooks.issued]
        exact Catalog.nodup_issued _
      accepted := List.nodup_reverse.mp hbooks.nodup
      installed := fun id ↦ by rw [hbooks.installed, List.mem_reverse]
      attempted := by
        rintro newer i older id rfl hid
        obtain ⟨hcreated, hfinalizer⟩ := hannotated.attested.split.recorded id hid
        rw [← hfinalizer]
        exact ⟨hcreated, rfl⟩
      moments := fun m made w hm hmoment ↦ (hannotated.traced m hm).honours hmoment
      attempting := by
        rintro newer i older w rfl hmoment
        exact hannotated.attested.split.traced.honours hmoment
      create := fun name parent constructor ↦ backend_createClass name parent constructor e
      define := fun id tag ↦ backend_defineFinalizer id tag e
      payloads := fun m later e' m' hm hlater hm' c payload hmade ↦
        hlater.payloads hm hm' (hannotated.traced m hm).steady hmade }

/-- Any operation but a start may come next in a life. -/
theorem exists_lives_performSimple {config : Config} {op : Operation}
    (h : Lives config events e) (hop : op ≠ .start) :
    ∃ events, Lives config events (performSimple op e).2 := by
  obtain ⟨more, htrace, -⟩ := story_performSimple h.reachable op
  have hrun : perform (fun _ _ ↦ .finish (.ok ())) 0 op e = some (performSimple op e) := by
    cases op with
    | start => exact absurd rfl hop
    | _ => rfl
  exact ⟨_, h.performed hrun htrace⟩

/-- A class that alone is missing is on record with the one attempt to install it. -/
theorem deedsOf_installClass {id : ClassId} {spec : ClassSpec} (hm : e.backend = some m)
    (hspec : e.catalog.spec? id = some spec) (hmissing : e.catalog.missing id = [id]) :
    deedsOf (.installClass id) e = [.attempted ⟨some id, spec, m⟩] := by
  rw [deedsOf, hm, hmissing]
  dsimp only
  cases hresult : (Backend.installClass spec m).result with
  | ok =>
    rw [attemptsFor_accepted hspec hresult]
    rfl
  | error failure =>
    rw [attemptsFor_refused hspec hresult]
    rfl

/-- Where no class is installed, a finalizer may be defined. -/
theorem Settled.defined (h : Settled e [] m) (id : ClassId) (tag : String) :
    Settled (performSimple (.defineFinalizer id tag) e).2 [] m := by
  have hreachable := h.reachable.moved (.operate (.defineFinalizer id tag) e)
  rw [performSimple_defineFinalizer] at hreachable ⊢
  cases hdefine : e.catalog.defineFinalizer id tag with
  | error failure => exact h
  | ok after =>
    rw [hdefine] at hreachable
    refine ⟨hreachable, h.backend, h.peopled.of_catalog (List.forall_mem_nil _)
      (List.forall_mem_nil _), fun other ↦ ?_⟩
    rw [← h.installed other]
    exact Bool.eq_iff_iff.mp (Catalog.isInstalled_defineFinalizer hdefine other)

/-- Gives every instance the same payload. -/
def givesPayload : NativeConstructor := fun _ ↦ .ok (some "p")

/-- A class with a finalizer, before it is installed. -/
def prepared : Engine Machine :=
  (performSimple (.defineFinalizer ⟨0⟩ "one")
    (performSimple (.createClass "A" none (some givesPayload)) scripted).2).2

/-- The class was installed. -/
def installed : Engine Machine := (performSimple (.installClass ⟨0⟩) prepared).2

/-- Another finalizer was defined afterwards. -/
def redefined : Engine Machine := (performSimple (.defineFinalizer ⟨0⟩ "two") installed).2

/-- The class with the finalizer that it has at first. -/
def specOne : ClassSpec := ⟨"A", none, some givesPayload, some "one"⟩

theorem lives_prepared : ∃ events, Lives .default events prepared := by
  have hcreate : Session.createScripting .default = (.ok scripted, [.call .globalObject]) := rfl
  obtain ⟨_, hlives⟩ := exists_lives_performSimple (.created hcreate)
    (by simp : Operation.createClass "A" none (some givesPayload) ≠ .start)
  exact exists_lives_performSimple hlives
    (by simp : Operation.defineFinalizer ⟨0⟩ "one" ≠ .start)

theorem lives_redefined : ∃ events, Lives .default events redefined := by
  obtain ⟨_, hlives⟩ := lives_prepared
  obtain ⟨_, hlives⟩ := exists_lives_performSimple hlives
    (by simp : Operation.installClass ⟨0⟩ ≠ .start)
  exact exists_lives_performSimple hlives
    (by simp : Operation.defineFinalizer ⟨0⟩ "two" ≠ .start)

theorem spec?_prepared : prepared.catalog.spec? ⟨0⟩ = some specOne := rfl

theorem missing_prepared : prepared.catalog.missing ⟨0⟩ = [⟨0⟩] := rfl

theorem settled_prepared : ∃ m, Settled prepared [] m := by
  obtain ⟨m, h⟩ := settled_fresh
    (rfl : Session.createScripting .default = (.ok scripted, [.call .globalObject]))
  exact ⟨m, (h.created "A" none (some givesPayload)).defined ⟨0⟩ "one"⟩

/-- The constructor that the installation makes is there, with its prototype. -/
theorem exists_native_installed (h : Settled prepared [] m) : ∃ x prototype m',
    installed.catalog = prepared.catalog.markInstalled ⟨0⟩ ∧ installed.backend = some m' ∧
      m'.native? x = some (.of specOne) ∧
      (m'.object x).Shows "prototype" (.object prototype) := by
  obtain ⟨hfounds, hcatalog⟩ := h.install_free spec?_prepared missing_prepared (by decide)
  obtain ⟨m', hinstalled⟩ := h.installed_class ⟨0⟩
  rw [hfounds] at hinstalled
  have hheritage := (show Settled _ ([] ++ _ :: []) m' from hinstalled).heritage
  rw [installed]
  exact ⟨_, _, m', hcatalog, hinstalled.backend,
    Script.Machine.native?_of_callable? hheritage.callable, hheritage.shows⟩

theorem annals_prepared :
    Annals scripted [.defined ⟨0⟩ "one", .created ⟨0⟩ "A" (some givesPayload)] prepared :=
  (Annals.single (.operate (.createClass "A" none (some givesPayload)) scripted)).tail
    (.operate (.defineFinalizer ⟨0⟩ "one") _)

theorem annals_redefined (hm : prepared.backend = some m)
    (hcatalog : installed.catalog = prepared.catalog.markInstalled ⟨0⟩) :
    Annals scripted [.defined ⟨0⟩ "two", .attempted ⟨some ⟨0⟩, specOne, m⟩, .defined ⟨0⟩ "one",
      .created ⟨0⟩ "A" (some givesPayload)] redefined := by
  have hinstalled := annals_prepared.tail (.operate (.installClass ⟨0⟩) prepared)
  rw [deedsOf_installClass hm spec?_prepared missing_prepared] at hinstalled
  have hredefined := hinstalled.tail (.operate (.defineFinalizer ⟨0⟩ "two") installed)
  have hdefined : deedsOf (.defineFinalizer ⟨0⟩ "two") installed = [.defined ⟨0⟩ "two"] := by
    rw [deedsOf, hcatalog]
    rfl
  rwa [hdefined] at hredefined

/-- An engine over a machine on known ground, with its annals. -/
structure Staged (e : Engine Machine) (deeds : List ClassDeed) (g f : Script.Object)
    (m : Machine) : Prop where
  lives : ∃ events, Lives .default events e
  annals : Annals scripted deeds e
  backend : e.backend = some m
  config : e.config = .default
  ground : Ground g f m

namespace Staged

variable {g f g' f' : Script.Object} {p : Script.Program} {spec : ClassSpec} {id : ClassId}

theorem steady (h : Staged e deeds g f m) : m.Steady := by
  obtain ⟨_, hlives⟩ := h.lives
  exact hlives.steady h.backend

/-- A script changes the ground. -/
theorem executed (h : Staged e deeds g f m) (hedits : ∀ entry ∈ p, entry.2.isEdit = true)
    (hp : Yields g f (Interp.runStatements p) () g' f') : ∃ m',
      Staged (performSimple (.executeSource (.program p) none) e).2 deeds g' f' m' ∧
        (performSimple (.executeSource (.program p) none) e).2.catalog = e.catalog ∧
        m'.nextHandle = m.nextHandle := by
  obtain ⟨_, hlives⟩ := h.lives
  have hopen := h.steady.isOpen_of_mem (Script.Machine.mem_heap_of_getElem? h.ground.global)
  have hdefect : Script.Machine.defect? (.program p) (e.fileName none) = none := by
    simp [Engine.fileName, h.config, Script.Machine.defect?, Config.default, noFileName]
  obtain ⟨notices, m', hevaluate, hground, hnext⟩ :=
    h.ground.evaluate hopen hdefect (Yields.program hedits hp _)
  obtain ⟨passes, o, events, s, final, hconducted, -, hverdict, hafter⟩ :=
    executeSource_verdict h.backend (.program p) none
  have hreport : Backend.evaluate (.program p) (e.fileName none) m = _ := hevaluate
  rw [hreport] at hconducted
  obtain ⟨⟩ | ⟨-, ⟨⟩⟩ | ⟨⟩ | ⟨⟩ := hconducted
  have hs : s = m' := by
    generalize (executeSource (.program p) none e).1 = result at hverdict
    cases hverdict with
    | nothing => rfl
    | value => rfl
    | thrown hfailed => cases hfailed
    | failed hfailed => cases hfailed
  subst hs
  refine ⟨s, ⟨exists_lives_performSimple hlives (by simp), ?_, ?_, ?_, hground⟩, ?_, hnext⟩
  · exact h.annals.tail (.operate (.executeSource (.program p) none) e)
  all_goals
    rw [performSimple, run_map, hafter]
  · exact h.config

/-- An attempt to install a class that alone is missing is refused. -/
theorem refused (h : Staged e deeds g f m) (hspec : e.catalog.spec? id = some spec)
    (hmissing : e.catalog.missing id = [id])
    (hresult : (Backend.installClass spec m).result = .error .exceptionPending)
    (hground : Ground g f (Backend.installClass spec m).state) :
    Staged (performSimple (.installClass id) e).2 (.attempted ⟨some id, spec, m⟩ :: deeds) g f
        (Backend.installClass spec m).state ∧
      (performSimple (.installClass id) e).2.catalog = e.catalog := by
  obtain ⟨_, hlives⟩ := h.lives
  have hannals := h.annals.tail (.operate (.installClass id) e)
  rw [deedsOf_installClass h.backend hspec hmissing] at hannals
  obtain ⟨done, result, s, events, hinstalling, hrun⟩ :=
    installClass_eq hlives.reachable.lineal h.backend id
  have hafter : (performSimple (.installClass id) e).2 = e.enrolled done s events := by
    rw [performSimple, run_return, hrun]
  rw [hmissing] at hinstalling
  cases hinstalling with
  | accepted hspec' hok =>
    cases hspec.symm.trans hspec'
    cases hresult.symm.trans hok
  | unknown hspec' => cases hspec.symm.trans hspec'
  | refused hspec' hfailed =>
    cases hspec.symm.trans hspec'
    refine ⟨⟨exists_lives_performSimple hlives (by simp), hannals, ?_, ?_, hground⟩, ?_⟩
    all_goals rw [hafter]
    · rfl
    · exact h.config
    · rfl

/-- A finalizer is defined. -/
theorem defined (h : Staged e deeds g f m) {tag : String} {c : Catalog}
    (hdefine : e.catalog.defineFinalizer id tag = .ok c) :
    Staged (performSimple (.defineFinalizer id tag) e).2 (.defined id tag :: deeds) g f m ∧
      (performSimple (.defineFinalizer id tag) e).2.catalog = c := by
  obtain ⟨_, hlives⟩ := h.lives
  have hannals := h.annals.tail (.operate (.defineFinalizer id tag) e)
  have hdeeds : deedsOf (.defineFinalizer id tag) e = [.defined id tag] := by
    rw [deedsOf, hdefine]
  have hafter : (performSimple (.defineFinalizer id tag) e).2 = { e with catalog := c } := by
    rw [performSimple_defineFinalizer, hdefine]
  rw [hdeeds] at hannals
  refine ⟨⟨exists_lives_performSimple hlives (by simp), hannals, ?_, ?_, h.ground⟩, ?_⟩
  all_goals rw [hafter]
  · exact h.backend
  · exact h.config

end Staged

/-- The class with the finalizer that it has in the end. -/
def specTwo : ClassSpec := { specOne with finalizer := some "two" }

/-- A script sets a bait, so that the class is refused. Another finalizer is defined, the bait is
taken away, and the class is installed. -/
def retried : Engine Machine :=
  performAll [.executeSource (.program Script.Machine.baiting) none, .installClass ⟨0⟩,
    .defineFinalizer ⟨0⟩ "two", .executeSource (.program Script.Machine.mending) none,
    .installClass ⟨0⟩] prepared

end Engine

end ScriptBridge
