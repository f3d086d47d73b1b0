import ScriptBridge.Proofs.Engine.Aftermath

/-!
# Installation resumes

Over a whole run of an engine every class gets a number of its own, also after a cleanup, and the
backend accepts every class at most once. An installation asks for what is missing of a lineage and
keeps what was accepted, so that the next attempt goes on with the class that was refused.
-/

namespace ScriptBridge

namespace Catalog

variable {c : Catalog} {id other : ClassId}

/-- The numbers of the classes that were created so far. -/
def issued (c : Catalog) : List ClassId := (List.range c.next).map ClassId.mk

theorem mem_issued : id ∈ c.issued ↔ id.index < c.next := by
  simp only [issued, List.mem_map, List.mem_range]
  constructor
  · rintro ⟨index, hlt, rfl⟩
    exact hlt
  · intro hlt
    exact ⟨id.index, hlt, rfl⟩

theorem nodup_issued (c : Catalog) : c.issued.Nodup := by
  refine List.nodup_range.map ?_
  rintro _ _ ⟨⟩
  rfl

theorem isSome_spec? (c : Catalog) (id : ClassId) : (c.spec? id).isSome = (c.get? id).isSome := by
  rw [spec?, Option.isSome_map]

theorem isSome_get?_foldl_markInstalled (ids : List ClassId) (c : Catalog) (id : ClassId) :
    ((ids.foldl markInstalled c).get? id).isSome = (c.get? id).isSome :=
  ids.foldlRecOn _ (motive := fun after ↦ (after.get? id).isSome = (c.get? id).isSome) rfl
    fun after hsame marked _ ↦ (isSome_get?_markInstalled after marked id).trans hsame

theorem next_foldl_markInstalled (ids : List ClassId) (c : Catalog) :
    (ids.foldl markInstalled c).next = c.next :=
  ids.foldlRecOn _ (motive := fun after : Catalog ↦ after.next = c.next) rfl fun _ hsame _ _ ↦ hsame

end Catalog

namespace Engine

variable {σ : Type} [Backend σ] {e : Engine σ} {s : σ}

/-! ## What holds of reachable engines -/

theorem named_performSimple (hlineal : e.catalog.Lineal) (h : e.catalog.Named) (op : Operation) :
    (performSimple op e).2.catalog.Named := by
  have hchange := recatalogs_performSimple hlineal op
  generalize (performSimple op e).2.catalog = after at hchange
  cases hchange with
  | same => exact h
  | created hcreate => exact h.create hlineal hcreate
  | defined hdefine => exact h.defineFinalizer hdefine
  | @installed _ _ _ done => exact done.foldlRecOn _ h fun _ hold id _ ↦ hold.markInstalled id
  | cleared => exact Catalog.named_clear _

theorem grounded_performSimple (hlineal : e.catalog.Lineal) (h : e.catalog.Grounded)
    (op : Operation) : (performSimple op e).2.catalog.Grounded := by
  have hchange := recatalogs_performSimple hlineal op
  generalize (performSimple op e).2.catalog = after at hchange
  cases hchange with
  | same => exact h
  | created hcreate => exact h.create hlineal hcreate
  | defined hdefine => exact h.defineFinalizer hdefine
  | installed hs hinstalling =>
    obtain ⟨rest, hsplit, -⟩ := hinstalling.split
    refine hlineal.grounded_foldl_markInstalled hsplit (fun other hmem ↦ ?_) h
    rw [← Catalog.isSome_spec?]
    exact hinstalling.isSome_spec hmem
  | cleared => exact (Catalog.pristine_clear _).grounded

/-- The names of parents are on record, and installed classes have installed parents. -/
theorem Reachable.named_grounded (h : Reachable e) : e.catalog.Named ∧ e.catalog.Grounded := by
  induction h with
  | created h =>
    obtain ⟨global, s, rfl⟩ := create_eq_ok h
    exact ⟨Catalog.named_clear .empty, (Catalog.pristine_clear .empty).grounded⟩
  | moved h hmove ih =>
    cases hmove with
    | operate op =>
      exact ⟨named_performSimple h.lineal ih.1 op, grounded_performSimple h.lineal ih.2 op⟩
    | begin => exact ih
    | trace => exact ih
    | drive => exact ih

/-! ## Classes over a whole run -/

/-- The number that an operation gives out, if it creates a class. -/
def issuedBy : Operation → Engine σ → List ClassId
  | .createClass name parent constructor, e =>
    (createClass name parent constructor e).1.toOption.toList
  | _, _ => []

/-- The classes that the backend accepts in the course of an operation. -/
inductive Accepts (e : Engine σ) : Operation → List ClassId → Prop
  | installing {id : ClassId} {s s' : σ} {done : List ClassId} {result : Except Failure Unit}
    {events : List Event} (hs : e.backend = some s)
    (h : Installing e.catalog.spec? (e.catalog.missing id) s done result s' events) :
    Accepts e (.installClass id) done
  | nothing {op : Operation} (h : ∀ id, op = .installClass id → e.backend = none) : Accepts e op []

/-- A run that leads to an engine, with the numbers of classes that were given out and the classes
that the backend has accepted on the way. -/
inductive Enrolled : Engine σ → List ClassId → List ClassId → Prop
  | created {state : σ} {config : Config} {e : Engine σ} {events : List Event}
    (h : create state config = (.ok e, events)) : Enrolled e [] []
  | operated {e : Engine σ} {born taken done : List ClassId} {op : Operation}
    (h : Enrolled e born taken) (hdone : Accepts e op done) :
    Enrolled (performSimple op e).2 (born ++ issuedBy op e) (taken ++ done)
  | begun {e : Engine σ} {born taken : List ClassId} (h : Enrolled e born taken) :
    Enrolled { e with started := true, queue := [] } born taken
  | traced {e : Engine σ} {born taken : List ClassId} (h : Enrolled e born taken)
    (events : List Event) : Enrolled { e with trace := events } born taken
  | driven {e : Engine σ} {s : σ} {born taken : List ClassId} (h : Enrolled e born taken)
    (hs : e.backend = some s) (s' : σ) : Enrolled { e with backend := some s' } born taken

theorem Reachable.exists_accepts (h : Reachable e) (op : Operation) :
    ∃ done, Accepts e op done := by
  cases hs : e.backend with
  | none => exact ⟨[], .nothing fun _ _ ↦ hs⟩
  | some s =>
    cases op with
    | installClass id =>
      obtain ⟨done, result, s', events, hinstalling, -⟩ := installClass_eq h.lineal hs id
      exact ⟨done, .installing hs hinstalling⟩
    | _ => exact ⟨[], .nothing (by simp)⟩

/-- Every reachable engine has such a run. -/
theorem Reachable.exists_enrolled (h : Reachable e) : ∃ born taken, Enrolled e born taken := by
  induction h with
  | created h => exact ⟨[], [], .created h⟩
  | moved h hmove ih =>
    obtain ⟨born, taken, ih⟩ := ih
    cases hmove with
    | operate op =>
      obtain ⟨done, hdone⟩ := h.exists_accepts op
      exact ⟨_, _, ih.operated hdone⟩
    | begin => exact ⟨_, _, ih.begun⟩
    | trace _ events => exact ⟨_, _, ih.traced events⟩
    | drive hs s' => exact ⟨_, _, ih.driven hs s'⟩

theorem Enrolled.reachable {born taken : List ClassId} (h : Enrolled e born taken) :
    Reachable e := by
  induction h with
  | created h => exact .created h
  | operated _ _ ih => exact ih.moved (.operate _ _)
  | begun _ ih => exact ih.moved (.begin _)
  | traced _ events ih => exact ih.moved (.trace _ events)
  | driven _ hs s' ih => exact ih.moved (.drive hs s')

/-- The books of a run: which numbers were given out, and which classes were accepted. -/
structure Books (c : Catalog) (born taken : List ClassId) : Prop where
  issued : born = c.issued
  nodup : taken.Nodup
  known : ∀ id ∈ taken, id ∈ born
  installed : ∀ id, c.isInstalled id = true ↔ id ∈ taken ∧ (c.get? id).isSome = true

namespace Books

variable {c : Catalog} {born taken done : List ClassId}

omit [Backend σ] in
theorem create (h : Books c born taken) {name : String} {parent : Option ClassId}
    {constructor : Option NativeConstructor} {id : ClassId} {after : Catalog}
    (hcreate : c.create name parent constructor = .ok (id, after)) :
    Books after (born ++ [id]) taken := by
  obtain ⟨entry, rfl, rfl, -, hfresh, -, -⟩ := Catalog.create_ok hcreate
  refine ⟨?_, h.nodup, fun id hid ↦ List.mem_append_left _ (h.known id hid), fun id ↦ ?_⟩
  · rw [h.issued, Catalog.issued, Catalog.issued, List.range_succ, List.map_append]
    rfl
  · rw [Catalog.isInstalled, Catalog.get?_insert]
    split
    · next hid =>
      rw [Option.any_some, hfresh]
      refine iff_of_false Bool.false_ne_true fun hid' ↦ ?_
      have hlt := Catalog.mem_issued.mp (h.issued ▸ h.known id hid'.1)
      exact Nat.lt_irrefl _ (hid ▸ hlt)
    · exact h.installed id

/-- What was accepted was not accepted before. -/
theorem install (h : Books c born taken) (hlineal : c.Lineal)
    {id : ClassId} {s s' : σ} {result : Except Failure Unit} {events : List Event}
    (hdone : Installing c.spec? (c.missing id) s done result s' events) :
    Books (done.foldl Catalog.markInstalled c) born (taken ++ done) := by
  obtain ⟨rest, hsplit, -⟩ := hdone.split
  have hknown : ∀ other ∈ done, (c.get? other).isSome = true := by
    intro other hmem
    rw [← Catalog.isSome_spec?]
    exact hdone.isSome_spec hmem
  have hnodup := hlineal.missing_nodup id
  rw [hsplit] at hnodup
  refine ⟨?_, List.nodup_append.mpr ⟨h.nodup, hnodup.of_append_left, ?_⟩, ?_, ?_⟩
  · rw [h.issued, Catalog.issued, Catalog.issued, Catalog.next_foldl_markInstalled]
  · rintro other hold _ hnew rfl
    have hinstalled := (h.installed other).mpr ⟨hold, hknown other hnew⟩
    have hmissing := (Catalog.mem_missing.mp (hsplit ▸ List.mem_append_left rest hnew)).2
    cases hinstalled.symm.trans hmissing
  · intro other hmem
    rcases List.mem_append.mp hmem with hold | hnew
    · exact h.known other hold
    · obtain ⟨entry, hentry⟩ := Option.isSome_iff_exists.mp (hknown other hnew)
      exact h.issued ▸ Catalog.mem_issued.mpr (hlineal.index_lt hentry)
  · intro other
    rw [Catalog.isInstalled_foldl_markInstalled hknown, h.installed,
      Catalog.isSome_get?_foldl_markInstalled, List.mem_append]
    constructor
    · rintro (⟨hold, hentry⟩ | hnew)
      · exact ⟨.inl hold, hentry⟩
      · exact ⟨.inr hnew, hknown other hnew⟩
    · rintro ⟨hold | hnew, hentry⟩
      · exact .inl ⟨hold, hentry⟩
      · exact .inr hnew

omit [Backend σ] in
/-- Classes may change as long as they stay known and installed, or not. -/
theorem congr (h : Books c born taken) {after : Catalog} (hnext : after.next = c.next)
    (hinstalled : ∀ id, after.isInstalled id = c.isInstalled id)
    (hknown : ∀ id, (after.get? id).isSome = (c.get? id).isSome) : Books after born taken where
  issued := by rw [h.issued, Catalog.issued, Catalog.issued, hnext]
  nodup := h.nodup
  known := h.known
  installed id := by rw [hinstalled, hknown, h.installed]

omit [Backend σ] in
theorem defineFinalizer (h : Books c born taken) {id : ClassId} {tag : String} {after : Catalog}
    (hdefine : c.defineFinalizer id tag = .ok after) : Books after born taken := by
  have hinstalled := Catalog.isInstalled_defineFinalizer hdefine
  obtain ⟨-, rfl⟩ := Catalog.defineFinalizer_ok hdefine
  refine h.congr rfl hinstalled fun other ↦ ?_
  rw [Catalog.get?_modify]
  split
  · rw [Option.isSome_map]
  · rfl

omit [Backend σ] in
/-- Once every class is forgotten, none is installed, and no number is free again. -/
theorem clear (h : Books c born taken) : Books c.clear born taken where
  issued := h.issued
  nodup := h.nodup
  known := h.known
  installed id := by
    rw [Catalog.pristine_clear, Catalog.get?_clear]
    simp

end Books

/-- Only creating a class gives a number out. -/
theorem Books.of_recatalogs {op : Operation} {after : Catalog} {born taken done : List ClassId}
    (h : Books e.catalog born taken) (hlineal : e.catalog.Lineal) (hdone : Accepts e op done)
    (hcreate : ∀ name parent constructor, op ≠ .createClass name parent constructor)
    (hchange : Recatalogs e op after) : Books after born (taken ++ done) := by
  cases hchange with
  | same hnone =>
    cases hdone with
    | installing hs => cases hs.symm.trans (hnone _ rfl)
    | nothing => rwa [List.append_nil]
  | created => exact absurd rfl (hcreate _ _ _)
  | defined hdefine =>
    cases hdone
    rw [List.append_nil]
    exact h.defineFinalizer hdefine
  | installed hs hinstalling =>
    cases hdone with
    | installing hs' hdone =>
      rw [hs, Option.some.injEq] at hs'
      subst hs'
      rw [hdone.unique hinstalling]
      exact h.install hlineal hinstalling
    | nothing hnone => cases hs.symm.trans (hnone _ rfl)
  | cleared =>
    cases hdone
    rw [List.append_nil]
    exact h.clear

theorem Books.performSimple {op : Operation} {born taken done : List ClassId}
    (h : Books e.catalog born taken) (hlineal : e.catalog.Lineal) (hdone : Accepts e op done) :
    Books (performSimple op e).2.catalog (born ++ issuedBy op e) (taken ++ done) := by
  have hchange := recatalogs_performSimple hlineal op
  cases op with
  | createClass name parent constructor =>
    cases hdone
    rw [performSimple_createClass, issuedBy, createClass_eq, List.append_nil]
    cases hcreate : e.catalog.create name parent constructor with
    | error failure => simpa [Except.toOption] using h
    | ok created => exact h.create hcreate
  | _ =>
    rw [issuedBy, List.append_nil]
    · exact h.of_recatalogs hlineal hdone (by simp) hchange
    · simp

/-- The books of a run are in order. -/
theorem Enrolled.books {born taken : List ClassId} (h : Enrolled e born taken) :
    Books e.catalog born taken := by
  induction h with
  | created h =>
    obtain ⟨global, s, rfl⟩ := create_eq_ok h
    refine ⟨rfl, List.nodup_nil, by simp, fun id ↦ ?_⟩
    have hpristine : Catalog.empty.isInstalled id = false := Catalog.pristine_clear .empty id
    simp [hpristine]
  | operated h hdone ih => exact ih.performSimple h.reachable.lineal hdone
  | begun _ ih => exact ih
  | traced _ _ ih => exact ih
  | driven _ _ _ ih => exact ih

/-! ## One installation -/

theorem installClass_of_unknown {id : ClassId} (h : e.catalog.get? id = none) :
    installClass id e = (.error (.unknownClass id), e) := by
  change installAll (e.catalog.lineage id) e = _
  have hspec : e.catalog.spec? id = none := by rw [Catalog.spec?, h, Option.map_none]
  have hfresh : e.catalog.isInstalled id = false := by rw [Catalog.isInstalled, h, Option.any_none]
  rw [Catalog.lineage_of_unknown h, installAll, run_bind, installOne]
  simp only [run_bind, run_get, hfresh, hspec]
  rfl

/-- What an installation makes of what was missing: a part of it is accepted, in order, and is no
longer missing. -/
structure Resumes (e : Engine σ) (id : ClassId) (done : List ClassId)
    (ran : Except Failure Unit × Engine σ) : Prop where
  calls : (callsSince e ran.2).map some = ((e.catalog.missing id).take (done.length + 1)).map
    fun other ↦ (e.catalog.spec? other).map ClassSpec.call
  installed : ∀ other, ran.2.catalog.isInstalled other = true ↔
    e.catalog.isInstalled other = true ∨ other ∈ done
  split : e.catalog.missing id = done ++ ran.2.catalog.missing id
  complete : ran.1 = .ok () ↔ ran.2.catalog.missing id = []

theorem resumes_installClass {id : ClassId} {entry : ClassEntry} (hlineal : e.catalog.Lineal)
    (hknown : e.catalog.get? id = some entry) (hs : e.backend = some s) :
    ∃ done result s' events,
      Installing e.catalog.spec? (e.catalog.missing id) s done result s' events ∧
        installClass id e = (result, e.enrolled done s' events) ∧
        Resumes e id done (installClass id e) := by
  obtain ⟨done, result, s', events, hinstalling, hrun⟩ := installClass_eq hlineal hs id
  refine ⟨done, result, s', events, hinstalling, hrun, ?_⟩
  obtain ⟨rest, hsplit, hresult⟩ := hinstalling.split
  have hdone : ∀ other ∈ done, (e.catalog.get? other).isSome = true := by
    intro other hmem
    rw [← Catalog.isSome_spec?]
    exact hinstalling.isSome_spec hmem
  have hleft : (e.enrolled done s' events).catalog.missing id = rest :=
    hlineal.missing_foldl_markInstalled hsplit hdone
  rw [hrun]
  refine ⟨?_, fun other ↦ Catalog.isInstalled_foldl_markInstalled hdone, ?_, ?_⟩
  · have htrace : (e.enrolled done s' events).trace = e.trace ++ events := rfl
    rw [callsSince_eq htrace]
    apply hinstalling.calls
    intro other hmem
    obtain ⟨known, hother⟩ :=
      hlineal.known_of_mem_lineage hknown (Catalog.mem_missing.mp hmem).1
    rw [Catalog.isSome_spec?, hother]
    rfl
  · rw [hleft, hsplit]
  · rw [hleft, hresult]

/-- Every class descends from a root by older and older parents, whose names it has on record, and
every installed class has an installed parent. An installation asks the backend for what is missing
of the lineage, the root first, and marks what is accepted, so that the next one goes on with what
was refused; no other operation installs anything. Over a whole run no number is given out twice and
no class is accepted twice. -/
theorem installation_resumes (h : Reachable e) :
    (∀ id entry, e.catalog.get? id = some entry →
      (entry.parent = none → entry.spec.parent = none) ∧
      (∀ p, entry.parent = some p → p.index < id.index ∧
        ∃ known, e.catalog.get? p = some known ∧ entry.spec.parent = some known.spec.name) ∧
      e.catalog.Descends id (e.catalog.lineage id)) ∧
    e.catalog.Grounded ∧
    (∀ id, e.catalog.get? id = none → installClass id e = (.error (.unknownClass id), e)) ∧
    (∀ id entry, e.catalog.get? id = some entry → e.backend = none →
      installClass id e = (.error .notInitialized, e)) ∧
    (∀ id entry s, e.catalog.get? id = some entry → e.backend = some s →
      ∃ done result s' events,
        Installing e.catalog.spec? (e.catalog.missing id) s done result s' events ∧
          installClass id e = (result, e.enrolled done s' events) ∧
          Resumes e id done (installClass id e)) ∧
    (∀ op, (∀ id, op ≠ .installClass id) →
      ∀ call ∈ callsSince e (performSimple op e).2, call.isInstallation = false) ∧
    (∃ born taken, Enrolled e born taken) ∧
    ∀ born taken, Enrolled e born taken →
      born.Nodup ∧ born = e.catalog.issued ∧ taken.Nodup ∧ (∀ id ∈ taken, id ∈ born) ∧
      ∀ id, e.catalog.isInstalled id = true ↔ id ∈ taken ∧ (e.catalog.get? id).isSome = true := by
  have hlineal := h.lineal
  obtain ⟨hnamed, hgrounded⟩ := h.named_grounded
  refine ⟨fun id entry hentry ↦ ⟨fun hroot ↦ ?_, fun p hp ↦ ?_, hlineal.descends id⟩, hgrounded,
    fun id ↦ installClass_of_unknown, fun id entry hentry hnone ↦ ?_,
    fun id entry s hentry hs ↦ resumes_installClass hlineal hentry hs,
    fun op hop call hcall ↦ (makes_performSimple hop e).of_mem_callsSince hcall,
    h.exists_enrolled, fun born taken hrun ↦ ?_⟩
  · rw [hnamed id entry hentry, hroot, Option.bind_none]
  · obtain ⟨hlt, known, hknown⟩ := hlineal.parent hentry hp
    refine ⟨hlt, known, hknown, ?_⟩
    rw [hnamed id entry hentry, hp, Option.bind_some, Catalog.name?, hknown, Option.map_some]
  · have hover : e.isValid = false := by rw [h.wellFormed.isValid, hnone, Option.isSome_none]
    rw [installClass_of_none hnone hlineal (h.pristine hover), hentry]
    rfl
  · have hbooks := hrun.books
    exact ⟨hbooks.issued ▸ Catalog.nodup_issued _, hbooks.issued, hbooks.nodup, hbooks.known,
      hbooks.installed⟩

/-- A rehearsal with a class and its parent, where the next installation is refused. -/
def halted : Engine Rehearsal :=
  let e := performAll [.createClass "Base" none none, .createClass "Derived" (some ⟨0⟩) none]
    rehearsed
  { e with backend := e.backend.map (·.addFailure .installClass (.engine "refused")) }

/-- The parent is refused, so that both are missing as before. -/
theorem installation_resumes_halted :
    Reachable halted ∧ (installClass ⟨1⟩ halted).1 = .error (.engine "refused") ∧
      halted.catalog.Descends ⟨1⟩ [⟨0⟩, ⟨1⟩] ∧
      (installClass ⟨1⟩ halted).2.catalog.missing ⟨1⟩ = [⟨0⟩, ⟨1⟩] := by
  have hreachable : Reachable halted := (reachable_rehearsed.performAll _).moved (.drive rfl _)
  have hresult : (installClass ⟨1⟩ halted).1 = .error (.engine "refused") := rfl
  obtain ⟨hclasses, -, -, -, hinstall, -⟩ := installation_resumes hreachable
  obtain ⟨-, -, hdescends⟩ := hclasses ⟨1⟩ _ rfl
  obtain ⟨done, result, s', events, hinstalling, hrun, hresumes⟩ := hinstall ⟨1⟩ _ _ rfl rfl
  have hmissing : halted.catalog.missing ⟨1⟩ = [⟨0⟩, ⟨1⟩] := rfl
  refine ⟨hreachable, hresult, hdescends, ?_⟩
  rw [hmissing] at hinstalling
  cases hinstalling with
  | accepted hspec hok =>
    cases hspec
    cases hok
  | refused => exact hresumes.split.symm
  | unknown hspec => cases hspec

end Engine

end ScriptBridge
