import ScriptBridge.Proofs.Engine.Annals

/-!
# Annals are right

The catalog of an engine agrees with its annals, and so does the machine: a class has the finalizer
that was defined last, an attempt to install it was made with the finalizer that was on record then,
and every constructor of the machine goes back to one of the attempts. Only installations ask the
machine for constructors, so whatever else is done to an engine leaves those that there are.
-/

namespace ScriptBridge

open Script (Machine)
open Script.Machine (Advances Traced)

namespace Engine

variable {e e' first : Engine Machine} {deeds more newer older : List ClassDeed} {m m' : Machine}
  {specs : ClassId → Option ClassSpec} {ids done : List ClassId} {id : ClassId} {spec : ClassSpec}
  {result : Except Failure Unit} {events : List Event} {i : Installation} {c : Catalog}

/-! ## Attempts to install -/

theorem attemptsFor_accepted (hspec : specs id = some spec)
    (hok : (Backend.installClass spec m).result = .ok ()) (ids : List ClassId) :
    attemptsFor specs (id :: ids) m =
      attemptsFor specs ids (Backend.installClass spec m).state ++ [⟨some id, spec, m⟩] := by
  have hresult : (Installation.mk (some id) spec m).outcome.result = .ok () := hok
  rw [attemptsFor, hspec]
  dsimp only
  rw [hresult]
  rfl

theorem attemptsFor_refused (hspec : specs id = some spec) {failure : Failure}
    (hfailed : (Backend.installClass spec m).result = .error failure) (ids : List ClassId) :
    attemptsFor specs (id :: ids) m = [⟨some id, spec, m⟩] := by
  have hresult : (Installation.mk (some id) spec m).outcome.result = .error failure := hfailed
  rw [attemptsFor, hspec]
  dsimp only
  rw [hresult]

theorem attemptsFor_unknown (hspec : specs id = none) (ids : List ClassId) (m : Machine) :
    attemptsFor specs (id :: ids) m = [] := by
  rw [attemptsFor, hspec]

/-- What is installed class by class makes constructors by attempts. -/
theorem Installing.traced {known : List Installation}
    (h : Installing specs ids m done result m' events) (htraced : Traced known m) :
    Traced (attemptsFor specs ids m ++ known) m' := by
  induction h generalizing known with
  | finished => exact htraced
  | @accepted id rest _ m _ spec _ _ hspec hok _ ih =>
    rw [attemptsFor_accepted hspec hok, List.append_assoc]
    exact ih (htraced.install (some id) spec)
  | @refused id rest m spec failure hspec hfailed =>
    rw [attemptsFor_refused hspec hfailed]
    exact htraced.install (some id) spec
  | @unknown id rest m hspec =>
    rw [attemptsFor_unknown hspec]
    exact htraced

theorem Installing.accepted_attempts (h : Installing specs ids m done result m' events) :
    ((attemptsFor specs ids m).map ClassDeed.attempted).filterMap ClassDeed.accepted? =
      done.reverse := by
  induction h with
  | finished => rfl
  | @accepted id rest done m _ spec _ _ hspec hok _ ih =>
    have hthis : (ClassDeed.attempted ⟨some id, spec, m⟩).accepted? = some id := by
      have hresult : (Installation.mk (some id) spec m).outcome.result = .ok () := hok
      rw [ClassDeed.accepted?, hresult]
      rfl
    rw [attemptsFor_accepted hspec hok, List.map_append, List.filterMap_append, ih,
      List.reverse_cons, List.map_singleton, List.filterMap_cons_some hthis, List.filterMap_nil]
  | @refused id rest m spec failure hspec hfailed =>
    have hthis : (ClassDeed.attempted ⟨some id, spec, m⟩).accepted? = none := by
      have hresult : (Installation.mk (some id) spec m).outcome.result = .error failure := hfailed
      rw [ClassDeed.accepted?, hresult]
      rfl
    rw [attemptsFor_refused hspec hfailed, List.map_singleton, List.filterMap_cons_none hthis]
    rfl
  | unknown hspec =>
    rw [attemptsFor_unknown hspec]
    rfl

/-! ## What is on record for a class -/

@[simp]
theorem finalizer?_created (id other : ClassId) (name : String)
    (constructor : Option NativeConstructor) (deeds : List ClassDeed) :
    finalizer? id (.created other name constructor :: deeds) = finalizer? id deeds := rfl

@[simp]
theorem finalizer?_defined (id other : ClassId) (tag : String) (deeds : List ClassDeed) :
    finalizer? id (.defined other tag :: deeds) =
      if other = id then some tag else finalizer? id deeds := by
  unfold finalizer?
  rw [List.findSome?_cons, ClassDeed.tag?]
  split <;> simp_all

@[simp]
theorem finalizer?_attempted (id : ClassId) (i : Installation) (deeds : List ClassDeed) :
    finalizer? id (.attempted i :: deeds) = finalizer? id deeds := rfl

@[simp]
theorem finalizer?_map_attempted (id : ClassId) (is : List Installation)
    (deeds : List ClassDeed) :
    finalizer? id (is.map .attempted ++ deeds) = finalizer? id deeds := by
  induction is with
  | nil => rfl
  | cons i is ih => rw [List.map_cons, List.cons_append, finalizer?_attempted, ih]

theorem attempts_map_attempted (is : List Installation) (deeds : List ClassDeed) :
    attempts (is.map .attempted ++ deeds) = is ++ attempts deeds := by
  unfold attempts
  rw [List.filterMap_append, List.filterMap_map]
  exact congrArg (· ++ _) List.filterMap_some

/-- The classes of a catalog are as the annals tell. -/
structure Recorded (c : Catalog) (deeds : List ClassDeed) : Prop where
  created : ∀ ⦃id spec⦄, c.spec? id = some spec →
    .created id spec.name spec.constructor ∈ deeds
  finalizer : ∀ ⦃id spec⦄, c.spec? id = some spec → spec.finalizer = finalizer? id deeds
  /-- Nothing is on record for a class that is still to come. -/
  fresh : ∀ ⦃id⦄, c.next ≤ id.index → finalizer? id deeds = none

namespace Recorded

variable {after : Catalog}

theorem create (h : Recorded c deeds) {name : String} {parent : Option ClassId}
    {constructor : Option NativeConstructor}
    (hcreate : c.create name parent constructor = .ok (id, after)) :
    Recorded after (.created id name constructor :: deeds) := by
  obtain ⟨entry, rfl, rfl, -, -, hentry, -⟩ := Catalog.create_ok hcreate
  have hspec (other : ClassId) :
      (⟨c.classes.insert ⟨c.next⟩ entry, c.next + 1⟩ : Catalog).spec? other =
        if ⟨c.next⟩ = other then some entry.spec else c.spec? other := by
    rw [Catalog.spec?, Catalog.get?_insert]
    split <;> rfl
  refine ⟨fun other spec hother ↦ ?_, fun other spec hother ↦ ?_, fun other hlt ↦ ?_⟩
  · rw [hspec] at hother
    split at hother
    · next hid =>
      cases hother
      rw [hentry, hid]
      exact List.mem_cons_self
    · exact List.mem_cons_of_mem _ (h.created hother)
  · rw [finalizer?_created]
    rw [hspec] at hother
    split at hother
    · next hid =>
      cases hother
      rw [hentry, h.fresh (Nat.le_of_eq (congrArg ClassId.index hid))]
    · exact h.finalizer hother
  · rw [finalizer?_created]
    exact h.fresh (Nat.le_of_succ_le hlt)

theorem define (h : Recorded c deeds) (hlineal : c.Lineal) {tag : String}
    (hdefine : c.defineFinalizer id tag = .ok after) :
    Recorded after (.defined id tag :: deeds) := by
  have hspec := Catalog.spec?_defineFinalizer hdefine
  obtain ⟨⟨entry, hentry⟩, rfl⟩ := Catalog.defineFinalizer_ok hdefine
  refine ⟨fun other spec hother ↦ List.mem_cons_of_mem _ ?_, fun other spec hother ↦ ?_,
    fun other hlt ↦ ?_⟩
  · rw [hspec] at hother
    split at hother
    · obtain ⟨before, hbefore, rfl⟩ := Option.map_eq_some_iff.mp hother
      have hcreated := h.created hbefore
      exact hcreated
    · exact h.created hother
  · rw [finalizer?_defined]
    rw [hspec] at hother
    split at hother
    · next hid =>
      obtain ⟨before, -, rfl⟩ := Option.map_eq_some_iff.mp hother
      rw [if_pos hid]
    · next hid =>
      rw [if_neg hid]
      exact h.finalizer hother
  · have hne : id ≠ other := by
      rintro rfl
      exact Nat.not_le.mpr (hlineal.index_lt hentry) hlt
    rw [finalizer?_defined, if_neg hne]
    exact h.fresh hlt

/-- Marking classes and attempting to install them leaves specifications alone. -/
theorem attempt (h : Recorded c deeds) (hspec : after.spec? = c.spec?) (hnext : after.next = c.next)
    (is : List Installation) : Recorded after (is.map .attempted ++ deeds) where
  created id spec hid := List.mem_append_right _ (h.created (hspec ▸ hid))
  finalizer id spec hid := by
    rw [finalizer?_map_attempted]
    exact h.finalizer (hspec ▸ hid)
  fresh id hlt := by
    rw [finalizer?_map_attempted]
    exact h.fresh (hnext ▸ hlt)

/-- Once every class is forgotten, what is on record is still so. -/
theorem clear (hfresh : ∀ ⦃id⦄, c.next ≤ id.index → finalizer? id deeds = none) :
    Recorded c.clear deeds := by
  have hunknown (id : ClassId) : c.clear.spec? id = none := by
    rw [Catalog.spec?, Catalog.get?_clear, Option.map_none]
  refine ⟨fun id spec hid ↦ ?_, fun id spec hid ↦ ?_, hfresh⟩
  · cases (hunknown id).symm.trans hid
  · cases (hunknown id).symm.trans hid

end Recorded

/-- An attempt to install a class was made with what was on record for the class, on a machine with
the constructors that are on record. -/
structure Attests (deeds : List ClassDeed) (i : Installation) : Prop where
  recorded : ∀ id, i.id = some id → .created id i.spec.name i.spec.constructor ∈ deeds ∧
    i.spec.finalizer = finalizer? id deeds
  traced : Traced (attempts deeds) i.found

/-- Every attempt to install a class was made with what was on record then. -/
inductive Attested : List ClassDeed → Prop
  | nil : Attested []
  | cons {deed : ClassDeed} {deeds : List ClassDeed} (h : Attested deeds)
    (hdeed : ∀ i, deed = .attempted i → Attests deeds i) : Attested (deed :: deeds)

theorem Attested.split (h : Attested (newer ++ .attempted i :: older)) : Attests older i := by
  induction newer with
  | nil =>
    cases h with
    | cons _ hdeed => exact hdeed i rfl
  | cons deed newer ih =>
    cases h with
    | cons h => exact ih h

/-- Classes that are installed in order are installed with what is on record. -/
theorem Attested.attempts (h : Attested deeds)
    (hspecs : ∀ id spec, specs id = some spec → .created id spec.name spec.constructor ∈ deeds ∧
      spec.finalizer = finalizer? id deeds) (ids : List ClassId)
    (htraced : Traced (attempts deeds) m) :
    Attested ((attemptsFor specs ids m).map .attempted ++ deeds) := by
  induction ids generalizing m deeds with
  | nil => exact h
  | cons id ids ih =>
    cases hspec : specs id with
    | none =>
      rw [attemptsFor_unknown hspec]
      exact h
    | some spec =>
      have hattempt : Attested (.attempted ⟨some id, spec, m⟩ :: deeds) := by
        refine .cons h ?_
        rintro _ ⟨⟩
        refine ⟨?_, htraced⟩
        rintro _ ⟨⟩
        exact hspecs id spec hspec
      cases hresult : (Backend.installClass spec m).result with
      | error failure =>
        rw [attemptsFor_refused hspec hresult]
        exact hattempt
      | ok =>
        rw [attemptsFor_accepted hspec hresult, List.map_append, List.append_assoc]
        refine ih hattempt (fun other spec hother ↦ ?_) (htraced.install (some id) spec)
        obtain ⟨hcreated, hfinalizer⟩ := hspecs other spec hother
        exact ⟨List.mem_cons_of_mem _ hcreated, hfinalizer⟩

/-- What is no attempt may be added. -/
theorem Attested.others (h : Attested deeds) (hmore : ∀ deed ∈ more, deed.attempted? = none) :
    Attested (more ++ deeds) := by
  induction more with
  | nil => exact h
  | cons deed more ih =>
    obtain ⟨hdeed, hmore⟩ := List.forall_mem_cons.mp hmore
    refine .cons (ih hmore) fun i hattempt ↦ ?_
    rw [hattempt] at hdeed
    cases hdeed

theorem accepted?_of_attempted? {deed : ClassDeed} (h : deed.attempted? = none) :
    deed.accepted? = none := by
  cases deed with
  | attempted i => cases h
  | created | defined => rfl

/-- Only an installation is on record as attempts. -/
theorem attempted?_deedsOf {op : Operation} (hop : ∀ id, op ≠ .installClass id)
    (e : Engine Machine) : ∀ deed ∈ deedsOf op e, deed.attempted? = none := by
  cases op with
  | installClass id => exact absurd rfl (hop id)
  | createClass name parent constructor =>
    rw [deedsOf]
    cases e.catalog.create name parent constructor <;> simp [ClassDeed.attempted?]
  | defineFinalizer id tag =>
    rw [deedsOf]
    cases e.catalog.defineFinalizer id tag <;> simp [ClassDeed.attempted?]
  | _ => exact List.forall_mem_nil _

theorem attempts_append_others (hmore : ∀ deed ∈ more, deed.attempted? = none) :
    attempts (more ++ deeds) = attempts deeds := by
  rw [attempts, List.filterMap_append, List.filterMap_eq_nil_iff.mpr hmore]
  rfl

/-! ## Requests that make no constructor -/

/-- A request of an engine that is not to install a class makes no constructor. -/
theorem Served.advances {call : Call} {notices : List Notice} (h : Served call m m' notices)
    (hcall : call.isInstallation = false) (hm : m.Steady) :
    ∃ exchanges, m'.Steady ∧ Advances [] m exchanges m' := by
  cases h with
  | takePending => exact ⟨_, hm.takePending⟩
  | createObject =>
    exact ⟨_, hm.whileOpen (fun r ↦ Exchange.ofResult (r.map .object))
      (fun _ ↦ .refl m) hm.createObject⟩
  | getProperty target key =>
    exact ⟨_, hm.whileOpen Exchange.ofResult (fun _ ↦ .refl m)
      (hm.getProperty · target key)⟩
  | setProperty target key value =>
    exact ⟨_, hm.whileOpen_plain (hm.setProperty · target key value)⟩
  | root k => exact ⟨_, hm.whileOpen (Exchange.ofRooting k) (fun _ ↦ .refl m) (hm.root · k)⟩
  | unroot k => exact ⟨_, hm.whileOpen_unroot k⟩
  | release k => exact ⟨_, hm.release k⟩
  | attachChild owner child => exact ⟨_, hm.whileOpen_plain (hm.attachChild · owner child)⟩
  | detachChild owner child => exact ⟨_, hm.whileOpen_plain (hm.detachChild · owner child)⟩
  | setPrivateData k payload => exact ⟨_, hm.whileOpen_plain (hm.setPrivateData · k payload)⟩
  | installClass => cases hcall

/-- Where nothing is to be installed, the machine of an engine makes no constructor. -/
theorem Works.advances (h : Works e e') (htrace : e'.trace = e.trace ++ events)
    (hcalls : ∀ call ∈ callsOf events, call.isInstallation = false) (hbackend : e.backend = some m)
    (hm : m.Steady) :
    ∃ m' exchanges, e'.backend = some m' ∧ m'.Steady ∧ Advances [] m exchanges m' := by
  induction h generalizing m events with
  | apart h => exact ⟨m, [], h.backend.trans hbackend, hm, .refl m⟩
  | @heard _ e s call o hs hcall =>
    obtain rfl := Option.some.inj (hs.symm.trans hbackend)
    have hthis : .call call :: o.events.map Notice.event = events := List.append_cancel_left htrace
    have hasked : call ∈ callsOf events := by
      rw [← hthis, callsOf_call]
      exact List.mem_cons_self
    obtain ⟨exchanges, hsteady, hadvances⟩ := hcall.advances (hcalls call hasked) hm
    exact ⟨_, exchanges, rfl, hsteady, hadvances⟩
  | @evaluated e s hs source file =>
    obtain rfl := Option.some.inj (hs.symm.trans hbackend)
    obtain ⟨notices, waived, events, hcarried, -, -⟩ :=
      carried_run e.inCleanup (Backend.evaluate source file s) e.registry
        (e.trace ++ [.call (.evaluate source file)])
    obtain ⟨hsteady, hadvances, -⟩ := hm.evaluate hcarried
    exact ⟨_, _, rfl, hsteady, hadvances⟩
  | @collected e s hs =>
    obtain rfl := Option.some.inj (hs.symm.trans hbackend)
    obtain ⟨notices, waived, events, hcarried, -, -⟩ :=
      carried_run e.inCleanup (Backend.collect s) e.registry (e.trace ++ [.call .collect])
    obtain ⟨hsteady, hadvances⟩ := hm.collect hcarried
    exact ⟨_, _, rfl, hsteady, hadvances⟩
  | trans hfirst hsecond first second =>
    obtain ⟨events₁, htrace₁, -⟩ := hfirst.calm
    obtain ⟨events₂, htrace₂, -⟩ := hsecond.calm
    obtain rfl : events = events₁ ++ events₂ := by
      refine List.append_cancel_left (htrace.symm.trans ?_)
      rw [htrace₂, htrace₁, List.append_assoc]
    rw [callsOf_append, List.forall_mem_append] at hcalls
    obtain ⟨m₁, exchanges₁, hbackend₁, hm₁, hadvances₁⟩ := first htrace₁ hcalls.1 hbackend hm
    obtain ⟨m₂, exchanges₂, hbackend₂, hm₂, hadvances₂⟩ := second htrace₂ hcalls.2 hbackend₁ hm₁
    exact ⟨m₂, _, hbackend₂, hm₂, hadvances₁.trans hadvances₂⟩

/-! ## The annals are right -/

/-- The classes of an engine, and the constructors of its machine, are as the annals tell. -/
structure Annotated (e : Engine Machine) (deeds : List ClassDeed) : Prop where
  reachable : Reachable e
  recorded : Recorded e.catalog deeds
  attested : Attested deeds
  traced : ∀ m, e.backend = some m → Traced (attempts deeds) m

theorem annotated_fresh {config : Config} (h : Session.createScripting config = (.ok e, events)) :
    Annotated e [] := by
  obtain ⟨m, hm, hbackend, -, hcreate⟩ := Script.Machine.createScripting_ok h
  obtain rfl := Script.Machine.create_eq hm
  refine ⟨.created hcreate, ?_, .nil, fun m hm ↦ ?_⟩
  · obtain ⟨global, s, rfl⟩ := create_eq_ok hcreate
    have hempty : Recorded Catalog.empty.clear [] := Recorded.clear fun _ _ ↦ rfl
    exact hempty
  · obtain rfl := Option.some.inj (hbackend.symm.trans hm)
    exact Script.Machine.traced_machine _

namespace Annotated

/-- Only installations make constructors. -/
theorem traced_other (h : Annotated e deeds) {op : Operation} (hop : ∀ id, op ≠ .installClass id)
    (hm' : (performSimple op e).2.backend = some m') : Traced (attempts deeds) m' := by
  by_cases hcleanup : op = .cleanup
  · subst hcleanup
    rw [performSimple, run_return, run_surely] at hm'
    cases hvalid : e.isValid with
    | true =>
      rw [(cleanup_of_valid hvalid).backend] at hm'
      cases hm'
    | false =>
      rw [cleanup_of_invalid hvalid] at hm'
      exact h.traced m' hm'
  · have hworks := works_performSimple hcleanup e
    cases hm : e.backend with
    | none =>
      rw [(hworks.silent hm).1] at hm'
      cases hm'
    | some m =>
      have htraced := h.traced m hm
      obtain ⟨events, htrace, hcalls⟩ := makes_performSimple hop e
      obtain ⟨after, exchanges, hafter, hsteady, hadvances⟩ :=
        hworks.advances htrace hcalls hm htraced.steady
      obtain rfl := Option.some.inj (hafter.symm.trans hm')
      exact htraced.advances hsteady hadvances

theorem recorded_other (h : Annotated e deeds) {op : Operation}
    (hop : ∀ id, op ≠ .installClass id) :
    Recorded (performSimple op e).2.catalog (deedsOf op e ++ deeds) := by
  have hlineal := h.reachable.lineal
  have hchange := recatalogs_performSimple hlineal op
  cases op with
  | installClass id => exact absurd rfl (hop id)
  | createClass name parent constructor =>
    rw [performSimple_createClass, deedsOf]
    cases hcreate : e.catalog.create name parent constructor with
    | error failure => exact h.recorded
    | ok created => exact h.recorded.create hcreate
  | defineFinalizer id tag =>
    rw [performSimple_defineFinalizer, deedsOf]
    cases hdefine : e.catalog.defineFinalizer id tag with
    | error failure => exact h.recorded
    | ok after => exact h.recorded.define hlineal hdefine
  | cleanup =>
    generalize (performSimple _ e).2.catalog = after at hchange
    cases hchange with
    | same => exact h.recorded
    | cleared => exact .clear h.recorded.fresh
  | _ =>
    generalize (performSimple _ e).2.catalog = after at hchange
    cases hchange with
    | same => exact h.recorded

/-- An installation is on record as the attempts that it makes. -/
theorem install (h : Annotated e deeds) (id : ClassId) :
    Annotated (performSimple (.installClass id) e).2 (deedsOf (.installClass id) e ++ deeds) := by
  have hreachable := h.reachable.moved (.operate (.installClass id) e)
  have hlineal := h.reachable.lineal
  cases hm : e.backend with
  | none =>
    have hnone : deedsOf (.installClass id) e = [] := by rw [deedsOf, hm]
    have hchange := recatalogs_performSimple hlineal (.installClass id)
    have hop : Operation.installClass id ≠ .cleanup := by rintro ⟨⟩
    obtain ⟨hover, -⟩ := (works_performSimple hop e).silent hm
    rw [hnone, List.nil_append]
    refine ⟨hreachable, ?_, h.attested, fun m' hm' ↦ by cases hover.symm.trans hm'⟩
    generalize (performSimple _ e).2.catalog = after at hchange
    cases hchange with
    | same => exact h.recorded
    | installed hs => cases hm.symm.trans hs
  | some m =>
    obtain ⟨done, result, m', events, hinstalling, hrun⟩ := installClass_eq hlineal hm id
    have hdeeds : deedsOf (.installClass id) e =
        (attemptsFor e.catalog.spec? (e.catalog.missing id) m).map .attempted := by
      rw [deedsOf, hm]
    rw [performSimple, run_return, hrun] at hreachable ⊢
    rw [hdeeds]
    refine ⟨hreachable, h.recorded.attempt (Catalog.spec?_foldl_markInstalled done e.catalog)
      (Catalog.next_foldl_markInstalled done e.catalog) _,
      h.attested.attempts (fun other spec hother ↦
        ⟨h.recorded.created hother, h.recorded.finalizer hother⟩) _ (h.traced m hm),
      fun after hafter ↦ ?_⟩
    obtain rfl := Option.some.inj hafter
    rw [attempts_map_attempted]
    exact hinstalling.traced (h.traced m hm)

theorem operate (h : Annotated e deeds) (op : Operation) :
    Annotated (performSimple op e).2 (deedsOf op e ++ deeds) := by
  by_cases hop : ∃ id, op = .installClass id
  · obtain ⟨id, rfl⟩ := hop
    exact h.install id
  · have hreachable := h.reachable.moved (.operate op e)
    have hother : ∀ id, op ≠ .installClass id := fun id heq ↦ hop ⟨id, heq⟩
    have hnone := attempted?_deedsOf hother e
    refine ⟨hreachable, h.recorded_other hother, h.attested.others hnone, fun m' hm' ↦ ?_⟩
    rw [attempts_append_others hnone]
    exact h.traced_other hother hm'

theorem turn (h : Annotated e deeds) (hturn : Turn e more e') : Annotated e' (more ++ deeds) := by
  have hreachable := h.reachable.moves hturn.moves
  cases hturn with
  | operate op => exact h.operate op
  | begin => exact ⟨hreachable, h.recorded, h.attested, h.traced⟩
  | trace => exact ⟨hreachable, h.recorded, h.attested, h.traced⟩
  | @use _ m m' exchanges hm hdealing hmakes =>
    refine ⟨hreachable, h.recorded, h.attested, fun after hafter ↦ ?_⟩
    obtain rfl := Option.some.inj hafter
    have htraced := h.traced m hm
    obtain ⟨hsteady, made, hadvances, -⟩ := htraced.steady.dealing hdealing
    exact htraced.advances hsteady { hadvances with makes := hmakes }
  | @lend _ m hm spec =>
    have htraced := h.traced m hm
    refine ⟨hreachable, h.recorded.attempt rfl rfl [⟨none, spec, m⟩], .cons h.attested ?_,
      fun after hafter ↦ ?_⟩
    · rintro _ ⟨⟩
      refine ⟨?_, htraced⟩
      rintro _ ⟨⟩
    · obtain rfl := Option.some.inj hafter
      exact htraced.install none spec

end Annotated

theorem Annals.annotated (h : Annals first deeds e) {config : Config}
    (hcreate : Session.createScripting config = (.ok first, events)) : Annotated e deeds := by
  induction h with
  | refl => exact annotated_fresh hcreate
  | tail _ hturn ih => exact ih.turn hturn

/-! ## No class is accepted twice -/

theorem created_deedsOf (op : Operation) (e : Engine Machine) :
    ((deedsOf op e).filterMap ClassDeed.created?).reverse = issuedBy op e := by
  cases op with
  | createClass name parent constructor =>
    rw [deedsOf, issuedBy, createClass_eq]
    cases e.catalog.create name parent constructor with
    | ok created => rfl
    | error failure => rfl
  | defineFinalizer id tag =>
    rw [deedsOf]
    cases e.catalog.defineFinalizer id tag <;> rfl
  | installClass id =>
    rw [deedsOf]
    cases e.backend with
    | none => rfl
    | some m =>
      refine congrArg List.reverse (List.filterMap_eq_nil_iff.mpr fun deed hdeed ↦ ?_)
      obtain ⟨i, -, rfl⟩ := List.mem_map.mp hdeed
      rfl
  | _ => rfl

theorem accepts_deedsOf (h : Reachable e) (op : Operation) :
    Accepts e op ((deedsOf op e).filterMap ClassDeed.accepted?).reverse := by
  by_cases hop : ∃ id, op = .installClass id
  · obtain ⟨id, rfl⟩ := hop
    rw [deedsOf]
    cases hm : e.backend with
    | none => exact .nothing fun _ _ ↦ hm
    | some m =>
      obtain ⟨done, result, m', events, hinstalling, -⟩ := installClass_eq h.lineal hm id
      rw [hinstalling.accepted_attempts, List.reverse_reverse]
      exact .installing hm hinstalling
  · have hother : ∀ id, op ≠ .installClass id := fun id heq ↦ hop ⟨id, heq⟩
    rw [List.filterMap_eq_nil_iff.mpr fun deed hdeed ↦
      accepted?_of_attempted? (attempted?_deedsOf hother e deed hdeed)]
    exact .nothing fun id heq ↦ absurd heq (hother id)

/-- The annals tell which numbers were given out and which classes were accepted. -/
theorem Annals.enrolled (h : Annals first deeds e) {config : Config}
    (hcreate : Session.createScripting config = (.ok first, events)) :
    Enrolled e (deeds.filterMap ClassDeed.created?).reverse
      (deeds.filterMap ClassDeed.accepted?).reverse := by
  induction h with
  | refl =>
    obtain ⟨m, -, -, -, hcreate⟩ := Script.Machine.createScripting_ok hcreate
    exact .created hcreate
  | tail _ hturn ih =>
    rw [List.filterMap_append, List.filterMap_append, List.reverse_append, List.reverse_append]
    cases hturn with
    | operate op =>
      rw [created_deedsOf]
      exact ih.operated (accepts_deedsOf ih.reachable op)
    | begin =>
      have hbegun : Enrolled (taken _) _ _ := ih.begun
      simpa using hbegun
    | trace _ events => simpa using ih.traced events
    | use hm => simpa using ih.driven hm _
    | @lend _ m hm spec =>
      have hcreated : (ClassDeed.attempted ⟨none, spec, m⟩).created? = none := rfl
      have haccepted : (ClassDeed.attempted ⟨none, spec, m⟩).accepted? = none := by
        rw [ClassDeed.accepted?]
        split <;> rfl
      simpa [hcreated, haccepted] using ih.driven hm (Backend.installClass spec m).state

end Engine

end ScriptBridge
