import ScriptBridge.Proofs.Engine.Resuming
import ScriptBridge.Proofs.Script.Closing
import ScriptBridge.Proofs.Script.Inheriting

/-!
# Whose prototype stands behind a class

A class knows its parent by a number, but the backend is told the name of the parent. Over a script
machine on which nothing but classes has been installed, the name leads to the class of that name
that was installed last. That is the parent if no other class of its name was installed in between,
and another class otherwise.
-/

namespace ScriptBridge

open Script (Machine ObjectId)
open Script.Machine (Edition Displays Standing latest? behind?)

/-- A class that was installed, and the machine as it was before. -/
structure Founding where
  id : ClassId
  spec : ClassSpec
  found : Machine

namespace Founding

/-- The prototype that was made for the instances of the class. -/
def prototype (f : Founding) : ObjectId := f.found.fresh

/-- The constructor that was made after it. -/
def constructor (f : Founding) : ObjectId := ⟨f.found.nextObject + 1⟩

def edition (f : Founding) : Edition := ⟨f.spec, f.prototype, f.constructor⟩

end Founding

namespace Engine

/-- The classes that a machine accepts one after the other, up to the first that it refuses. The
list begins with the latest. -/
def foundings (specs : ClassId → Option ClassSpec) : List ClassId → Machine → List Founding
  | [], _ => []
  | id :: rest, m =>
    match specs id with
    | none => []
    | some spec =>
      match (Backend.installClass spec m).result with
      | .error _ => []
      | .ok _ => foundings specs rest (Backend.installClass spec m).state ++ [⟨id, spec, m⟩]

/-- The classes that are installed together with a class. -/
def founds (id : ClassId) (e : Engine Machine) : List Founding :=
  match e.backend with
  | none => []
  | some m => foundings e.catalog.spec? (e.catalog.missing id) m

/-- A run of creations and installations from a new engine on, with the classes that were installed.
The list begins with the latest. -/
inductive Founded : Engine Machine → List Founding → Prop
  | fresh {config : Config} {e : Engine Machine} {events : List Event}
    (h : Session.createScripting config = (.ok e, events)) : Founded e []
  | created {e : Engine Machine} {fs : List Founding} (h : Founded e fs) (name : String)
    (parent : Option ClassId) (constructor : Option NativeConstructor) :
    Founded (performSimple (.createClass name parent constructor) e).2 fs
  | installed {e : Engine Machine} {fs : List Founding} (h : Founded e fs) (id : ClassId) :
    Founded (performSimple (.installClass id) e).2 (founds id e ++ fs)

variable {e : Engine Machine} {fs newer older : List Founding} {f : Founding} {m m' : Machine}
  {c after : Catalog} {id p : ClassId} {spec : ClassSpec} {ids done : List ClassId} {name : String}
  {result : Except Failure Unit} {events : List Event}

/-! ## Machines on which classes were installed -/

/-- Every class comes after its parent. -/
inductive Rooted (c : Catalog) : List Founding → Prop
  | nil : Rooted c []
  | cons {f : Founding} {fs : List Founding} (h : Rooted c fs)
    (hparent : ∀ p, c.parent? f.id = some p → p ∈ fs.map Founding.id) : Rooted c (f :: fs)

theorem Rooted.split (h : Rooted c (newer ++ f :: older)) (hp : c.parent? f.id = some p) :
    p ∈ older.map Founding.id := by
  induction newer with
  | nil =>
    cases h with
    | cons _ hparent => exact hparent p hp
  | cons first newer ih =>
    cases h with
    | cons h => exact ih h

theorem Rooted.congr (h : Rooted c fs) (hparent : ∀ f ∈ fs, after.parent? f.id = c.parent? f.id) :
    Rooted after fs := by
  induction h with
  | nil => exact .nil
  | cons _ hold ih =>
    obtain ⟨hfirst, hrest⟩ := List.forall_mem_cons.mp hparent
    exact .cons (ih hrest) fun p hp ↦ hold p (hfirst ▸ hp)

/-- Classes were installed on a machine as they stand in a catalog. -/
structure Peopled (c : Catalog) (m : Machine) (fs : List Founding) : Prop where
  steady : m.Steady
  displays : Displays m (fs.map Founding.edition)
  specs : ∀ f ∈ fs, c.spec? f.id = some f.spec
  rooted : Rooted c fs
  nodup : (fs.map Founding.id).Nodup

theorem Peopled.of_catalog (h : Peopled c m fs)
    (hspec : ∀ f ∈ fs, after.spec? f.id = c.spec? f.id)
    (hparent : ∀ f ∈ fs, after.parent? f.id = c.parent? f.id) : Peopled after m fs where
  steady := h.steady
  displays := h.displays
  specs f hf := (hspec f hf).trans (h.specs f hf)
  rooted := h.rooted.congr hparent
  nodup := h.nodup

theorem latest?_map (fs : List Founding) (name : String) : latest? (fs.map Founding.edition) name =
    (fs.find? fun f ↦ f.spec.name = name).map Founding.edition :=
  List.find?_map ..

theorem parent_of_spec? (hnamed : c.Named) (hspec : c.spec? id = some spec) :
    spec.parent = (c.parent? id).bind c.name? := by
  obtain ⟨entry, hentry, rfl⟩ := Option.map_eq_some_iff.mp hspec
  rw [hnamed id entry hentry, Catalog.parent?, hentry, Option.bind_some]

theorem name?_of_spec? (hspec : c.spec? id = some spec) : c.name? id = some spec.name := by
  obtain ⟨entry, hentry, rfl⟩ := Option.map_eq_some_iff.mp hspec
  rw [Catalog.name?, hentry, Option.map_some]

/-- What is to stand behind a class whose parent is installed is there. -/
theorem Peopled.exists_behind (h : Peopled c m fs) (hnamed : c.Named)
    (hspec : c.spec? id = some spec)
    (hparent : ∀ p, c.parent? id = some p → p ∈ fs.map Founding.id) :
    ∃ behind, behind? (fs.map Founding.edition) spec = some behind := by
  have hname := parent_of_spec? hnamed hspec
  cases hp : c.parent? id with
  | none =>
    rw [hp, Option.bind_none] at hname
    exact ⟨_, by rw [behind?, hname]⟩
  | some p =>
    obtain ⟨f, hf, rfl⟩ := List.mem_map.mp (hparent p hp)
    rw [hp, Option.bind_some, name?_of_spec? (h.specs f hf)] at hname
    have hfound : (fs.find? fun other ↦ other.spec.name = f.spec.name).isSome = true :=
      List.find?_isSome.mpr ⟨f, hf, by simp⟩
    obtain ⟨latest, hlatest⟩ := Option.isSome_iff_exists.mp hfound
    exact ⟨latest.prototype, by simp [behind?, hname, latest?_map, hlatest, Founding.edition]⟩

/-- A class that the machine accepts is added. -/
theorem Peopled.found (h : Peopled c m fs) (hnamed : c.Named) (hspec : c.spec? id = some spec)
    (hnew : id ∉ fs.map Founding.id)
    (hparent : ∀ p, c.parent? id = some p → p ∈ fs.map Founding.id)
    (hok : (Backend.installClass spec m).result = .ok ()) :
    Peopled c (Backend.installClass spec m).state (⟨id, spec, m⟩ :: fs) := by
  obtain ⟨behind, hbehind⟩ := h.exists_behind hnamed hspec hparent
  have hopen := h.steady.isOpen_of_mem h.displays.mem_global
  have hsteady := (h.steady.dealing (.installClass spec m)).1
  rcases h.displays.installClass h.steady hopen hbehind with ⟨-, hdisplays⟩ | ⟨hfailed, -⟩
  · exact ⟨hsteady, hdisplays, List.forall_mem_cons.mpr ⟨hspec, h.specs⟩, .cons h.rooted hparent,
      List.nodup_cons.mpr ⟨hnew, h.nodup⟩⟩
  · cases hok.symm.trans hfailed

/-- Whatever becomes of a class, the others stay. -/
theorem Peopled.refused (h : Peopled c m fs) (hnamed : c.Named) (hspec : c.spec? id = some spec)
    (hparent : ∀ p, c.parent? id = some p → p ∈ fs.map Founding.id) {failure : Failure}
    (hfailed : (Backend.installClass spec m).result = .error failure) :
    Peopled c (Backend.installClass spec m).state fs := by
  obtain ⟨behind, hbehind⟩ := h.exists_behind hnamed hspec hparent
  have hopen := h.steady.isOpen_of_mem h.displays.mem_global
  have hsteady := (h.steady.dealing (.installClass spec m)).1
  rcases h.displays.installClass h.steady hopen hbehind with ⟨hok, -⟩ | ⟨-, -, hdisplays⟩
  · cases hfailed.symm.trans hok
  · exact ⟨hsteady, hdisplays, h.specs, h.rooted, h.nodup⟩

/-- Classes that are installed in order are added one by one. -/
theorem Peopled.foundings (h : Peopled c m fs) (hnamed : c.Named) (hnodup : ids.Nodup)
    (hnew : ∀ id ∈ ids, id ∉ fs.map Founding.id)
    (hparents : ∀ before id after, ids = before ++ id :: after → ∀ p, c.parent? id = some p →
      p ∈ fs.map Founding.id ∨ p ∈ before)
    (hinstalling : Installing c.spec? ids m done result m' events) :
    Peopled c m' (foundings c.spec? ids m ++ fs) ∧
      (foundings c.spec? ids m).map Founding.id = done.reverse := by
  induction hinstalling generalizing fs with
  | finished => exact ⟨h, rfl⟩
  | @accepted id rest done m m' spec result events hspec hok hrest ih =>
    obtain ⟨hfresh, hnodup⟩ := List.nodup_cons.mp hnodup
    have hparent (p : ClassId) (hp : c.parent? id = some p) : p ∈ fs.map Founding.id := by
      simpa using hparents [] id rest rfl p hp
    have hfound := h.found hnamed hspec (hnew id List.mem_cons_self) hparent hok
    have hlater : ∀ other ∈ rest,
      other ∉ (⟨id, spec, m⟩ :: fs : List Founding).map Founding.id := by
      intro other hmem hin
      rcases List.mem_cons.mp hin with rfl | hold
      · exact hfresh hmem
      · exact hnew other (List.mem_cons_of_mem _ hmem) hold
    obtain ⟨hpeopled, hids⟩ := ih hfound hnodup hlater fun before other after hsplit p hp ↦ by
      rcases hparents (id :: before) other after (congrArg (id :: ·) hsplit) p hp with hold | hin
      · exact .inl (List.mem_cons_of_mem _ hold)
      · rcases List.mem_cons.mp hin with rfl | hin
        · exact .inl List.mem_cons_self
        · exact .inr hin
    have hunfold : Engine.foundings c.spec? (id :: rest) m =
        Engine.foundings c.spec? rest (Backend.installClass spec m).state ++ [⟨id, spec, m⟩] := by
      rw [Engine.foundings, hspec]
      dsimp only
      rw [hok]
    rw [hunfold, List.append_assoc, List.map_append, hids, List.reverse_cons]
    exact ⟨hpeopled, rfl⟩
  | @refused id rest m spec failure hspec hfailed =>
    have hunfold : Engine.foundings c.spec? (id :: rest) m = [] := by
      rw [Engine.foundings, hspec]
      dsimp only
      rw [hfailed]
    rw [hunfold]
    refine ⟨h.refused hnamed hspec (fun p hp ↦ ?_) hfailed, rfl⟩
    simpa using hparents [] id rest rfl p hp
  | unknown hspec =>
    rw [Engine.foundings, hspec]
    exact ⟨h, rfl⟩

/-! ## Engines on which classes were installed -/

/-- The machine of an engine has the classes on display that the engine has installed. -/
structure Settled (e : Engine Machine) (fs : List Founding) (m : Machine) : Prop where
  reachable : Reachable e
  backend : e.backend = some m
  peopled : Peopled e.catalog m fs
  installed : ∀ id, e.catalog.isInstalled id = true ↔ id ∈ fs.map Founding.id

theorem founds_of_backend (hm : e.backend = some m) (id : ClassId) :
    founds id e = Engine.foundings e.catalog.spec? (e.catalog.missing id) m := by
  rw [founds, hm]

theorem settled_fresh {config : Config} (h : Session.createScripting config = (.ok e, events)) :
    ∃ m, Settled e [] m := by
  obtain ⟨m, hm, hbackend, -, hcreate⟩ := Script.Machine.createScripting_ok h
  obtain rfl := Script.Machine.create_eq hm
  have hreachable : Reachable e := .created hcreate
  obtain ⟨global, s, rfl⟩ := create_eq_ok hcreate
  refine ⟨_, hreachable, hbackend,
    ⟨Script.Machine.steady_machine _, Script.Machine.displays_machine _,
    List.forall_mem_nil _, .nil, List.nodup_nil⟩, fun id ↦ ?_⟩
  have hpristine : Catalog.empty.isInstalled id = false := Catalog.pristine_clear .empty id
  simp [hpristine]

/-- A new class is not installed, and changes nothing about the others. -/
theorem Settled.created (h : Settled e fs m) (name : String) (parent : Option ClassId)
    (constructor : Option NativeConstructor) :
    Settled (performSimple (.createClass name parent constructor) e).2 fs m := by
  have hreachable := h.reachable.moved (.operate (.createClass name parent constructor) e)
  have hlineal := h.reachable.lineal
  rw [performSimple_createClass] at hreachable ⊢
  cases hcreate : e.catalog.create name parent constructor with
  | error failure => exact h
  | ok created =>
    rw [hcreate] at hreachable
    obtain ⟨id, after⟩ := created
    obtain ⟨entry, rfl, rfl, -, hfresh, -, -⟩ := Catalog.create_ok hcreate
    let after : Catalog :=
      ⟨e.catalog.classes.insert ⟨e.catalog.next⟩ entry, e.catalog.next + 1⟩
    have hkept {other : ClassId} {spec : ClassSpec} (hother : e.catalog.spec? other = some spec) :
        after.get? other = e.catalog.get? other := by
      obtain ⟨found, hfound, -⟩ := Option.map_eq_some_iff.mp hother
      rw [Catalog.get?_insert, if_neg]
      rintro rfl
      exact Nat.lt_irrefl _ (hlineal.index_lt hfound)
    refine ⟨hreachable, h.backend,
      h.peopled.of_catalog (fun f hf ↦ ?_) (fun f hf ↦ ?_), fun id ↦ ?_⟩
    · exact congrArg (Option.map ClassEntry.spec) (hkept (h.peopled.specs f hf))
    · exact congrArg (fun found : Option ClassEntry ↦ found.bind ClassEntry.parent)
        (hkept (h.peopled.specs f hf))
    · show after.isInstalled id = true ↔ _
      rw [← h.installed, Catalog.isInstalled, Catalog.get?_insert]
      split
      · next heq =>
        subst heq
        have hunknown : e.catalog.get? ⟨e.catalog.next⟩ = none := by
          cases hfound : e.catalog.get? ⟨e.catalog.next⟩ with
          | none => rfl
          | some found => exact absurd (hlineal.index_lt hfound) (Nat.lt_irrefl _)
        rw [Option.any_some, hfresh, Catalog.isInstalled, hunknown, Option.any_none]
      · rfl

/-- An installation adds the classes that it installs. -/
theorem Settled.installed_class (h : Settled e fs m) (id : ClassId) :
    ∃ m', Settled (performSimple (.installClass id) e).2 (founds id e ++ fs) m' := by
  have hreachable := h.reachable.moved (.operate (.installClass id) e)
  have hlineal := h.reachable.lineal
  obtain ⟨hnamed, -⟩ := h.reachable.named_grounded
  obtain ⟨done, result, m', events, hinstalling, hrun⟩ := installClass_eq hlineal h.backend id
  obtain ⟨hpeopled, hids⟩ := h.peopled.foundings hnamed
    (hlineal.missing_nodup id)
    (fun other hmissing hin ↦ by
      have hinstalled := (h.installed other).mpr hin
      rw [(Catalog.mem_missing.mp hmissing).2] at hinstalled
      cases hinstalled)
    (fun before other after hsplit p hp ↦
      (hlineal.parent_before hsplit hp).imp_left (h.installed p).mp) hinstalling
  have hdone : ∀ other ∈ done, (e.catalog.get? other).isSome = true := by
    intro other hmem
    rw [← Catalog.isSome_spec?]
    exact hinstalling.isSome_spec hmem
  rw [performSimple, run_return, hrun] at hreachable ⊢
  rw [founds_of_backend h.backend]
  refine ⟨m', hreachable, rfl, hpeopled.of_catalog (fun f _ ↦ ?_) (fun f _ ↦ ?_), fun other ↦ ?_⟩
  · exact congrFun (Catalog.spec?_foldl_markInstalled done e.catalog) f.id
  · exact congrFun (Catalog.parent?_foldl_markInstalled done e.catalog) f.id
  · show (done.foldl Catalog.markInstalled e.catalog).isInstalled other = true ↔ _
    rw [Catalog.isInstalled_foldl_markInstalled hdone, h.installed, List.map_append, hids,
      List.mem_append, List.mem_reverse, or_comm]

theorem Founded.settled (h : Founded e fs) : ∃ m, Settled e fs m := by
  induction h with
  | fresh h => exact settled_fresh h
  | created _ name parent constructor ih =>
    obtain ⟨m, ih⟩ := ih
    exact ⟨m, ih.created name parent constructor⟩
  | installed _ id ih =>
    obtain ⟨m, ih⟩ := ih
    exact ih.installed_class id

/-! ## Prototypes -/

/-- The class that a name leads to among those that were installed after a parent of that name: the
latest of them or, if there is none, the parent. -/
def namesake (between : List Founding) (parent : Founding) : Founding :=
  (between.find? fun f ↦ f.spec.name = parent.spec.name).getD parent

theorem namesake_mem {between oldest : List Founding} {parent : Founding} :
    namesake between parent ∈ between ++ parent :: oldest := by
  unfold namesake
  cases hfind : between.find? fun f ↦ f.spec.name = parent.spec.name with
  | none => simp
  | some latest => exact List.mem_append_left _ (List.mem_of_find?_eq_some hfind)

/-- The latest class of the name of a parent is the namesake. -/
theorem behind?_eq {between oldest : List Founding} {parent : Founding}
    (hname : spec.parent = some parent.spec.name) :
    behind? ((between ++ parent :: oldest).map Founding.edition) spec =
      some (namesake between parent).prototype := by
  have hparent : ((parent :: oldest).find? fun f ↦ f.spec.name = parent.spec.name) = some parent :=
    List.find?_cons_of_pos (by simp)
  rw [behind?, hname]
  dsimp only
  rw [latest?_map, List.find?_append, hparent, namesake]
  cases between.find? fun f ↦ f.spec.name = parent.spec.name <;> rfl

theorem nodup_prototypes {editions : List Edition} (h : Standing m editions) :
    (editions.map Edition.prototype).Nodup := by
  induction h with
  | nil => exact List.nodup_nil
  | cons _ _ hnew _ _ _ ih =>
    refine List.nodup_cons.mpr ⟨fun hmem ↦ ?_, ih⟩
    obtain ⟨old, hold, heq⟩ := List.mem_map.mp hmem
    exact hnew old hold heq

/-- The namesake has the prototype of the parent only if it is the parent. -/
theorem namesake_prototype_iff {between oldest : List Founding} {parent : Founding}
    (hnodup : ((between ++ parent :: oldest).map Founding.prototype).Nodup) :
    (namesake between parent).prototype = parent.prototype ↔
      ∀ other ∈ between, other.spec.name ≠ parent.spec.name := by
  unfold namesake
  cases hfind : between.find? fun f ↦ f.spec.name = parent.spec.name with
  | none => simpa using List.find?_eq_none.mp hfind
  | some latest =>
    have hmem := List.mem_of_find?_eq_some hfind
    have hname : latest.spec.name = parent.spec.name := by simpa using List.find?_some hfind
    refine iff_of_false (fun heq ↦ ?_) fun hall ↦ hall latest hmem hname
    rw [List.map_append, List.nodup_append] at hnodup
    exact hnodup.2.2 _ (List.mem_map_of_mem hmem) parent.prototype (by simp) heq

/-- What a machine has of a class that was installed after others. Its constructor has the prototype
that was made for it. Behind that stands the prototype of the latest class with the name of the
parent: the parent's own exactly if no other class of that name was installed between the two.
Whatever has the prototype of the class is an instance of the one whose prototype stands behind. -/
structure Heritage (c : Catalog) (m : Machine) (f : Founding) (older : List Founding) : Prop where
  spec : c.spec? f.id = some f.spec
  callable : (m.object f.constructor).callable? =
    some (.native ⟨f.spec.name, f.spec.constructor, f.spec.finalizer⟩)
  shows : (m.object f.constructor).Shows "prototype" (.object f.prototype)
  root : c.parent? f.id = none →
    (m.object f.prototype).prototype = some Script.Realm.objectPrototype
  parent : ∀ p, c.parent? f.id = some p → ∃ between parent oldest,
    older = between ++ parent :: oldest ∧ parent.id = p ∧
    (m.object f.prototype).prototype = some (namesake between parent).prototype ∧
    ((m.object f.prototype).prototype = some parent.prototype ↔
      ∀ other ∈ between, other.spec.name ≠ parent.spec.name) ∧
    ∀ x, (m.object x).prototype = some f.prototype →
      (Script.Interp.isInstance Script.Interp.invoke (.object x)
        (.object (namesake between parent).constructor)).run m = (some true, m)

theorem Settled.heritage (h : Settled e (newer ++ f :: older) m) :
    Heritage e.catalog m f older := by
  obtain ⟨hnamed, -⟩ := h.reachable.named_grounded
  have hspec := h.peopled.specs f (by simp)
  have hparentName := parent_of_spec? hnamed hspec
  have hstanding : Standing m (f.edition :: older.map Founding.edition) := by
    have hall := h.peopled.displays.standing
    rw [List.map_append, List.map_cons] at hall
    exact hall.split
  cases hstanding with
  | @cons _ _ behind hrest hbehind hnew _ hfunction hmodel =>
    have hconstructor : m.object f.constructor = f.edition.function :=
      Script.Machine.object_of_getElem? hfunction
    have hprototype : (m.object f.prototype).prototype = some behind := by
      rw [show m.object f.prototype = _ from Script.Machine.object_of_getElem? hmodel]
      rfl
    refine ⟨hspec, by rw [hconstructor]; rfl, ⟨_, by rw [hconstructor]; rfl⟩, fun hp ↦ ?_,
      fun p hp ↦ ?_⟩
    · rw [hp, Option.bind_none] at hparentName
      have hroot : behind? (older.map Founding.edition) f.spec =
          some Script.Realm.objectPrototype := by
        rw [behind?, hparentName]
      rw [hprototype, ← hroot]
      exact hbehind.symm
    · obtain ⟨parent, hmem, rfl⟩ := List.mem_map.mp (h.peopled.rooted.split hp)
      obtain ⟨between, oldest, rfl⟩ := List.append_of_mem hmem
      have hknown := h.peopled.specs parent (by simp)
      rw [hp, Option.bind_some, name?_of_spec? hknown] at hparentName
      obtain rfl := Option.some.inj (hbehind.symm.trans (behind?_eq hparentName))
      have hnodup := nodup_prototypes hrest
      rw [List.map_map] at hnodup
      refine ⟨between, parent, oldest, rfl, rfl, hprototype, ?_, fun x hx ↦ ?_⟩
      · rw [hprototype, Option.some.injEq]
        exact namesake_prototype_iff hnodup
      · have hdisplayed : (namesake between parent).edition ∈
            (newer ++ f :: (between ++ parent :: oldest)).map Founding.edition :=
          List.mem_map_of_mem
            (List.mem_append_right _ (List.mem_cons_of_mem _ namesake_mem))
        have hinherits := (h.peopled.displays.mem_chain hmodel hx).2
        exact (h.peopled.displays.run_isInstance hdisplayed x).trans
          (congrArg (fun found ↦ (some found, m)) (List.contains_iff_mem.mpr hinherits))

/-- What is installed successfully is installed. -/
theorem Settled.isInstalled_of_ok (h : Settled e fs m) (hok : (installClass id e).1 = .ok ()) :
    (installClass id e).2.catalog.isInstalled id = true := by
  have hlineal := h.reachable.lineal
  cases hentry : e.catalog.get? id with
  | none =>
    rw [installClass_of_unknown hentry] at hok
    cases hok
  | some entry =>
    obtain ⟨done, result, s', events, -, hrun, hresumes⟩ :=
      resumes_installClass hlineal hentry h.backend
    have hmissing := hresumes.complete.mp hok
    have hself : id ∈ (installClass id e).2.catalog.lineage id := by
      rw [hrun]
      show id ∈ (done.foldl Catalog.markInstalled e.catalog).lineage id
      rw [Catalog.lineage_foldl_markInstalled]
      exact (hlineal.descends id).self_mem
    by_contra hnot
    have hmem : id ∈ (installClass id e).2.catalog.missing id :=
      Catalog.mem_missing.mpr ⟨hself, by simpa using hnot⟩
    rw [hmissing] at hmem
    cases hmem

/-- After classes have been created and installed in any order, under any names, every class that
was installed successfully has a constructor with a prototype of its own, and behind that stands the
prototype of whatever class was the latest of the parent's name when it was installed. -/
theorem parent_found_by_name (h : Founded e fs) :
    (∀ id, (installClass id e).1 = .ok () →
      (installClass id e).2.catalog.isInstalled id = true) ∧
    ∃ m, e.backend = some m ∧ (fs.map Founding.id).Nodup ∧
      (∀ id, e.catalog.isInstalled id = true ↔ id ∈ fs.map Founding.id) ∧
      ∀ newer f older, fs = newer ++ f :: older → Heritage e.catalog m f older := by
  obtain ⟨m, h⟩ := h.settled
  refine ⟨fun id ↦ h.isInstalled_of_ok, m, h.backend, h.peopled.nodup, h.installed, ?_⟩
  rintro newer f older rfl
  exact h.heritage

/-! ## Two classes of one name -/

/-- A class whose ancestors are installed is installed, unless its name is reserved. -/
theorem Settled.install_free (h : Settled e fs m) (hspec : e.catalog.spec? id = some spec)
    (hmissing : e.catalog.missing id = [id]) (hname : spec.name ∉ Script.reservedNames) :
    founds id e = [⟨id, spec, m⟩] ∧
      (performSimple (.installClass id) e).2.catalog = e.catalog.markInstalled id := by
  have hlineal := h.reachable.lineal
  obtain ⟨hnamed, -⟩ := h.reachable.named_grounded
  have hparent (p : ClassId) (hp : e.catalog.parent? id = some p) : p ∈ fs.map Founding.id := by
    have hsplit : e.catalog.missing id = [] ++ id :: [] := hmissing
    rcases hlineal.parent_before hsplit hp with hinstalled | hin
    · exact (h.installed p).mp hinstalled
    · cases hin
  obtain ⟨behind, hbehind⟩ := h.peopled.exists_behind hnamed hspec hparent
  have hopen := h.peopled.steady.isOpen_of_mem h.peopled.displays.mem_global
  have hok : (Backend.installClass spec m).result = .ok () := by
    rcases h.peopled.displays.installClass h.peopled.steady hopen hbehind with
      ⟨hok, -⟩ | ⟨-, hreserved, -⟩
    · exact hok
    · exact absurd hreserved hname
  obtain ⟨done, result, m', events, hinstalling, hrun⟩ := installClass_eq hlineal h.backend id
  rw [hmissing] at hinstalling
  constructor
  · rw [founds_of_backend h.backend, hmissing, Engine.foundings, hspec]
    dsimp only
    rw [hok]
    rfl
  · rw [performSimple, run_return, hrun]
    cases hinstalling with
    | accepted _ _ hrest =>
      cases hrest
      rfl
    | refused hspec' hfailed =>
      cases hspec.symm.trans hspec'
      cases hok.symm.trans hfailed
    | unknown hnone => cases hspec.symm.trans hnone

/-- An engine over a fresh machine. -/
def scripted : Engine Machine := (Session.createScripting .default).1.toOption.get rfl

/-- Three classes, of which the first two have one name, and the third has the first as its
parent. -/
def namesakes : Engine Machine :=
  performAll [.createClass "A" none none, .createClass "A" none none,
    .createClass "B" (some ⟨0⟩) none] scripted

theorem founded_namesakes : Founded namesakes [] := by
  have hcreate : Session.createScripting .default = (.ok scripted, [.call .globalObject]) := rfl
  exact (((Founded.fresh hcreate).created "A" none none).created "A" none none).created "B"
    (some ⟨0⟩) none

/-- What installing a class with a free name comes to, if nothing else is missing. -/
theorem Founded.install_free (h : Founded e fs) (id : ClassId) (hcatalog : e.catalog = c)
    (hspec : c.spec? id = some spec) (hmissing : c.missing id = [id])
    (hname : spec.name ∉ Script.reservedNames) : ∃ e' m, Founded e' (⟨id, spec, m⟩ :: fs) ∧
      e'.catalog = c.markInstalled id := by
  subst hcatalog
  obtain ⟨m, hsettled⟩ := h.settled
  obtain ⟨hfounds, hcatalog⟩ := hsettled.install_free hspec hmissing hname
  have hfounded := h.installed id
  rw [hfounds] at hfounded
  exact ⟨_, m, hfounded, hcatalog⟩

/-- If the second class is left out, the prototype of the first one stands behind the third. -/
theorem parent_found_by_name_alone : ∃ e m child parent,
    Founded e [child, parent] ∧ e.backend = some m ∧
      e.catalog.parent? child.id = some parent.id ∧
      (m.object child.prototype).prototype = some parent.prototype := by
  obtain ⟨e₁, m₁, h₁, hcatalog₁⟩ := founded_namesakes.install_free ⟨0⟩ rfl rfl rfl (by decide)
  obtain ⟨e₂, m₂, h₂, hcatalog₂⟩ := h₁.install_free ⟨2⟩ hcatalog₁ rfl rfl (by decide)
  obtain ⟨-, m, hm, -, -, hall⟩ := parent_found_by_name h₂
  have hparent : e₂.catalog.parent? ⟨2⟩ = some ⟨0⟩ := by
    rw [hcatalog₂]
    rfl
  obtain ⟨between, parent, oldest, hsplit, -, -, hiff, -⟩ := (hall [] _ _ rfl).parent _ hparent
  cases between with
  | nil =>
    cases hsplit
    exact ⟨e₂, m, _, _, h₂, hm, hparent, hiff.mpr (List.forall_mem_nil _)⟩
  | cons _ between => cases between <;> cases hsplit

/-- A class of the parent's name that was installed in between takes the place of the parent. -/
theorem namesake_displaces_parent : ∃ e m child other parent,
    Founded e [child, other, parent] ∧ e.backend = some m ∧
      e.catalog.parent? child.id = some parent.id ∧
      (m.object child.constructor).Shows "prototype" (.object child.prototype) ∧
      (m.object child.prototype).prototype = some other.prototype ∧
      other.prototype ≠ parent.prototype := by
  obtain ⟨e₁, m₁, h₁, hcatalog₁⟩ := founded_namesakes.install_free ⟨0⟩ rfl rfl rfl (by decide)
  obtain ⟨e₂, m₂, h₂, hcatalog₂⟩ := h₁.install_free ⟨1⟩ hcatalog₁ rfl rfl (by decide)
  obtain ⟨e₃, m₃, h₃, hcatalog₃⟩ := h₂.install_free ⟨2⟩ hcatalog₂ rfl rfl (by decide)
  obtain ⟨m, hsettled⟩ := h₃.settled
  have hheritage := (show Settled e₃ ([] ++ _ :: _) m from hsettled).heritage
  have hparent : e₃.catalog.parent? ⟨2⟩ = some ⟨0⟩ := by
    rw [hcatalog₃]
    rfl
  obtain ⟨between, parent, oldest, hsplit, hid, hbehind, hiff, -⟩ := hheritage.parent _ hparent
  cases between with
  | nil =>
    cases hsplit
    cases hid
  | cons other between =>
    cases between with
    | nil =>
      cases hsplit
      refine ⟨e₃, m, _, _, _, h₃, hsettled.backend, hparent, hheritage.shows, hbehind, fun heq ↦ ?_⟩
      exact hiff.mp (hbehind.trans (congrArg some heq)) _ (List.mem_singleton_self _) rfl
    | cons _ between => cases between <;> cases hsplit

end Engine

end ScriptBridge
