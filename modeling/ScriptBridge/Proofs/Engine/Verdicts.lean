import ScriptBridge.Proofs.Engine.Ownership
import ScriptBridge.Proofs.Registry.History
import ScriptBridge.Rehearsal

/-!
# What a weak pass decides

A pass asks about every unrooted wrapper, tears down every rooted one if it is part of a cleanup,
and gives back the handles of the wrappers that are doomed by then. So all that a pass does follows
from the answers it gets. The order of the visit is the order of the calls; if the answers do not
depend on it, neither does what is left.
-/

namespace ScriptBridge.Reconcile

variable {σ : Type} [Backend σ] {r : Registry} {inCleanup : Bool}

/-- The wrappers behind some numbers. -/
def known (r : Registry) (ids : List WrapperId) : List (WrapperId × Wrapper) :=
  ids.filterMap fun id ↦ (r.get? id).map (id, ·)

/-- The call by which a pass decides about a wrapper. -/
def decision? (inCleanup : Bool) (entry : WrapperId × Wrapper) : Option Call :=
  if entry.2.isRooted then if inCleanup then some (.tearDown entry.2.handle) else none
  else some (.queryDead entry.2.handle)

/-- Whether a wrapper is doomed, if `gone` says which questions are answered with yes. -/
def dooms (inCleanup : Bool) (gone : WrapperId → Bool) (entry : WrapperId × Wrapper) : Bool :=
  if entry.2.isRooted then inCleanup else gone entry.1

/-- The call that gives the handle of a wrapper back. -/
def farewell (entry : WrapperId × Wrapper) : Call := .forget entry.2.handle

/-- What a backend answers to the questions among calls that are made one after the other. -/
def answers : List Call → σ → List Bool
  | [], _ => []
  | .queryDead handle :: calls, s =>
    let o := Backend.queryDead handle s
    o.result :: answers calls o.state
  | .tearDown handle :: calls, s => answers calls (Backend.tearDown handle s).state
  | .forget handle :: calls, s => answers calls (Backend.forget handle s).state
  | _ :: calls, s => answers calls s

/-! ## The wrappers on the way -/

theorem known_cons (r : Registry) (id : WrapperId) (ids : List WrapperId) :
    known r (id :: ids) = ((r.get? id).map (id, ·)).toList ++ known r ids := by
  rw [known, List.filterMap_cons]
  cases r.get? id <;> rfl

theorem mem_known {ids : List WrapperId} {id : WrapperId} {w : Wrapper} :
    (id, w) ∈ known r ids ↔ id ∈ ids ∧ r.get? id = some w := by
  simp [known]

/-- Where all numbers are in use, the wrappers have these numbers. -/
theorem map_fst_known {ids : List WrapperId} (hlive : ∀ id ∈ ids, r.Live id) :
    (known r ids).map Prod.fst = ids := by
  induction ids with
  | nil => rfl
  | cons id ids ih =>
    rw [List.forall_mem_cons] at hlive
    obtain ⟨w, hw⟩ := hlive.1
    rw [known_cons, hw, List.map_append, ih hlive.2]
    rfl

/-! ## The visit -/

/-- What is given back does not change what was asked. -/
theorem answers_farewells (calls : List Call) (entries : List (WrapperId × Wrapper)) (s : σ) :
    answers (calls ++ entries.map farewell) s = answers calls s := by
  induction calls generalizing s with
  | nil =>
    induction entries generalizing s with
    | nil => rfl
    | cons entry entries ih => exact ih (Backend.forget entry.2.handle s).state
  | cons call calls ih => cases call <;> simp [answers, ih]

/-- What a visit finds doomed and asks of the backend, if `gone` says which questions are answered
with yes. -/
structure Verdicts (r : Registry) (inCleanup : Bool) (ids : List WrapperId)
    (gone : WrapperId → Bool) (v after : Visited σ) : Prop where
  doomed : after.doomed = v.doomed ++
    ((known r ids).filter (dooms inCleanup gone)).map fun d ↦ (d.1, d.2.handle)
  calls : callsOf after.events = callsOf v.events ++ (known r ids).filterMap (decision? inCleanup)
  answers : answers ((known r ids).filterMap (decision? inCleanup)) v.state =
    ((known r ids).filter (!·.2.isRooted)).map (gone ·.1)

theorem Verdicts.congr {ids : List WrapperId} {gone gone' : WrapperId → Bool}
    {v after : Visited σ} (h : Verdicts r inCleanup ids gone v after)
    (hsame : ∀ id ∈ ids, gone' id = gone id) : Verdicts r inCleanup ids gone' v after where
  doomed := by
    rw [h.doomed]
    congr 2
    apply List.filter_congr
    rintro ⟨id, w⟩ hentry
    rw [dooms, dooms, hsame id (mem_known.mp hentry).1]
  calls := h.calls
  answers := by
    rw [h.answers]
    apply List.map_congr_left
    rintro ⟨id, w⟩ hentry
    exact (hsame id (mem_known.mp (List.mem_of_mem_filter hentry)).1).symm

theorem Verdicts.unknown {id : WrapperId} {ids : List WrapperId} {gone : WrapperId → Bool}
    {v after : Visited σ} (hw : r.get? id = none)
    (h : Verdicts r inCleanup ids gone (visit r inCleanup v id) after) :
    Verdicts r inCleanup (id :: ids) gone v after := by
  have hvisit : visit r inCleanup v id = v := by
    unfold visit
    rw [hw]
  have hknown : known r (id :: ids) = known r ids := by
    rw [known_cons, hw]
    rfl
  rw [hvisit] at h
  exact ⟨by rw [hknown, h.doomed], by rw [hknown, h.calls], by rw [hknown, h.answers]⟩

/-- A rooted wrapper is not asked about. -/
theorem Verdicts.rooted {id : WrapperId} {ids : List WrapperId} {gone : WrapperId → Bool}
    {v after : Visited σ} {w : Wrapper} (hw : r.get? id = some w) (hrooted : w.isRooted = true)
    (h : Verdicts r inCleanup ids gone (visit r inCleanup v id) after) :
    Verdicts r inCleanup (id :: ids) gone v after := by
  unfold visit at h
  cases inCleanup with
  | false =>
    simp only [hw, hrooted, if_true, Bool.false_eq_true, if_false] at h
    constructor
    · simp [h.doomed, known_cons, hw, dooms, hrooted]
    · simp [h.calls, known_cons, hw, decision?, hrooted]
    · simpa [known_cons, hw, decision?, hrooted] using h.answers
  | true =>
    simp only [hw, hrooted, if_true] at h
    constructor
    · simp [h.doomed, known_cons, hw, dooms, hrooted]
    · simp [h.calls, known_cons, hw, decision?, hrooted]
    · simpa [known_cons, hw, decision?, hrooted, Reconcile.answers] using h.answers

/-- An unrooted wrapper is asked about, and doomed by the answer. -/
theorem Verdicts.unrooted {id : WrapperId} {ids : List WrapperId} {gone : WrapperId → Bool}
    {v after : Visited σ} {w : Wrapper} (hw : r.get? id = some w) (hrooted : w.isRooted = false)
    (hgone : gone id = (Backend.queryDead w.handle v.state).result)
    (h : Verdicts r inCleanup ids gone (visit r inCleanup v id) after) :
    Verdicts r inCleanup (id :: ids) gone v after := by
  unfold visit at h
  simp only [hw, hrooted, Bool.false_eq_true, if_false] at h
  constructor
  · rw [h.doomed, ← hgone]
    cases hid : gone id <;> simp [known_cons, hw, dooms, hrooted, hid]
  · simp [h.calls, known_cons, hw, decision?, hrooted]
  · simpa [known_cons, hw, decision?, hrooted, Reconcile.answers, hgone] using h.answers

/-- The answers to the questions of a visit doom the unrooted wrappers. -/
theorem exists_verdicts (r : Registry) (inCleanup : Bool) {ids : List WrapperId} (hids : ids.Nodup)
    (v : Visited σ) :
    ∃ gone, Verdicts r inCleanup ids gone v (ids.foldl (visit r inCleanup) v) := by
  induction ids generalizing v with
  | nil => exact ⟨fun _ ↦ false, by simp [known], by simp [known], rfl⟩
  | cons id ids ih =>
    obtain ⟨hid, hids⟩ := List.nodup_cons.mp hids
    obtain ⟨gone, h⟩ := ih hids (visit r inCleanup v id)
    rw [List.foldl_cons]
    cases hw : r.get? id with
    | none => exact ⟨gone, h.unknown hw⟩
    | some w =>
      cases hrooted : w.isRooted with
      | true => exact ⟨gone, h.rooted hw hrooted⟩
      | false =>
        -- No later question concerns the same wrapper, so its answer can be put into `gone`.
        let answer := (Backend.queryDead w.handle v.state).result
        refine ⟨fun other ↦ if other = id then answer else gone other, ?_⟩
        refine Verdicts.unrooted hw hrooted (if_pos rfl) (h.congr fun other hother ↦ ?_)
        exact if_neg fun heq : other = id ↦ hid (heq ▸ hother)

/-! ## The pass -/

section Pass

variable {order order' : List (NativeId × WrapperId)} {state state' : σ}

/-- The wrappers that a pass visits, in its order. -/
def visited (order : List (NativeId × WrapperId)) (r : Registry) : List (WrapperId × Wrapper) :=
  known r (order.map Prod.snd)

/-- The wrappers that a pass removes, if `gone` says which questions are answered with yes. -/
def doomed (order : List (NativeId × WrapperId)) (r : Registry) (inCleanup : Bool)
    (gone : WrapperId → Bool) : List (WrapperId × Wrapper) :=
  (visited order r).filter (dooms inCleanup gone)

/-- What a pass does and leaves, if `gone` says which questions are answered with yes. -/
structure Exact (order : List (NativeId × WrapperId)) (r : Registry) (inCleanup : Bool) (state : σ)
    (gone : WrapperId → Bool) (s : Sweep σ) : Prop where
  /-- Every mapped wrapper is visited once. -/
  nodup : ((visited order r).map Prod.fst).Nodup
  mem_visited : ∀ id w, (id, w) ∈ visited order r ↔
    r.get? id = some w ∧ ∃ native, r.find? native = some id
  /-- The calls that decide, and then one call for every doomed wrapper. -/
  calls : callsOf s.events = (visited order r).filterMap (decision? inCleanup) ++
    (doomed order r inCleanup gone).map farewell
  answers : answers (callsOf s.events) state =
    ((visited order r).filter (!·.2.isRooted)).map (gone ·.1)
  live_iff : ∀ id, s.registry.Live id ↔
    r.Live id ∧ id ∉ (doomed order r inCleanup gone).map Prod.fst
  kept : ∀ {id w}, r.get? id = some w → id ∉ (doomed order r inCleanup gone).map Prod.fst →
    ∃ w', s.registry.get? id = some w' ∧ Registry.SameRecord w w' ∧
      ∀ child, child ∈ w'.children ↔
        child ∈ w.children ∧ child ∉ (doomed order r inCleanup gone).map Prod.fst
  find?_iff : ∀ native id, s.registry.find? native = some id ↔
    r.find? native = some id ∧ id ∉ (doomed order r inCleanup gone).map Prod.fst

theorem nodup_order (hr : r.Coherent) (horder : order.Perm r.nativeEntries) :
    (order.map Prod.snd).Nodup :=
  (horder.map Prod.snd).nodup_iff.mpr hr.nodup_map_snd

theorem map_fst_visited (hr : r.Coherent) (horder : order.Perm r.nativeEntries) :
    (visited order r).map Prod.fst = order.map Prod.snd := by
  apply map_fst_known
  intro id hid
  exact hr.live_of_mem ((horder.map Prod.snd).mem_iff.mp hid)

/-- What a pass does follows from the verdicts of its visit. -/
theorem passIn_verdicts {gone : WrapperId → Bool}
    (h : Verdicts r inCleanup (order.map Prod.snd) gone ⟨[], state, []⟩
      (visits (order.map Prod.snd) r inCleanup state)) :
    (passIn order r inCleanup state).registry =
        r.removeAll ((doomed order r inCleanup gone).map Prod.fst) ∧
      callsOf (passIn order r inCleanup state).events =
        (visited order r).filterMap (decision? inCleanup) ++
          (doomed order r inCleanup gone).map farewell := by
  have hdoomed : (visits (order.map Prod.snd) r inCleanup state).doomed =
      (doomed order r inCleanup gone).map fun d ↦ (d.1, d.2.handle) := h.doomed
  have hcalls : callsOf (visits (order.map Prod.snd) r inCleanup state).events =
      (visited order r).filterMap (decision? inCleanup) := h.calls
  constructor
  · rw [passIn_eq, registry_dismissals, hdoomed, List.map_map]
    rfl
  · rw [passIn_eq, callsOf_dismissals, hdoomed, hcalls, List.map_map]
    rfl

/-- Once the verdicts are known, so is the whole pass. -/
theorem Verdicts.exact {gone : WrapperId → Bool} (hr : r.Coherent)
    (horder : order.Perm r.nativeEntries)
    (h : Verdicts r inCleanup (order.map Prod.snd) gone ⟨[], state, []⟩
      (visits (order.map Prod.snd) r inCleanup state)) :
    Exact order r inCleanup state gone (passIn order r inCleanup state) := by
  obtain ⟨hregistry, hcalls⟩ := passIn_verdicts h
  refine ⟨?_, ?_, hcalls, ?_, ?_, ?_, ?_⟩
  · rw [map_fst_visited hr horder]
    exact nodup_order hr horder
  · intro id w
    rw [visited, mem_known, (horder.map Prod.snd).mem_iff, and_comm,
      Registry.mem_map_snd_nativeEntries]
  · rw [hcalls, answers_farewells]
    exact h.answers
  · intro id
    rw [hregistry, Registry.Live, Registry.Live, hr.get?_removeAll]
    split
    · next hdoomed => simp [hdoomed]
    · next hkept => simp [hkept]
  · intro id w hw hkept
    rw [hregistry, hr.get?_removeAll, if_neg hkept, hw]
    refine ⟨_, rfl, Wrapper.sameRecord_withoutAll _ w, fun child ↦ ?_⟩
    rw [Wrapper.mem_children_withoutAll, and_comm]
  · intro native id
    rw [hregistry, hr.find?_removeAll_iff]

/-! ## The order of the visit -/

/-- The answers that a pass gets depend on nothing but the handles. -/
def AnsweredBy (gone : Handle → Bool) (order : List (NativeId × WrapperId)) (r : Registry)
    (inCleanup : Bool) (state : σ) : Prop :=
  answers (callsOf (passIn order r inCleanup state).events) state =
    ((visited order r).filter (!·.2.isRooted)).map (gone ·.2.handle)

/-- The handles that a pass gives back. -/
def released (order : List (NativeId × WrapperId)) (r : Registry) (inCleanup : Bool) (state : σ) :
    List Handle :=
  (callsOf (passIn order r inCleanup state).events).filterMap Call.givenBack?

theorem Exact.released_eq {gone : WrapperId → Bool}
    (h : Exact order r inCleanup state gone (passIn order r inCleanup state)) :
    released order r inCleanup state =
      (doomed order r inCleanup gone).map fun d ↦ d.2.handle := by
  have hdecisions : ∀ entries : List (WrapperId × Wrapper),
      (entries.filterMap (decision? inCleanup)).filterMap Call.givenBack? = [] := by
    intro entries
    rw [List.filterMap_filterMap, List.filterMap_eq_nil_iff]
    intro entry _
    unfold decision?
    split
    · split <;> rfl
    · rfl
  rw [released, h.calls, List.filterMap_append, hdecisions, List.nil_append, List.filterMap_map]
  exact congrFun (List.filterMap_eq_map (f := fun d : WrapperId × Wrapper ↦ d.2.handle)) _

/-- Answers that depend on the handles alone doom the same wrappers in every order. -/
theorem Exact.doomed_eq {gone : WrapperId → Bool} {goneBy : Handle → Bool}
    (h : Exact order r inCleanup state gone (passIn order r inCleanup state))
    (hanswered : AnsweredBy goneBy order r inCleanup state) :
    doomed order r inCleanup gone = (visited order r).filter fun entry ↦
      if entry.2.isRooted then inCleanup else goneBy entry.2.handle := by
  have hsame := List.map_inj_left.mp (h.answers.symm.trans hanswered)
  apply List.filter_congr
  intro entry hentry
  rw [dooms]
  split
  · rfl
  · next hunrooted => exact hsame entry (List.mem_filter.mpr ⟨hentry, by simp [hunrooted]⟩)

theorem visited_perm (horder : order.Perm order') (r : Registry) :
    (visited order r).Perm (visited order' r) :=
  (horder.map Prod.snd).filterMap _

/-- A pass gives back what it should, whatever the backend answers and in whatever order it comes by
the wrappers. If the answers depend on the handles alone, it leaves the same registry in every
order, and gives the same handles back. -/
theorem passIn_exact (changes : List Registry.Change) (inCleanup : Bool)
    (horder : order.Perm (Registry.replay changes).nativeEntries)
    (horder' : order'.Perm (Registry.replay changes).nativeEntries) (state state' : σ) :
    (∃ gone, Exact order (Registry.replay changes) inCleanup state gone
      (passIn order (Registry.replay changes) inCleanup state)) ∧
    ∀ goneBy, AnsweredBy goneBy order (Registry.replay changes) inCleanup state →
      AnsweredBy goneBy order' (Registry.replay changes) inCleanup state' →
      (passIn order (Registry.replay changes) inCleanup state).registry =
        (passIn order' (Registry.replay changes) inCleanup state').registry ∧
      (released order (Registry.replay changes) inCleanup state).Perm
        (released order' (Registry.replay changes) inCleanup state') := by
  have hr := Registry.coherent_replay changes
  generalize Registry.replay changes = r at horder horder' hr ⊢
  obtain ⟨gone, h⟩ := exists_verdicts r inCleanup (nodup_order hr horder)
    (⟨[], state, []⟩ : Visited σ)
  obtain ⟨gone', h'⟩ := exists_verdicts r inCleanup (nodup_order hr horder')
    (⟨[], state', []⟩ : Visited σ)
  have hexact := Verdicts.exact hr horder h
  have hexact' := Verdicts.exact hr horder' h'
  refine ⟨⟨gone, hexact⟩, fun goneBy hby hby' ↦ ?_⟩
  have hdoomed : (doomed order r inCleanup gone).Perm (doomed order' r inCleanup gone') := by
    rw [hexact.doomed_eq hby, hexact'.doomed_eq hby']
    exact (visited_perm (horder.trans horder'.symm) r).filter _
  constructor
  · rw [(passIn_verdicts h).1, (passIn_verdicts h').1]
    exact hr.removeAll_congr fun id ↦ (hdoomed.map Prod.fst).mem_iff
  · rw [hexact.released_eq, hexact'.released_eq]
    exact hdoomed.map _

/-- Three wrappers, one of them rooted and the owner of the first one. -/
def threesome : List Registry.Change :=
  [.insert ⟨1⟩ ⟨1⟩ false, .insert ⟨2⟩ ⟨2⟩ true, .insert ⟨3⟩ ⟨3⟩ false, .attach ⟨1⟩ ⟨0⟩]

/-- Two unrooted wrappers are gone, and leave the same registry in either order. -/
theorem passIn_exact_threesome :
    let r := Registry.replay threesome
    let state : Rehearsal := { Rehearsal.create none with dead := [⟨1⟩, ⟨3⟩] }
    let order : List (NativeId × WrapperId) := [(⟨1⟩, ⟨0⟩), (⟨2⟩, ⟨1⟩), (⟨3⟩, ⟨2⟩)]
    order = r.nativeEntries ∧ order.reverse.Perm r.nativeEntries ∧
      AnsweredBy (fun handle ↦ handle != ⟨2⟩) order r false state ∧
      AnsweredBy (fun handle ↦ handle != ⟨2⟩) order.reverse r false state ∧
      (passIn order r false state).registry = (passIn order.reverse r false state).registry ∧
      (released order r false state).Perm (released order.reverse r false state) := by
  intro r state order
  have horder : order = r.nativeEntries := rfl
  have hreverse : order.reverse.Perm r.nativeEntries := List.reverse_perm order
  have hby : AnsweredBy (fun handle ↦ handle != ⟨2⟩) order r false state := rfl
  have hby' : AnsweredBy (fun handle ↦ handle != ⟨2⟩) order.reverse r false state := rfl
  have hpass := passIn_exact threesome false (.of_eq horder) hreverse state state
  exact ⟨horder, hreverse, hby, hby', hpass.2 _ hby hby'⟩

end Pass

end ScriptBridge.Reconcile
