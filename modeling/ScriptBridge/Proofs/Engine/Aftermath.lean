import ScriptBridge.Proofs.Engine.Surroundings

/-!
# An engine that is over

An engine has its global object as long as it is valid. Once it is over, an operation that needs the
backend says that the engine is not initialized, unless something it looks at first is unknown or
malformed, or it has nothing to do. It changes nothing in either case. For classes this rests on the
catalog: every class in a lineage is known, and after a cleanup none counts as installed.
-/

namespace ScriptBridge.Engine

variable {σ : Type} [Backend σ] {e : Engine σ}

/-! ## What holds of reachable engines -/

theorem Reachable.isSome_global (h : Reachable e) : e.global.isSome = e.isValid := by
  induction h with
  | created h =>
    obtain ⟨global, s, rfl⟩ := create_eq_ok h
    rfl
  | @moved e _ _ hmove ih =>
    cases hmove with
    | operate op =>
      by_cases hop : op = .cleanup
      · subst hop
        rw [performSimple, run_return, run_surely]
        cases hvalid : e.isValid with
        | false => rw [cleanup_of_invalid hvalid, ih]
        | true =>
          have hended := cleanup_of_valid hvalid
          rw [hended.global, hended.isValid]
          rfl
      · have hframe := frame_performSimple hop e
        rw [hframe.global, hframe.isValid, ih]
    | begin => exact ih
    | trace => exact ih
    | drive => exact ih

theorem lineal_performSimple (h : e.catalog.Lineal) (op : Operation) :
    (performSimple op e).2.catalog.Lineal := by
  have hchange := recatalogs_performSimple h op
  generalize (performSimple op e).2.catalog = after at hchange
  cases hchange with
  | same => exact h
  | created hcreate => exact h.create hcreate
  | defined hdefine => exact h.defineFinalizer hdefine
  | @installed _ _ _ done => exact done.foldlRecOn _ h fun _ hold id _ ↦ hold.markInstalled id
  | cleared => exact Catalog.lineal_clear _

/-- The parents of classes are older classes. -/
theorem Reachable.lineal (h : Reachable e) : e.catalog.Lineal := by
  induction h with
  | created h =>
    obtain ⟨global, s, rfl⟩ := create_eq_ok h
    exact Catalog.lineal_empty
  | moved _ hmove ih =>
    cases hmove with
    | operate op => exact lineal_performSimple ih op
    | begin => exact ih
    | trace => exact ih
    | drive => exact ih

theorem pristine_performSimple (h : WellFormed e) (hlineal : e.catalog.Lineal) {op : Operation}
    (hover : (performSimple op e).2.isValid = false)
    (hpristine : e.isValid = false → e.catalog.Pristine) :
    (performSimple op e).2.catalog.Pristine := by
  cases hvalid : e.isValid with
  | true =>
    have hop : op = .cleanup := by
      by_contra hop
      rw [(frame_performSimple hop e).isValid, hvalid] at hover
      cases hover
    subst hop
    rw [performSimple, run_return, run_surely, catalog_cleanup hvalid]
    exact Catalog.pristine_clear _
  | false =>
    have hnone : e.backend.isSome = false := h.isValid.symm.trans hvalid
    have hchange := recatalogs_performSimple hlineal op
    generalize (performSimple op e).2.catalog = after at hchange
    cases hchange with
    | same => exact hpristine hvalid
    | created hcreate => exact (hpristine hvalid).create hcreate
    | defined hdefine => exact (hpristine hvalid).defineFinalizer hdefine
    | installed hs =>
      rw [hs] at hnone
      cases hnone
    | cleared htrue =>
      rw [hvalid] at htrue
      cases htrue

/-- An engine that is over has no class installed. -/
theorem Reachable.pristine (h : Reachable e) (hover : e.isValid = false) : e.catalog.Pristine := by
  induction h with
  | created h =>
    obtain ⟨global, s, rfl⟩ := create_eq_ok h
    cases hover
  | moved h hmove ih =>
    cases hmove with
    | operate op => exact pristine_performSimple h.wellFormed h.lineal hover ih
    | begin => exact ih hover
    | trace => exact ih hover
    | drive => exact ih hover

/-! ## What is left of an engine -/

omit [Backend σ] in
theorem WellFormed.spent_of_invalid (h : WellFormed e) (hinvalid : e.isValid = false) :
    Spent e := by
  have hnone := h.isValid
  rw [hinvalid, eq_comm, Option.isSome_eq_false_iff, Option.isNone_iff_eq_none] at hnone
  exact h.spent hnone

omit [Backend σ] in
/-- Where there is no wrapper, nothing leads to one. -/
theorem Spent.registry (h : Spent e) (hr : e.registry.Coherent) :
    e.registry.byNative = ∅ ∧ e.registry.byHandle = ∅ ∧ e.registry.wrappers = ∅ := by
  refine ⟨Std.ExtTreeMap.ext_getElem? fun native ↦ ?_, Std.ExtTreeMap.ext_getElem? fun handle ↦ ?_,
    Std.ExtTreeMap.ext_getElem? fun id ↦ ?_⟩
  · cases hfind : e.registry.find? native with
    | none => simpa [Registry.find?] using hfind
    | some id =>
      obtain ⟨w, hw, -⟩ := hr.native_of_find? hfind
      rw [h.vacant] at hw
      cases hw
  · cases hfind : e.registry.findByHandle? handle with
    | none => simpa [Registry.findByHandle?] using hfind
    | some id =>
      obtain ⟨w, hw, -⟩ := hr.handle_of_findByHandle? hfind
      rw [h.vacant] at hw
      cases hw
  · simpa [Registry.get?] using h.vacant id

/-! ## What an engine that is over answers -/

/-- The answer of an engine that is over to an operation that has to do with the backend. The
others are about hooks, listeners, initializers and the catalog. -/
def refusal? (e : Engine σ) : Operation → Option (Except Failure Reply)
  | .start | .executeSource _ _ | .getProperty _ _ | .setProperty _ _ _ | .wrapNative _ _ _
  | .createObject _ => some (.error .notInitialized)
  | .executeBuffer bytes _ => some (match decodeSource bytes with
    | .ok _ => .error .notInitialized
    | .error failure => .error failure)
  | .installClass id =>
    some (.error (if (e.catalog.get? id).isSome then .notInitialized else .unknownClass id))
  | .rootObject native | .unrootObject native | .setPrivateData native _ =>
    some (.error (.unknownNative native))
  | .clearException => some (.ok (.exception none))
  | .cleanup | .releaseValue _ | .collectGarbage | .retain _ _ | .unretain _ _ => some (.ok .unit)
  | .addBeforeHook _ | .addAfterHook _ | .addInitializer _ | .createClass _ _ _
  | .defineFinalizer _ _ | .setListener _ | .nodeEvent _ _ => none

theorem clearException_of_none (h : e.backend = none) : clearException e = (none, e) := by
  simp only [clearException, act_bind, ask?_none h]
  rfl

theorem executeSource_of_none (h : e.backend = none) (source : Script.Source)
    (file : Option String) : executeSource source file e = (.error .notInitialized, e) := by
  simp only [executeSource, run_bind, run_get, run_surely, askReporting?_none h, answer,
    clearException_of_none h, run_throw]

theorem executeBuffer_of_none (h : e.backend = none) (bytes : List UInt8) (file : Option String) :
    executeBuffer bytes file e = (match decodeSource bytes with
      | .ok _ => .error .notInitialized
      | .error failure => .error failure, e) := by
  simp only [executeBuffer, run_bind]
  cases decodeSource bytes with
  | error failure => rfl
  | ok source => exact executeSource_of_none h (.text source) file

theorem installOne_of_fresh (h : e.backend = none) {id : ClassId}
    (hfresh : e.catalog.isInstalled id = false) : installOne id e =
      (.error (if (e.catalog.get? id).isSome then .notInitialized else .unknownClass id), e) := by
  simp only [installOne, run_bind, run_get, hfresh, Catalog.spec?]
  cases e.catalog.get? id with
  | none => rfl
  | some entry =>
    simp only [Option.map_some, Bool.false_eq_true, if_false, run_bind, ask_none h,
      Option.isSome_some, if_true]

/-- Installation fails at the first class of the lineage, which is known if the class is. -/
theorem installClass_of_none (h : e.backend = none) (hlineal : e.catalog.Lineal)
    (hpristine : e.catalog.Pristine) (id : ClassId) : installClass id e =
      (.error (if (e.catalog.get? id).isSome then .notInitialized else .unknownClass id), e) := by
  have hinstall : installClass id e = installAll (e.catalog.lineage id) e := rfl
  rw [hinstall]
  cases hknown : e.catalog.get? id with
  | none =>
    rw [Catalog.lineage_of_unknown hknown, installAll, run_bind,
      installOne_of_fresh h (hpristine _), hknown]
  | some entry =>
    obtain ⟨first, rest, hlineage⟩ : ∃ first rest, e.catalog.lineage id = first :: rest :=
      List.exists_cons_of_ne_nil (by simp [Catalog.lineage])
    obtain ⟨known, hfirst⟩ :=
      hlineal.known_of_mem_lineage hknown (hlineage ▸ List.mem_cons_self)
    rw [hlineage, installAll, run_bind, installOne_of_fresh h (hpristine _), hfirst]
    rfl

/-- Nothing that has to do with the backend changes an engine that is over. -/
theorem performSimple_of_spent (h : Spent e) (hlineal : e.catalog.Lineal)
    (hpristine : e.catalog.Pristine) {op : Operation} (hop : op ≠ .start)
    {reply : Except Failure Reply} (hreply : refusal? e op = some reply) :
    performSimple op e = (reply, e) := by
  have hnone := h.backend
  cases op with
  | start => exact absurd rfl hop
  | executeSource source file =>
    cases hreply
    rw [performSimple, run_map, executeSource_of_none hnone]
    rfl
  | executeBuffer bytes file =>
    cases hreply
    rw [performSimple, run_map, executeBuffer_of_none hnone]
    cases decodeSource bytes <;> rfl
  | getProperty target key =>
    cases hreply
    simp only [performSimple, getProperty, run_bind, ask_none hnone]
  | setProperty target key value =>
    cases hreply
    simp only [performSimple, setProperty, run_bind, ask_none hnone]
  | wrapNative native handle rooted =>
    cases hreply
    rw [performSimple, run_map, wrapNative_eq, h.wrappedAs?]
    cases rooted with
    | true => simp only [settleRoot_true, hnone]; rfl
    | false => simp only [settleRoot_false, ask_none hnone]; rfl
  | createObject native =>
    cases hreply
    rw [performSimple, run_map, createObject_eq, ask_none hnone]
    rfl
  | installClass id =>
    cases hreply
    rw [performSimple, run_return, installClass_of_none hnone hlineal hpristine]
    rfl
  | rootObject native =>
    cases hreply
    rw [performSimple, run_return, rootObject_eq, h.current?]
    rfl
  | unrootObject native =>
    cases hreply
    rw [performSimple, run_return, unrootObject_eq, h.current?]
    rfl
  | setPrivateData native payload =>
    cases hreply
    rw [performSimple, run_return, setPrivateData_eq, h.current?]
    rfl
  | clearException =>
    cases hreply
    rw [performSimple, run_bind, run_surely, clearException_of_none hnone]
    rfl
  | cleanup =>
    cases hreply
    rw [performSimple, run_return, run_surely, cleanup_of_invalid h.isValid]
    rfl
  | releaseValue value =>
    cases hreply
    rw [performSimple, run_return, run_surely, releaseValue_eq]
    cases value.asObject? with
    | none => rfl
    | some handle =>
      dsimp only
      rw [ask?_none hnone]
      split <;> rfl
  | collectGarbage =>
    cases hreply
    rw [performSimple, run_return, run_surely, collectGarbage_snd, askReporting?_none hnone]
    rfl
  | retain owner target =>
    cases hreply
    rw [performSimple, run_return, retain_eq, h.endpoints?]
    rfl
  | unretain owner target =>
    cases hreply
    rw [performSimple, run_return, unretain_eq, h.endpoints?]
    rfl
  | _ => cases hreply

end ScriptBridge.Engine
