import ScriptBridge.Proofs.Engine.Driving

/-!
# What hooks see of a request

While a request is carried out, the hooks of native code are called: they are told the phases of
collections, and they update weak references, for which they deal with the backend as they like.
An engine follows a report with hooks of its own. Whenever these are called to update, the unrooted
wrappers whose script objects are gone leave the registry.
-/

namespace ScriptBridge

/-- A call to the hooks of native code. For an update they find the backend in one state, and leave
it in another one. -/
inductive HookCall (σ : Type) where
  | phase (phase : Phase)
  | update (before after : σ)

/-- The hooks see one collection cycle, and nothing else. -/
def HookCall.IsCycle {σ : Type} (calls : List (HookCall σ)) : Prop :=
  ∃ before after, calls = [.phase .begin, .update before after, .phase .finish]

namespace Backend

open Registry

variable {σ α : Type} [Backend σ] {s s' s'' : σ} {report : Report σ α} {a result : α}
  {calls : List (HookCall σ)} {notices : List Notice} {waived : List Waiver}
  {exchanges : List Exchange}

/-! ## Reports -/

/-- A report is followed to its end, calling the hooks on the way. It has a result then, and leaves
a state. -/
inductive Followed : Report σ α → List (HookCall σ) → α → σ → Prop
  | done (o : Outcome σ α) : Followed (.done o) [] o.result o.state
  | events {next : Report σ α} {calls : List (HookCall σ)} {a : α} {s : σ} (notices : List Notice)
    (h : Followed next calls a s) : Followed (.events notices next) calls a s
  | phase {next : Report σ α} {calls : List (HookCall σ)} {a : α} {s : σ} (p : Phase)
    (h : Followed next calls a s) : Followed (.phase p next) (.phase p :: calls) a s
  | update {s s' s'' : σ} {resume : σ → Report σ α} {notices : List Notice}
    {waived : List Waiver} {calls : List (HookCall σ)} {a : α}
    (hupdate : Updated s notices waived s') (h : Followed (resume s') calls a s'') :
    Followed (.update s resume) (.update s s' :: calls) a s''

theorem Followed.carried (h : Followed report calls a s) :
    ∃ notices waived, Carried report notices waived a s := by
  induction h with
  | done o => exact ⟨_, _, .done o⟩
  | events notices _ ih =>
    obtain ⟨more, waived, hcarried⟩ := ih
    exact ⟨_, _, .events notices hcarried⟩
  | phase p _ ih =>
    obtain ⟨notices, waived, hcarried⟩ := ih
    exact ⟨_, _, .phase p hcarried⟩
  | update hupdate _ ih =>
    obtain ⟨notices, waived, hcarried⟩ := ih
    exact ⟨_, _, .update hupdate hcarried⟩

theorem Carried.followed (h : Carried report notices waived a s) :
    ∃ calls, Followed report calls a s := by
  induction h with
  | done o => exact ⟨_, .done o⟩
  | events notices _ ih =>
    obtain ⟨calls, hfollowed⟩ := ih
    exact ⟨_, .events notices hfollowed⟩
  | phase p _ ih =>
    obtain ⟨calls, hfollowed⟩ := ih
    exact ⟨_, .phase p hfollowed⟩
  | update hupdate _ ih =>
    obtain ⟨calls, hfollowed⟩ := ih
    exact ⟨_, .update hupdate hfollowed⟩

/-- A way to update weak references. -/
def Updates (hook : σ → σ) : Prop := ∀ s, ∃ notices waived, Updated s notices waived (hook s)

/-- However the hooks go about their updates, a report comes to its end. -/
theorem exists_followed {hook : σ → σ} (hhook : Updates hook) (report : Report σ α) :
    ∃ calls a s, Followed report calls a s ∧
      ∀ before after, .update before after ∈ calls → after = hook before := by
  induction report with
  | done o => exact ⟨_, _, _, .done o, fun _ _ hmem ↦ absurd hmem List.not_mem_nil⟩
  | events notices next ih =>
    obtain ⟨calls, a, s, hfollowed, hcalls⟩ := ih
    exact ⟨_, _, _, .events notices hfollowed, hcalls⟩
  | phase p next ih =>
    obtain ⟨calls, a, s, hfollowed, hcalls⟩ := ih
    refine ⟨_, _, _, .phase p hfollowed, fun before after hmem ↦ hcalls before after ?_⟩
    simpa using hmem
  | update state resume ih =>
    obtain ⟨notices, waived, hupdate⟩ := hhook state
    obtain ⟨calls, a, s, hfollowed, hcalls⟩ := ih (hook state)
    refine ⟨_, _, _, .update hupdate hfollowed, fun before after hmem ↦ ?_⟩
    rcases List.mem_cons.mp hmem with heq | hlater
    · cases heq
      rfl
    · exact hcalls before after hlater

theorem Followed.of_done {o : Outcome σ α} (h : Followed (.done o) calls a s) :
    calls = [] ∧ a = o.result ∧ s = o.state := by
  cases h
  exact ⟨rfl, rfl, rfl⟩

theorem Followed.of_events (h : Followed (.events notices report) calls a s) :
    Followed report calls a s := by
  cases h
  assumption

/-- A cycle that ends a report is seen as one. -/
theorem Followed.of_cycle
    (h : Followed (Report.cycle s fun s ↦ .done ⟨result, s, []⟩) calls a s') :
    a = result ∧ calls = [.phase .begin, .update s s', .phase .finish] ∧
      ∃ notices waived, Updated s notices waived s' := by
  obtain ⟨⟩ | ⟨⟩ | ⟨-, h⟩ | ⟨⟩ := h
  obtain ⟨⟩ | ⟨⟩ | ⟨⟩ | ⟨hupdate, h⟩ := h
  obtain ⟨⟩ | ⟨⟩ | ⟨-, h⟩ | ⟨⟩ := h
  obtain ⟨rfl, rfl, rfl⟩ := h.of_done
  exact ⟨rfl, rfl, _, _, hupdate⟩

/-! ## Requests -/

/-- Native code makes one request, with the calls to its hooks meanwhile. -/
inductive Attended : σ → List (HookCall σ) → σ → Prop
  | evaluate {s s' : σ} {calls : List (HookCall σ)} {result : Except Failure Value}
    (source : Script.Source) (file : String)
    (h : Followed (evaluate source file s) calls result s') : Attended s calls s'
  | collect {s s' : σ} {calls : List (HookCall σ)} (h : Followed (collect s) calls () s') :
    Attended s calls s'
  | served {s s' : σ} {call : Call} {notices : List Notice}
    (h : Engine.Served call s s' notices) : Attended s [] s'
  | globalObject (s : σ) : Attended s [] (globalObject s).state
  | shutdown (s : σ) : Attended s [] (shutdown s).state

theorem Attended.dealing (h : Attended s calls s') : ∃ exchanges, Dealing s exchanges s' := by
  cases h with
  | evaluate source file h =>
    obtain ⟨notices, waived, hcarried⟩ := h.carried
    exact ⟨_, .evaluate source file hcarried⟩
  | collect h =>
    obtain ⟨notices, waived, hcarried⟩ := h.carried
    exact ⟨_, .collect hcarried⟩
  | served h =>
    obtain ⟨exchanges, hdealing, -⟩ := h.dealing
    exact ⟨exchanges, hdealing⟩
  | globalObject => exact ⟨_, .globalObject s⟩
  | shutdown => exact ⟨_, .shutdown s⟩

theorem Dealing.attended (h : Dealing s exchanges s') : ∃ calls, Attended s calls s' := by
  cases h with
  | evaluate source file hcarried =>
    obtain ⟨calls, hfollowed⟩ := hcarried.followed
    exact ⟨calls, .evaluate source file hfollowed⟩
  | collect hcarried =>
    obtain ⟨calls, hfollowed⟩ := hcarried.followed
    exact ⟨calls, .collect hfollowed⟩
  | takePending => exact ⟨[], .served (.takePending s)⟩
  | globalObject => exact ⟨[], .globalObject s⟩
  | createObject => exact ⟨[], .served (.createObject s)⟩
  | getProperty target key => exact ⟨[], .served (.getProperty target key s)⟩
  | setProperty target key value => exact ⟨[], .served (.setProperty target key value s)⟩
  | root handle => exact ⟨[], .served (.root handle s)⟩
  | unroot handle => exact ⟨[], .served (.unroot handle s)⟩
  | release handle => exact ⟨[], .served (.release handle s)⟩
  | attachChild owner child => exact ⟨[], .served (.attachChild owner child s)⟩
  | detachChild owner child => exact ⟨[], .served (.detachChild owner child s)⟩
  | setPrivateData handle payload => exact ⟨[], .served (.setPrivateData handle payload s)⟩
  | installClass spec => exact ⟨[], .served (.installClass spec s)⟩
  | shutdown => exact ⟨[], .shutdown s⟩

/-! ## Wrappers whose objects are gone -/

/-- The script object behind a handle is gone for good: whatever an update does first, it is told
so. -/
def Departed (handle : Handle) (s : σ) : Prop :=
  ∀ ⦃notices waived s'⦄, Updated s notices waived s' → (queryDead handle s').result = true

end Backend

namespace Reconcile

open Backend Engine

variable {σ α : Type} [Backend σ] {r : Registry} {inCleanup : Bool} {state : σ} {id : WrapperId}
  {w : Wrapper}

theorem doomed_subset_visit (v : Visited σ) (id : WrapperId) :
    v.doomed ⊆ (visit r inCleanup v id).doomed := by
  unfold visit
  split
  · exact List.Subset.refl _
  · split
    · split
      · exact List.subset_append_left _ _
      · exact List.Subset.refl _
    · dsimp only
      split
      · exact List.subset_append_left _ _
      · exact List.Subset.refl _

theorem doomed_subset_visits (ids : List WrapperId) (v : Visited σ) :
    v.doomed ⊆ (ids.foldl (visit r inCleanup) v).doomed := by
  induction ids generalizing v with
  | nil => exact List.Subset.refl _
  | cons id ids ih => exact List.Subset.trans (doomed_subset_visit v id) (ih _)

/-- A visit dooms the unrooted wrappers whose script objects were gone for good when it began. -/
theorem mem_doomed_visits {ids : List WrapperId} (hid : id ∈ ids) (hw : r.get? id = some w)
    (hunrooted : w.isRooted = false) (hgone : Departed w.handle state) {v : Visited σ}
    (hv : UpdatedTo state v.state v.events) :
    (id, w.handle) ∈ (ids.foldl (visit r inCleanup) v).doomed := by
  induction ids generalizing v with
  | nil => cases hid
  | cons first ids ih =>
    rcases List.mem_cons.mp hid with rfl | hlater
    · refine doomed_subset_visits ids _ ?_
      obtain ⟨notices, waived, hupdated, -⟩ := hv
      simp [visit, hw, hunrooted, hgone hupdated]
    · exact ih hlater (hv.visits [first])

theorem pass_removes (hr : r.Orderly) (hw : r.get? id = some w) (hunrooted : w.isRooted = false)
    (hgone : Departed w.handle state) : (pass r inCleanup state).registry.get? id = none := by
  have hstart : UpdatedTo state state [] := ⟨[], [], .rest state, fun _ ↦ rfl⟩
  have hvisited : id ∈ r.nativeEntries.map Prod.snd :=
    Registry.mem_map_snd_nativeEntries.mpr ⟨w.native, hr.mapped hw⟩
  have hdoomed : (id, w.handle) ∈
      (visits (r.nativeEntries.map Prod.snd) r inCleanup state).doomed :=
    mem_doomed_visits hvisited hw hunrooted hgone hstart
  rw [pass, passIn_eq, registry_dismissals, hr.coherent.get?_removeAll,
    if_pos (List.mem_map_of_mem hdoomed)]

/-- An engine follows a report with hooks of its own. After an update no wrapper is left whose
script object was gone for good when it began, rooted ones apart. -/
theorem run_removes (hr : r.Orderly) (inCleanup : Bool) (report : Report σ α)
    (trace : List Event) :
    ∃ calls, Followed report calls (run inCleanup report r trace).result
        (run inCleanup report r trace).state ∧
      ∀ before after, .update before after ∈ calls → ∀ id w, r.get? id = some w →
        w.isRooted = false → Departed w.handle before →
          (run inCleanup report r trace).registry.get? id = none := by
  induction report generalizing r trace with
  | done o => exact ⟨[], .done o, fun _ _ hmem ↦ absurd hmem List.not_mem_nil⟩
  | events notices next ih =>
    obtain ⟨calls, hfollowed, hcalls⟩ := ih hr (trace ++ notices.map Notice.event)
    exact ⟨calls, .events notices hfollowed, hcalls⟩
  | phase p next ih =>
    obtain ⟨calls, hfollowed, hcalls⟩ := ih hr (trace ++ [phaseEvent r p])
    refine ⟨_, .phase p hfollowed, fun before after hmem ↦ hcalls before after ?_⟩
    simpa using hmem
  | update state resume ih =>
    let s := pass r inCleanup state
    obtain ⟨notices, waived, hupdated, -⟩ := updatedTo_pass r inCleanup state
    obtain ⟨first, hfirst, -⟩ := passIn_prunes r.nativeEntries r inCleanup state
    have hs : s.registry = r.removeAll first := hfirst
    have hr' : s.registry.Orderly := hs ▸ hr.removeAll first
    obtain ⟨calls, hfollowed, hcalls⟩ := ih s.state hr' (trace ++ s.events)
    refine ⟨_, .update hupdated hfollowed, fun before after hmem id w hw hunrooted hgone ↦ ?_⟩
    have hstays : s.registry.get? id = none →
        (run inCleanup (.update state resume) r trace).registry.get? id = none := by
      intro hnone
      obtain ⟨ids, -, hregistry, -, -⟩ :=
        run_prunes hr'.coherent inCleanup (resume s.state) (trace ++ s.events)
      rw [run, hregistry, hr'.coherent.get?_removeAll, hnone]
      split <;> rfl
    rcases List.mem_cons.mp hmem with heq | hlater
    · cases heq
      exact hstays (pass_removes hr hw hunrooted hgone)
    · by_cases hremoved : id ∈ first
      · exact hstays (by rw [hs, hr.coherent.get?_removeAll, if_pos hremoved])
      · have hget : s.registry.get? id = some (w.withoutAll first) := by
          rw [hs, hr.coherent.get?_removeAll, if_neg hremoved, hw, Option.map_some]
        have hsame := Wrapper.sameRecord_withoutAll first w
        refine hcalls before after hlater id _ hget ?_ (hsame.handle ▸ hgone)
        rw [Wrapper.isRooted, hsame.roots]
        exact hunrooted

end Reconcile

namespace Engine

variable {σ : Type} [Backend σ] {e : Engine σ} {s : σ}

/-- What a buffer leaves of the registry has been decided when its evaluation ends. -/
theorem registry_executeBuffer (hs : e.backend = some s) {bytes : List UInt8} {text : String}
    (hdecode : decodeSource bytes = .ok text) (name : Option String) :
    (executeBuffer bytes name e).2.registry =
      (e.follow (.evaluate (.text text) (e.fileName name))
        (Backend.evaluate (.text text) (e.fileName name) s)).registry := by
  rw [executeBuffer_snd, hdecode]
  have hquiet := (executeSource_quiet (.text text) name e).registry
  rw [askReporting?_some hs] at hquiet
  exact hquiet

end Engine

end ScriptBridge
