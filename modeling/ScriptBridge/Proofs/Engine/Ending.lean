import Mathlib.Logic.Relation
import ScriptBridge.Proofs.Engine.Accounting

/-!
# The end of an engine

A cleanup gives back every handle as often as it is owned: once for every wrapper that has it, and
once more if it is that of the global object. Part of the wrappers leave in the passes that the
backend asks for, however many these are, and the others afterwards. All this happens between the
hooks and before the backend is shut down. Nothing is left to an engine then, and nothing comes
back: whatever is asked of it later, a further cleanup does nothing, and neither does the last one
when the engine is dropped.
-/

namespace ScriptBridge.Engine

variable {σ α : Type} {e e' e'' : Engine σ} {given more : List Handle}

/-! ## Giving handles back -/

/-- From one engine to a later one the listed handles were given back. No hook ran, the backend was
not shut down, and hooks and classes are the same. -/
structure Returns (e e' : Engine σ) (handles : List Handle) : Prop where
  events : ∃ events, e'.trace = e.trace ++ events ∧ Returning events handles
  beforeHooks : e'.beforeHooks = e.beforeHooks
  afterHooks : e'.afterHooks = e.afterHooks
  catalog : e'.catalog = e.catalog
  backend : e'.backend.isSome = e.backend.isSome

/-- Where nothing happened, nothing was given back. -/
theorem Returns.of_trace (htrace : e'.trace = e.trace) (hbefore : e'.beforeHooks = e.beforeHooks)
    (hafter : e'.afterHooks = e.afterHooks) (hcatalog : e'.catalog = e.catalog)
    (hbackend : e'.backend = e.backend) : Returns e e' [] :=
  ⟨⟨[], by rw [htrace, List.append_nil], .nil⟩, hbefore, hafter, hcatalog, by rw [hbackend]⟩

theorem Returns.refl (e : Engine σ) : Returns e e [] := .of_trace rfl rfl rfl rfl rfl

theorem Returns.trans (first : Returns e e' given) (second : Returns e' e'' more) :
    Returns e e'' (given ++ more) := by
  obtain ⟨events, htrace, hgiven⟩ := first.events
  obtain ⟨later, htrace', hmore⟩ := second.events
  refine ⟨⟨events ++ later, ?_, hgiven.append hmore⟩, second.beforeHooks.trans first.beforeHooks,
    second.afterHooks.trans first.afterHooks, second.catalog.trans first.catalog,
    second.backend.trans first.backend⟩
  calc e''.trace = e'.trace ++ later := htrace'
    _ = e.trace ++ events ++ later := by rw [htrace]
    _ = e.trace ++ (events ++ later) := List.append_assoc _ _ _

theorem Returns.withCatalog (h : Returns e e' given) (catalog : Catalog) :
    Returns { e with catalog := catalog } { e' with catalog := catalog } given :=
  ⟨h.events, h.beforeHooks, h.afterHooks, rfl, h.backend⟩

theorem returns_ask? (call : Call) (hcall : call ≠ .shutdown) (f : σ → Outcome σ α)
    (hbackend : e.backend.isSome = true) : Returns e (ask? call f e).2 call.givenBack?.toList := by
  obtain ⟨s, hs⟩ := Option.isSome_iff_exists.mp hbackend
  rw [ask?_some hs]
  exact ⟨⟨_, trace_heard e call (f s), .call hcall _⟩, rfl, rfl, rfl, by rw [hs]; rfl⟩

variable [Backend σ]

/-- The global object is given back, if there is one. -/
theorem returns_releaseGlobal (hbackend : e.backend.isSome = true) :
    Returns e (releaseGlobal e).2 e.global.toList := by
  simp only [releaseGlobal, act_bind, act_get]
  cases hglobal : e.global with
  | none => exact .refl e
  | some global =>
    let bare : Engine σ := { e with global := none }
    have hbare : Returns e bare [] := .of_trace rfl rfl rfl rfl rfl
    have hrelease : Returns bare (ask? (.release global) (Backend.release global) bare).2
        [global] := returns_ask? (.release global) (by simp) _ (hbare.backend.trans hbackend)
    exact hbare.trans hrelease

theorem returns_releaseAll (ws : List Wrapper) (hbackend : e.backend.isSome = true) :
    Returns e (releaseAll ws e).2 (ws.map Wrapper.handle) := by
  induction ws generalizing e with
  | nil => exact .refl e
  | cons w rest ih =>
    have hfirst : Returns e (ask? (.release w.handle) (Backend.release w.handle) e).2 [w.handle] :=
      returns_ask? (.release w.handle) (by simp) _ hbackend
    exact hfirst.trans (ih (hfirst.backend.trans hbackend))

/-- A collection gives back the handles of the wrappers that leave. -/
theorem returns_collectGarbage (hr : e.registry.Coherent) (hbackend : e.backend.isSome = true) :
    ∃ given, Returns e (collectGarbage e).2 given ∧
      (given ++ (collectGarbage e).2.registry.handles).Perm e.registry.handles := by
  obtain ⟨s, hs⟩ := Option.isSome_iff_exists.mp hbackend
  obtain ⟨events, given, htrace, hgiven, hperm⟩ := Reconcile.run_accounts hr e.inCleanup
    (Backend.collect s) (e.trace ++ [.call .collect])
  rw [collectGarbage_snd, askReporting?_some hs]
  refine ⟨given, ⟨⟨.call .collect :: events, ?_, ?_⟩, rfl, rfl, rfl, by rw [hs]; rfl⟩, hperm⟩
  · exact htrace.trans (List.append_assoc _ _ _)
  · exact (Returning.call (by simp) []).append hgiven

/-- What a collection leaves is given back as well. -/
theorem returns_cleanupObjects (hr : e.registry.Coherent) (hbackend : e.backend.isSome = true) :
    ∃ given, Returns e (cleanupObjects e).2 given ∧ given.Perm e.registry.handles := by
  obtain ⟨given, hcollect, hperm⟩ := returns_collectGarbage hr hbackend
  let left := (collectGarbage e).2.registry
  have hdrain : Returns (collectGarbage e).2
      { (collectGarbage e).2 with registry := left.drain.2 } [] := .of_trace rfl rfl rfl rfl rfl
  have hrelease := returns_releaseAll left.drain.1
    (hdrain.backend.trans (hcollect.backend.trans hbackend))
  refine ⟨_, hcollect.trans (hdrain.trans hrelease), ?_⟩
  have hleft : left.drain.1.map Wrapper.handle = left.handles := List.map_map
  rw [hleft]
  exact hperm

/-! ## Cleanup -/

/-- An engine whose cleanup has begun. -/
def begun (e : Engine σ) : Engine σ :=
  { e with
    inCleanup := true
    trace := e.trace ++ e.beforeHooks.map .beforeCleanup
    beforeHooks := [] }

/-- An engine that has given everything back. -/
def emptied (e : Engine σ) : Engine σ :=
  let released := (releaseGlobal (begun e)).2
  (cleanupObjects { released with catalog := released.catalog.clear }).2

theorem cleanup_eq (h : e.isValid = true) : (cleanup e).2 =
    let shut := (shutdownBackend (emptied e)).2
    { shut with
      isValid := false, started := false, listener := none, queue := []
      trace := shut.trace ++ shut.afterHooks.map .afterCleanup
      afterHooks := []
      inCleanup := false } := by
  simp only [cleanup, act_bind, act_get, h]
  rfl

/-- How often a handle is owned. -/
def claims (e : Engine σ) (handle : Handle) : Nat :=
  (if e.global = some handle then 1 else 0) +
    e.registry.entries.countP fun entry ↦ entry.2.handle = handle

omit [Backend σ] in
theorem count_owned (e : Engine σ) (handle : Handle) :
    (e.global.toList ++ e.registry.handles).count handle = claims e handle := by
  have hglobal : e.global.toList.count handle = if e.global = some handle then 1 else 0 := by
    cases e.global with
    | none => rfl
    | some global => simp [List.count_singleton]
  have hwrappers : e.registry.handles.count handle =
      e.registry.entries.countP fun entry ↦ entry.2.handle = handle := by
    rw [Registry.handles, List.count_eq_countP, List.countP_map]
    congr 1
  rw [List.count_append, hglobal, hwrappers, claims]

theorem registry_releaseGlobal (e : Engine σ) : (releaseGlobal e).2.registry = e.registry := by
  simp only [releaseGlobal, act_bind, act_get]
  cases e.global with
  | none => rfl
  | some global => exact registry_ask? (.release global) (Backend.release global) _

/-- Before the backend is shut down every handle is given back as often as it is owned. -/
theorem returns_emptied (hr : e.registry.Coherent) (hbackend : e.backend.isSome = true) :
    ∃ given, Returns { begun e with catalog := e.catalog.clear } (emptied e) given ∧
      given.Perm (e.global.toList ++ e.registry.handles) := by
  have hglobal : Returns (begun e) (releaseGlobal (begun e)).2 e.global.toList :=
    returns_releaseGlobal hbackend
  have hregistry : (releaseGlobal (begun e)).2.registry = e.registry :=
    registry_releaseGlobal (begun e)
  let cleared : Engine σ := { (releaseGlobal (begun e)).2 with catalog := e.catalog.clear }
  have hcleared : Returns { begun e with catalog := e.catalog.clear } cleared e.global.toList :=
    hglobal.withCatalog e.catalog.clear
  have hemptied : emptied e = (cleanupObjects cleared).2 := by
    simp only [emptied, hglobal.catalog]
    rfl
  have hr' : cleared.registry.Coherent := hregistry ▸ hr
  obtain ⟨given, hwrappers, hperm⟩ :=
    returns_cleanupObjects hr' (hcleared.backend.trans hbackend)
  refine ⟨e.global.toList ++ given, hemptied ▸ hcleared.trans hwrappers, ?_⟩
  rw [← hregistry]
  exact hperm.append_left _

theorem shutdownBackend_some {s : σ} (hs : e.backend = some s) : (shutdownBackend e).2 =
    { e.heard .shutdown (Backend.shutdown s) with backend := none } := by
  simp only [shutdownBackend, act_bind, act_modify, ask?_some hs]

/-! ## After the end -/

/-- An engine that has nothing left gets nothing back. -/
theorem Spent.move (h : Spent e) (hmove : Move e e') : Spent e' := by
  cases hmove with
  | operate op => exact h.of_quiet (quiet_of_spent h op)
  | begin => exact ⟨h.backend, h.global, h.isValid, h.vacant⟩
  | trace => exact ⟨h.backend, h.global, h.isValid, h.vacant⟩
  | drive hs =>
    rw [h.backend] at hs
    cases hs

theorem Spent.moves (h : Spent e) (hmoves : Relation.ReflTransGen Move e e') : Spent e' := by
  induction hmoves with
  | refl => exact h
  | tail _ hmove ih => exact ih.move hmove

/-! ## All of it -/

/-- What a cleanup has done and left. -/
structure CleanedUp (e e' : Engine σ) : Prop where
  /-- The hooks run around everything else, and the backend is shut down once, when every handle has
  been given back as often as it was owned. -/
  course : ∃ (giving : List Event) (notices : List Notice),
    e'.trace = e.trace ++ e.beforeHooks.map .beforeCleanup ++ giving ++
      .call .shutdown :: notices.map Notice.event ++ e.afterHooks.map .afterCleanup ∧
    (∀ event ∈ giving, event.isHook = false) ∧ .shutdown ∉ callsOf giving ∧
    ∀ handle, ((callsOf giving).filterMap Call.givenBack?).count handle = claims e handle
  byNative : e'.registry.byNative = ∅
  byHandle : e'.registry.byHandle = ∅
  wrappers : e'.registry.wrappers = ∅
  classes : e'.catalog.classes = ∅
  beforeHooks : e'.beforeHooks = []
  afterHooks : e'.afterHooks = []
  queue : e'.queue = []
  backend : e'.backend = none
  global : e'.global = none
  started : e'.started = false
  listener : e'.listener = none
  isValid : e'.isValid = false
  inCleanup : e'.inCleanup = false
  /-- Whatever is asked of the engine later, a further cleanup does nothing. -/
  final : ∀ {e''}, Relation.ReflTransGen Move e' e'' → cleanup e'' = ((), e'')

/-- A cleanup gives every handle back as often as it is owned, whatever the backend reports. It
leaves nothing behind, for good. -/
theorem cleanup_accounts (h : Reachable e) (hvalid : e.isValid = true) :
    CleanedUp e (cleanup e).2 := by
  have hformed := h.wellFormed
  have hbackend : e.backend.isSome = true := hformed.isValid ▸ hvalid
  have hended : Ended (cleanup e).2 := cleanup_of_valid hvalid
  obtain ⟨given, hreturns, hperm⟩ := returns_emptied hformed.orderly.coherent hbackend
  obtain ⟨giving, hgiving, hreturning⟩ := hreturns.events
  obtain ⟨s, hs⟩ := Option.isSome_iff_exists.mp (hreturns.backend.trans hbackend)
  obtain ⟨r, hr⟩ := hended.registry
  have hfinal : ∀ {e''}, Relation.ReflTransGen Move (cleanup e).2 e'' → cleanup e'' = ((), e'') :=
    fun hmoves ↦ cleanup_of_invalid (hended.spent.moves hmoves).isValid
  have hcount : ∀ handle,
      ((callsOf giving).filterMap Call.givenBack?).count handle = claims e handle := by
    intro handle
    rw [hreturning.given, hperm.count_eq, count_owned]
  have hcleanup := cleanup_eq hvalid
  rw [shutdownBackend_some hs] at hcleanup
  have htrace : (cleanup e).2.trace = e.trace ++ e.beforeHooks.map .beforeCleanup ++ giving ++
      .call .shutdown :: (Backend.shutdown s).events.map Notice.event ++
        e.afterHooks.map .afterCleanup := by
    rw [hcleanup]
    show (emptied e).trace ++ _ ++ (emptied e).afterHooks.map _ = _
    rw [hreturns.afterHooks, hgiving]
    rfl
  exact
    { course := ⟨giving, (Backend.shutdown s).events, htrace, hreturning.hooks,
        hreturning.shutdown, hcount⟩
      byNative := by rw [hr]; rfl
      byHandle := by rw [hr]; rfl
      wrappers := by rw [hr]; rfl
      classes := by rw [hcleanup]; exact congrArg Catalog.classes hreturns.catalog
      beforeHooks := by rw [hcleanup]; exact hreturns.beforeHooks
      afterHooks := by rw [hcleanup]
      queue := by rw [hcleanup]
      backend := hended.backend
      global := hended.global
      started := by rw [hcleanup]
      listener := by rw [hcleanup]
      isValid := hended.isValid
      inCleanup := hended.inCleanup
      final := hfinal }

/-- An engine with hooks on both sides, two wrappers for one script object, and an unrooted one. -/
def crowded : Engine Rehearsal :=
  performAll [.addBeforeHook "first", .addBeforeHook "second", .createObject ⟨1⟩,
    .wrapNative ⟨2⟩ ⟨1⟩ true, .createObject ⟨3⟩, .unrootObject ⟨3⟩, .addAfterHook "last"] rehearsed

/-- The shared handle is given back twice, those of the unrooted wrapper and of the global object
once. -/
theorem cleanup_accounts_crowded :
    Reachable crowded ∧ crowded.isValid = true ∧ CleanedUp crowded (cleanup crowded).2 ∧
      claims crowded ⟨0⟩ = 1 ∧ claims crowded ⟨1⟩ = 2 ∧ claims crowded ⟨2⟩ = 1 :=
  have hreachable : Reachable crowded := reachable_rehearsed.performAll _
  ⟨hreachable, rfl, cleanup_accounts hreachable rfl, rfl, rfl, rfl⟩

end ScriptBridge.Engine
