import ScriptBridge.Proofs.Contract.Run
import ScriptBridge.Proofs.Engine.Rooting

/-!
# What is wrapped as rooted

A native object that is wrapped as rooted gets a rooted wrapper with the handle, and keeps it. There
is one exception: if the native object already has this handle, it also keeps the roots that it has,
so an unrooted wrapper stays unrooted, and the next collection may take it away.
-/

namespace ScriptBridge

namespace Engine

variable {σ : Type} {e : Engine σ} {native : NativeId} {handle : Handle} {id : WrapperId}
  {w : Wrapper} {rooted : Bool}

/-! ## What is seen of a native object -/

theorem objectHandle?_eq (native : NativeId) (e : Engine σ) :
    e.objectHandle? native = (e.current? native).map fun (_, w) ↦ w.handle := by
  simp only [objectHandle?, current?]
  cases e.registry.find? native with
  | none => rfl
  | some id => cases hw : e.registry.get? id <;> simp [hw]

theorem isRooted_eq (native : NativeId) (e : Engine σ) :
    e.isRooted native = (e.current? native).any fun (_, w) ↦ w.isRooted := by
  simp only [isRooted, current?]
  cases e.registry.find? native with
  | none => rfl
  | some id => cases hw : e.registry.get? id <;> simp [hw]

theorem wrappedAs?_eq (native : NativeId) (handle : Handle) (e : Engine σ) :
    e.wrappedAs? native handle =
      (e.current? native).bind fun (id, w) ↦ if w.handle = handle then some id else none := by
  simp only [wrappedAs?, current?]
  cases e.registry.find? native with
  | none => rfl
  | some id => cases hw : e.registry.get? id <;> simp [hw]

theorem objectHandle?_of_current? (h : e.current? native = some (id, w)) :
    e.objectHandle? native = some w.handle := by
  rw [objectHandle?_eq, h, Option.map_some]

theorem isRooted_of_current? (h : e.current? native = some (id, w)) :
    e.isRooted native = w.isRooted := by
  rw [isRooted_eq, h, Option.any_some]

/-- The native object has the handle already. -/
theorem exists_current_of_wrappedAs? (h : e.wrappedAs? native handle = some id) :
    ∃ w, e.current? native = some (id, w) ∧ w.handle = handle := by
  rw [wrappedAs?_eq, Option.bind_eq_some_iff] at h
  obtain ⟨⟨other, w⟩, hcurrent, hsame⟩ := h
  dsimp only at hsame
  split at hsame
  · next hhandle =>
    cases hsame
    exact ⟨w, hcurrent, hhandle⟩
  · cases hsame

/-- The native object has another handle, or none. -/
theorem objectHandle?_ne_of_wrappedAs? (h : e.wrappedAs? native handle = none) :
    e.objectHandle? native ≠ some handle := by
  rw [wrappedAs?_eq] at h
  rw [objectHandle?_eq]
  rcases hcurrent : e.current? native with _ | ⟨id, w⟩
  · simp
  · simpa [hcurrent] using h

theorem rootedAs_of_current? (h : e.current? native = some (id, w))
    (hrooted : e.isRooted native = true) : e.registry.RootedAs native w.handle id := by
  obtain ⟨hfind, hw⟩ := current?_eq_some_iff.mp h
  rw [isRooted_of_current? h, Wrapper.isRooted, decide_eq_true_eq] at hrooted
  exact ⟨hfind, w, hw, rfl, hrooted⟩

/-- A rooted wrapper as it is seen from outside. -/
theorem seen_of_rootedAs (h : e.registry.RootedAs native handle id) :
    e.registry.find? native = some id ∧ e.objectHandle? native = some handle ∧
      e.isRooted native = true := by
  obtain ⟨w, hw, rfl, hpos⟩ := h.wrapper
  have hcurrent : e.current? native = some (id, w) := current?_eq_some_iff.mpr ⟨h.find, hw⟩
  refine ⟨h.find, objectHandle?_of_current? hcurrent, ?_⟩
  rw [isRooted_of_current? hcurrent, Wrapper.isRooted, decide_eq_true_eq]
  exact hpos

/-! ## Wrapping -/

variable [Backend σ]

/-- Wrapping succeeds without a change, as the native object has the handle already, or the native
object gets a new wrapper. -/
theorem wrapNative_of_ok (hok : (wrapNative native handle rooted e).1 = .ok id) :
    (e.wrappedAs? native handle = some id ∧ (wrapNative native handle rooted e).2 = e) ∨
    (e.wrappedAs? native handle = none ∧ (wrapNative native handle rooted e).2.current? native =
      some (id, .fresh native handle rooted)) := by
  rw [wrapNative_eq] at hok ⊢
  cases hsame : e.wrappedAs? native handle with
  | some other =>
    rw [hsame] at hok
    cases hok
    exact .inl ⟨rfl, rfl⟩
  | none =>
    rw [hsame] at hok
    dsimp only at hok ⊢
    split at hok
    · cases hok
    · cases hok
      exact .inr ⟨rfl, current?_eq_some_iff.mpr ⟨Registry.find?_insert_self _ _ _ _,
        Registry.get?_insert_self _ _ _ _⟩⟩

end Engine

namespace Contract

open Engine

variable {σ : Type} [Backend σ] {e : Engine σ} {native : NativeId} {handle : Handle}
  {id : WrapperId}

/-- Over a backend that honours its contract, the script object of a rooted wrapper is rooted too,
and there. -/
theorem Runs.object_of_rootedAs {ω : Type} {C : Contract σ ω} {seen : ω → Prop} {s : σ}
    (h : C.Runs e seen) (hs : e.backend = some s) (hrooted : e.registry.RootedAs native handle id) :
    (C.heap s).rooted handle ∧ ∃ x, (C.heap s).target handle = some x ∧ (C.heap s).present x := by
  obtain ⟨w, hw, rfl, hpos⟩ := hrooted.wrapper
  exact (h.aligned hs).agrees.rooted hw hpos

/-- Over any backend, a native object that was wrapped as rooted has the wrapper and the handle that
it was given; and the wrapper is rooted, unless the native object had this very handle before, in a
wrapper without a root. A rooted wrapper stays as it is, through collections and whatever else
happens, until the native object is unrooted, wrapped again with another handle, or the engine is
cleaned up. Where the backend honours its contract, the script object is there all the while. -/
theorem wrapped_as_rooted (h : Reachable e)
    (hok : (wrapNative native handle true e).1 = .ok id) :
    let after := (wrapNative native handle true e).2
    after.registry.find? native = some id ∧ after.objectHandle? native = some handle ∧
    (after.isRooted native = true ↔
      ¬ (e.objectHandle? native = some handle ∧ e.isRooted native = false)) ∧
    (after.isRooted native = true → ∀ e', Relation.ReflTransGen (Sparing native handle) after e' →
      e'.registry.find? native = some id ∧ e'.objectHandle? native = some handle ∧
      e'.isRooted native = true ∧
      ∀ {ω : Type} (C : Contract σ ω) (seen : ω → Prop) (s : σ), C.Runs e' seen →
        e'.backend = some s → (C.heap s).rooted handle ∧
          ∃ x, (C.heap s).target handle = some x ∧ (C.heap s).present x) := by
  intro after
  have hreachable : Reachable after := by
    have hmoved := h.moved (.operate (.wrapNative native handle true) e)
    rwa [performSimple, run_map] at hmoved
  have hcases : ∃ w, after.current? native = some (id, w) ∧ w.handle = handle ∧
      (after.isRooted native = true ↔
        ¬ (e.objectHandle? native = some handle ∧ e.isRooted native = false)) := by
    obtain ⟨hsame, hafter⟩ | ⟨hnew, hcurrent⟩ := wrapNative_of_ok hok
    · obtain ⟨w, hcurrent, hhandle⟩ := exists_current_of_wrappedAs? hsame
      have hafter : after = e := hafter
      refine ⟨w, hafter ▸ hcurrent, hhandle, ?_⟩
      have hbefore : e.objectHandle? native = some handle :=
        hhandle ▸ objectHandle?_of_current? hcurrent
      rw [hafter]
      simp [hbefore]
    · have hfresh : after.isRooted native = true := (isRooted_of_current? hcurrent).trans rfl
      exact ⟨_, hcurrent, rfl, iff_of_true hfresh
        fun hbefore ↦ objectHandle?_ne_of_wrappedAs? hnew hbefore.1⟩
  obtain ⟨w, hcurrent, rfl, hiff⟩ := hcases
  refine ⟨(current?_eq_some_iff.mp hcurrent).1, objectHandle?_of_current? hcurrent, hiff,
    fun hrooted e' hmoves ↦ ?_⟩
  obtain ⟨-, hstays⟩ :=
    rootedAs_of_sparing hreachable (rootedAs_of_current? hcurrent hrooted) hmoves
  obtain ⟨hfind, hhandle, hrooted'⟩ := seen_of_rootedAs hstays
  exact ⟨hfind, hhandle, hrooted', fun C seen s hruns hs ↦ hruns.object_of_rootedAs hs hstays⟩

/-! ## In an arena -/

/-- An arena with a script object that no native object has. -/
def spare : Engine Arena := { childless with backend := childless.backend.map Arena.addObject }

theorem runs_spare : Arena.contract.Runs spare fun _ ↦ False := by
  have hstart : Arena.contract.Runs childless fun _ ↦ False :=
    .created rfl Arena.sane_empty (by simp [Arena.contract, Arena.view, Arena.heap, Arena.empty])
  exact hstart.drive rfl (Arena.follows_addObject (hstart.aligned rfl).alive)

/-- The object may be wrapped. -/
theorem admissible_spare (rooted : Bool) :
    Arena.contract.Admissible spare (fun _ ↦ False) (.wrapNative ⟨1⟩ ⟨1⟩ rooted) := by
  refine .inr fun s hs ↦ ?_
  cases hs
  exact ⟨⟨1⟩, rfl, List.mem_cons_self, id⟩

/-- The script object is wrapped as rooted, and a collection leaves wrapper and object. -/
theorem wrapped_as_rooted_spare :
    Reachable spare ∧ (wrapNative ⟨1⟩ ⟨1⟩ true spare).1 = .ok ⟨0⟩ ∧
      let after := (wrapNative ⟨1⟩ ⟨1⟩ true spare).2
      after.isRooted ⟨1⟩ = true ∧
      (performSimple .collectGarbage after).2.registry.find? ⟨1⟩ = some ⟨0⟩ ∧
      (performSimple .collectGarbage after).2.isRooted ⟨1⟩ = true := by
  have hok : (wrapNative ⟨1⟩ ⟨1⟩ true spare).1 = .ok ⟨0⟩ := rfl
  have hreachable : Reachable spare := runs_spare.reachable
  obtain ⟨-, -, hiff, hstays⟩ := wrapped_as_rooted hreachable hok
  have hrooted := hiff.mpr fun hbefore ↦ by cases hbefore.1
  have hcollect : Relation.ReflTransGen (Sparing ⟨1⟩ ⟨1⟩) (wrapNative ⟨1⟩ ⟨1⟩ true spare).2
      (performSimple .collectGarbage (wrapNative ⟨1⟩ ⟨1⟩ true spare).2).2 :=
    .single (.operate .collectGarbage not_false _)
  obtain ⟨hfind, -, hrooted', -⟩ := hstays hrooted _ hcollect
  exact ⟨hreachable, hok, hrooted, hfind, hrooted'⟩

/-- The script object was wrapped once, without a root. -/
def loose : Engine Arena := (performSimple (.wrapNative ⟨1⟩ ⟨1⟩ false) spare).2

/-- The arena of that script object, which is there. -/
def looseArena : Arena where
  issued := 2
  held := [⟨1⟩, ⟨0⟩]
  rooted := [⟨0⟩]
  present := [⟨1⟩, ⟨0⟩]
  edges := []

/-- Wrapping the native object again with the same handle, now as rooted, succeeds and leaves it
unrooted, and the next collection takes its wrapper away. -/
theorem rooting_ignored :
    (∃ seen, Arena.contract.Runs loose seen ∧
      Arena.contract.Admissible loose seen (.wrapNative ⟨1⟩ ⟨1⟩ true)) ∧
    loose.backend = some looseArena ∧ looseArena.heap.target ⟨1⟩ = some ⟨1⟩ ∧
    looseArena.heap.present ⟨1⟩ ∧ loose.unwrapNative? ⟨1⟩ = some ⟨1⟩ ∧
      let after := (wrapNative ⟨1⟩ ⟨1⟩ true loose).2
      (wrapNative ⟨1⟩ ⟨1⟩ true loose).1 = .ok ⟨0⟩ ∧ after.isRooted ⟨1⟩ = false ∧
      (performSimple .collectGarbage after).2.registry.find? ⟨1⟩ = none :=
  ⟨⟨_, runs_spare.operate _ (admissible_spare false), .inl rfl⟩, rfl, rfl, List.mem_cons_self, rfl,
    rfl, rfl, rfl⟩

end Contract

end ScriptBridge
