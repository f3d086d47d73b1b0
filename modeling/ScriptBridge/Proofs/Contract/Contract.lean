import ScriptBridge.Proofs.Contract.Heap
import ScriptBridge.Proofs.Engine.Quiet

/-!
# The contract of a backend

A backend honours its contract if its states can be seen as script heaps that every call changes as
it is documented to. A full collection takes away exactly what cannot be reached, and then has the
weak references updated; an update asks whether objects are gone and gives handles back. Nothing is
promised about a backend that was shut down, nor about tearing roots down on the way there.
-/

namespace ScriptBridge

/-- A way to see the states of a backend as script heaps, as long as they are alive. -/
structure View (σ ω : Type) where
  heap : σ → Heap ω
  alive : σ → Prop

namespace View

variable {σ ω α : Type} [Backend σ]

/-- A state that is alive comes after a heap has moved on by itself. -/
structure Follows (V : View σ ω) (H : Heap ω) (s : σ) : Prop where
  alive : V.alive s
  drift : H.Drift (V.heap s)

/-- A state comes after a heap, and no object was made or has gone. -/
structure Calm (V : View σ ω) (H : Heap ω) (s : σ) : Prop extends V.Follows H s where
  present : ∀ x, (V.heap s).present x ↔ H.present x

/-- How native code uses a backend that has its weak references updated. -/
inductive Updates (V : View σ ω) (s : σ) : σ → Prop
  | start : Updates V s s
  | query {t : σ} (h : Updates V s t) (handle : Handle) :
    Updates V s (Backend.queryDead handle t).state
  | forget {t : σ} (h : Updates V s t) {handle : Handle} (hgone : (V.heap t).Gone handle) :
    Updates V s (Backend.forget handle t).state

/-- A report that goes on from a heap, and has weak references updated any number of times. -/
inductive Evaluates (V : View σ ω) : Heap ω → Report σ α → Prop
  | done {H : Heap ω} {o : Outcome σ α} (h : V.Follows H o.state) : Evaluates V H (.done o)
  | events {H : Heap ω} {notices : List Notice} {next : Report σ α} (h : Evaluates V H next) :
    Evaluates V H (.events notices next)
  | phase {H : Heap ω} {p : Phase} {next : Report σ α} (h : Evaluates V H next) :
    Evaluates V H (.phase p next)
  | update {H : Heap ω} {s : σ} {resume : σ → Report σ α} (h : V.Follows H s)
    (hresume : ∀ t, V.Updates s t → Evaluates V (V.heap t) (resume t)) :
    Evaluates V H (.update s resume)

/-- A report that ends without a further update, and calmly. -/
inductive Settles (V : View σ ω) : Heap ω → Report σ α → Prop
  | done {H : Heap ω} {o : Outcome σ α} (h : V.Calm H o.state) : Settles V H (.done o)
  | events {H : Heap ω} {notices : List Notice} {next : Report σ α} (h : Settles V H next) :
    Settles V H (.events notices next)
  | phase {H : Heap ω} {p : Phase} {next : Report σ α} (h : Settles V H next) :
    Settles V H (.phase p next)

/-- A report of a full collection: what cannot be reached goes, nothing else changes, and then the
weak references are updated once. -/
inductive Collects (V : View σ ω) : Heap ω → Report σ α → Prop
  | events {H : Heap ω} {notices : List Notice} {next : Report σ α} (h : Collects V H next) :
    Collects V H (.events notices next)
  | phase {H : Heap ω} {p : Phase} {next : Report σ α} (h : Collects V H next) :
    Collects V H (.phase p next)
  | update {H : Heap ω} {s : σ} {resume : σ → Report σ α} (h : V.Follows H s)
    (hpresent : ∀ x, (V.heap s).present x ↔ H.Reach x)
    (hresume : ∀ t, V.Updates s t → Settles V (V.heap t) (resume t)) :
    Collects V H (.update s resume)

variable {V : View σ ω} {H : Heap ω} {report : Report σ α}

theorem Settles.evaluates (h : V.Settles H report) : V.Evaluates H report := by
  induction h with
  | done h => exact .done h.toFollows
  | events _ ih => exact .events ih
  | phase _ ih => exact .phase ih

/-- A full collection is a report like others. -/
theorem Collects.evaluates (h : V.Collects H report) : V.Evaluates H report := by
  induction h with
  | events _ ih => exact .events ih
  | phase _ ih => exact .phase ih
  | update h _ hresume => exact .update h fun t ht ↦ (hresume t ht).evaluates

end View

/-- What a backend promises, seen as script heaps. -/
structure Contract (σ ω : Type) [Backend σ] extends View σ ω where
  sound : ∀ {s}, alive s → (heap s).Sound
  globalObject : ∀ {s}, alive s → toView.Follows (heap s) (Backend.globalObject s).state
  quiet : ∀ {s s' call}, alive s → Engine.QuietCall call s s' → toView.Follows (heap s) s'
  createObject : ∀ {s}, alive s → toView.Follows (heap s) (Backend.createObject s).state
  /-- A new object has a new handle, and is rooted. -/
  created : ∀ {s handle}, alive s → (Backend.createObject s).result = .ok handle →
    ∃ x, ¬ (heap s).issued handle ∧ ¬ (heap s).made x ∧
      (heap (Backend.createObject s).state).target handle = some x ∧
      (heap (Backend.createObject s).state).rooted handle
  root : ∀ {s} handle, alive s → toView.Follows
    ((heap s).after (Backend.root handle s).result (·.withRoot handle))
    (Backend.root handle s).state
  unroot : ∀ {s} handle, alive s → toView.Follows
    ((heap s).after (Backend.unroot handle s).result (·.withoutRoot handle))
    (Backend.unroot handle s).state
  release : ∀ {s} handle, alive s → toView.Follows ((heap s).withoutHandle handle)
    (Backend.release handle s).state
  attachChild : ∀ {s owner child x y}, alive s → (heap s).target owner = some x →
    (heap s).target child = some y → toView.Follows
      ((heap s).after (Backend.attachChild owner child s).result (·.withChild x child y))
      (Backend.attachChild owner child s).state
  detachChild : ∀ {s owner x} child, alive s → (heap s).target owner = some x → toView.Follows
    ((heap s).after (Backend.detachChild owner child s).result (·.withoutChild x child))
    (Backend.detachChild owner child s).state
  /-- A child that cannot be detached for want of an object has lost it, or its owner is gone. -/
  unknown : ∀ {s owner child handle}, alive s →
    (Backend.detachChild owner child s).result = .error (.unknownHandle handle) →
    (heap s).Gone owner ∨ (heap s).Gone child
  evaluate : ∀ {s} source file, alive s →
    toView.Evaluates (heap s) (Backend.evaluate source file s)
  collect : ∀ {s}, alive s → toView.Collects (heap s) (Backend.collect s)
  queryDead : ∀ {s} handle, alive s → toView.Calm (heap s) (Backend.queryDead handle s).state
  /-- An object is reported gone exactly if it is. -/
  dead : ∀ {s} handle, alive s →
    ((Backend.queryDead handle s).result = true ↔ (heap s).Gone handle)
  forget : ∀ {s handle}, alive s → (heap s).Gone handle →
    toView.Calm ((heap s).withoutHandle handle) (Backend.forget handle s).state

end ScriptBridge
