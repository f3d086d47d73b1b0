import ScriptBridge.Proofs.Contract.Contract
import ScriptBridge.Proofs.Contract.Lockstep
import ScriptBridge.Proofs.Engine.Passing
import ScriptBridge.Proofs.Registry.Entries

/-!
# Weak passes over a backend that honours its contract

Outside a cleanup a pass removes exactly the wrappers whose objects are gone, and the registry stays
in step at every point of it. The visit asks about all wrappers, since all are mapped; a rooted one
need not be asked, because its object is there. The removals concern handles whose objects are gone,
so they do not change what is there.
-/

namespace ScriptBridge.Contract

open Reconcile

variable {σ ω α : Type} [Backend σ] {C : Contract σ ω} {r : Registry} {seen : ω → Prop} {s t : σ}

/-- A registry is in step with a state that is alive. -/
structure InStep (C : Contract σ ω) (r : Registry) (s : σ) (seen : ω → Prop) : Prop where
  alive : C.alive s
  lockstep : Lockstep r (C.heap s) seen

theorem InStep.sound (h : C.InStep r s seen) : (C.heap s).Sound := C.sound h.alive

theorem inStep_of_follows {H : Heap ω} (h : Lockstep r H seen) (hH : H.Recorded)
    (hf : C.Follows H s) : C.InStep r s seen :=
  ⟨hf.alive, h.drift hH hf.drift⟩

/-- The object of a rooted wrapper is there. -/
theorem InStep.not_gone (h : C.InStep r s seen) {id : WrapperId} {w : Wrapper}
    (hw : r.get? id = some w) (hroots : 0 < w.roots) : ¬ (C.heap s).Gone w.handle := by
  obtain ⟨x, hx, -⟩ := h.lockstep.object hw
  have hreach : (C.heap s).Reach x := .root ((h.lockstep.rooted hw).mpr hroots) hx
  exact fun hgone ↦ hgone x hx (h.sound.present_of_reach hreach)

/-- What an update leaves as it was: whatever was issued stays issued, and nothing comes or goes. -/
structure Unmoved (C : Contract σ ω) (s t : σ) : Prop where
  updates : C.Updates s t
  issued : ∀ {handle}, (C.heap s).issued handle → (C.heap t).issued handle
  present : ∀ x, (C.heap t).present x ↔ (C.heap s).present x

/-! ## The visit -/

/-- A visit has been to some wrappers and has found those doomed whose objects are gone. -/
structure Visiting (C : Contract σ ω) (r : Registry) (seen : ω → Prop) (s : σ)
    (ids : List WrapperId) (v : Visited σ) : Prop extends Unmoved C s v.state where
  inStep : C.InStep r v.state seen
  target : ∀ {handle}, (C.heap s).issued handle →
    (C.heap v.state).target handle = (C.heap s).target handle
  doomed : ∀ d ∈ v.doomed, ∃ w, r.get? d.1 = some w ∧ w.handle = d.2 ∧ (C.heap s).Gone d.2
  found : ∀ id ∈ ids, ∀ {w}, r.get? id = some w → (C.heap s).Gone w.handle →
    (id, w.handle) ∈ v.doomed

theorem visiting_nil (h : C.InStep r s seen) : Visiting C r seen s [] ⟨[], s, []⟩ where
  updates := .start
  issued h := h
  present _ := Iff.rfl
  inStep := h
  target _ := rfl
  doomed := by simp
  found := by simp

theorem Visiting.gone_iff {ids : List WrapperId} {v : Visited σ} (h : Visiting C r seen s ids v)
    {handle : Handle} (hissued : (C.heap s).issued handle) :
    (C.heap v.state).Gone handle ↔ (C.heap s).Gone handle := by
  simp only [Heap.Gone, h.target hissued, h.present]

/-- A wrapper that need not be asked about. -/
theorem Visiting.skip {ids : List WrapperId} {v : Visited σ} (h : Visiting C r seen s ids v)
    {id : WrapperId} (hnot : ∀ {w}, r.get? id = some w → ¬ (C.heap s).Gone w.handle) :
    Visiting C r seen s (ids ++ [id]) v := by
  refine { h with found := fun other hother w hw hgone ↦ ?_ }
  rcases List.mem_append.mp hother with hold | hnew
  · exact h.found other hold hw hgone
  · rw [List.mem_singleton] at hnew
    exact absurd hgone (hnot (hnew ▸ hw))

theorem Visiting.ask (hs : C.InStep r s seen) {ids : List WrapperId} {v : Visited σ}
    (h : Visiting C r seen s ids v) {id : WrapperId} {w : Wrapper} (hw : r.get? id = some w)
    (events : List Event) :
    let o := Backend.queryDead w.handle v.state
    Visiting C r seen s (ids ++ [id])
      ⟨if o.result then v.doomed ++ [(id, w.handle)] else v.doomed, o.state, events⟩ := by
  have hissued := hs.lockstep.issued hs.sound.toRecorded hw
  have hcalm := C.queryDead w.handle h.inStep.alive
  have hdead : (Backend.queryDead w.handle v.state).result = true ↔
      (C.heap s).Gone w.handle := calc
    _ ↔ (C.heap v.state).Gone w.handle := C.dead w.handle h.inStep.alive
    _ ↔ (C.heap s).Gone w.handle := h.gone_iff hissued
  exact
    { updates := h.updates.query w.handle
      issued := fun hold ↦ hcalm.drift.issued (h.issued hold)
      present := fun x ↦ (hcalm.present x).trans (h.present x)
      inStep := inStep_of_follows h.inStep.lockstep h.inStep.sound.toRecorded hcalm.toFollows
      target := fun hold ↦ (hcalm.drift.target (h.issued hold)).trans (h.target hold)
      doomed := fun d hd ↦ by
        dsimp only at hd
        split at hd
        · next hresult =>
          rcases List.mem_append.mp hd with hold | hnew
          · exact h.doomed d hold
          · rw [List.mem_singleton] at hnew
            subst hnew
            exact ⟨w, hw, rfl, hdead.mp hresult⟩
        · exact h.doomed d hd
      found := fun other hother w' hw' hgone ↦ by
        dsimp only
        rcases List.mem_append.mp hother with hold | hnew
        · split
          · exact List.mem_append_left _ (h.found other hold hw' hgone)
          · exact h.found other hold hw' hgone
        · rw [List.mem_singleton] at hnew
          subst hnew
          rw [hw, Option.some.injEq] at hw'
          subst hw'
          rw [if_pos (hdead.mpr hgone)]
          exact List.mem_append_right _ List.mem_cons_self }

theorem Visiting.visit (hs : C.InStep r s seen) {ids : List WrapperId} {v : Visited σ}
    (h : Visiting C r seen s ids v) (id : WrapperId) :
    Visiting C r seen s (ids ++ [id]) (visit r false v id) := by
  unfold Reconcile.visit
  split
  · next hnone =>
    apply h.skip
    intro w hw
    rw [hnone] at hw
    cases hw
  · next w hw =>
    split
    · next hrooted =>
      apply h.skip
      intro w' hw'
      rw [hw, Option.some.injEq] at hw'
      subst hw'
      exact hs.not_gone hw (of_decide_eq_true hrooted)
    · exact h.ask hs hw _

theorem visiting_visits (hs : C.InStep r s seen) (ids : List WrapperId) :
    Visiting C r seen s ids (visits ids r false s) := by
  have hrun : ∀ {done : List WrapperId} {v : Visited σ}, Visiting C r seen s done v →
      Visiting C r seen s (done ++ ids) (ids.foldl (Reconcile.visit r false) v) := by
    induction ids with
    | nil => exact fun h ↦ by simpa using h
    | cons id ids ih =>
      intro done v h
      have hrest := ih (h.visit hs id)
      rwa [List.append_assoc] at hrest
  exact hrun (visiting_nil hs)

/-! ## The removals -/

/-- Some of the doomed wrappers are dismissed and the others are left. -/
structure Sweeping (C : Contract σ ω) (seen : ω → Prop) (s : σ) (done left : List Doomed)
    (sweep : Sweep σ) : Prop extends Unmoved C s sweep.state where
  inStep : C.InStep sweep.registry sweep.state seen
  released : ∀ d ∈ done, (C.heap sweep.state).target d.2 = none
  kept : ∀ {handle}, (C.heap s).issued handle → handle ∉ done.map Prod.snd →
    (C.heap sweep.state).target handle = (C.heap s).target handle
  gone : ∀ d ∈ left, (C.heap sweep.state).Gone d.2
  own : ∀ d ∈ left, ∀ {other w}, sweep.registry.get? other = some w → w.handle = d.2 →
    other = d.1

theorem Sweeping.dismiss {done left : List Doomed} {d : Doomed} {sweep : Sweep σ}
    (h : Sweeping C seen s done (d :: left) sweep)
    (hissued : ∀ d' ∈ done ++ d :: left, (C.heap s).issued d'.2) :
    Sweeping C seen s (done ++ [d]) left (dismiss sweep d) := by
  have hgone := h.gone d List.mem_cons_self
  have hcalm := C.forget h.inStep.alive hgone
  have hdrift := hcalm.drift
  have hrecorded : ((C.heap sweep.state).withoutHandle d.2).Recorded :=
    h.inStep.sound.toRecorded.withoutHandle
  -- A handle that was issued leads where it led before, or nowhere.
  have htarget : ∀ {handle}, (C.heap s).issued handle →
      (C.heap (Backend.forget d.2 sweep.state).state).target handle =
        if handle = d.2 then none else (C.heap sweep.state).target handle := by
    intro handle hold
    calc (C.heap (Backend.forget d.2 sweep.state).state).target handle
        = ((C.heap sweep.state).withoutHandle d.2).target handle := hdrift.target (h.issued hold)
      _ = if handle = d.2 then none else (C.heap sweep.state).target handle :=
        Heap.target_withoutHandle
  have hcut := h.inStep.lockstep.dismiss (h.own d List.mem_cons_self)
  have hregistry : (Reconcile.dismiss sweep d).registry = (sweep.registry.remove d.1).2 :=
    registry_dismiss sweep d
  exact
    { updates := h.updates.forget hgone
      issued := fun hold ↦ hdrift.issued (h.issued hold)
      present := fun x ↦ (hcalm.present x).trans (h.present x)
      inStep := by
        rw [hregistry]
        exact inStep_of_follows hcut hrecorded hcalm.toFollows
      released := fun d' hd' ↦ by
        rcases List.mem_append.mp hd' with hold | hnew
        · have hissued' := hissued d' (List.mem_append_left _ hold)
          refine (htarget hissued').trans ?_
          rw [h.released d' hold]
          split <;> rfl
        · rw [List.mem_singleton] at hnew
          subst hnew
          refine (htarget (hissued d' (List.mem_append_right _ List.mem_cons_self))).trans ?_
          rw [if_pos rfl]
      kept := fun {handle} hold hnot ↦ by
        rw [List.map_append, List.mem_append, not_or] at hnot
        have hne : handle ≠ d.2 := fun heq ↦ hnot.2 (by simp [heq])
        refine (htarget hold).trans ?_
        rw [if_neg hne]
        exact h.kept hold hnot.1
      gone := fun d' hd' x hx hpresent ↦ by
        have hissued' := hissued d' (List.mem_append_right _ (List.mem_cons_of_mem _ hd'))
        have hx' := (htarget hissued').symm.trans hx
        split at hx'
        · cases hx'
        · exact h.gone d' (List.mem_cons_of_mem _ hd') x hx' ((hcalm.present x).mp hpresent)
      own := fun d' hd' {other w} hw hsame ↦ by
        rw [hregistry] at hw
        obtain ⟨-, v, hv, rfl⟩ := h.inStep.lockstep.orderly.coherent.of_get?_remove hw
        exact h.own d' (List.mem_cons_of_mem _ hd') hv hsame }

theorem Sweeping.dismissals {done left : List Doomed} {sweep : Sweep σ}
    (h : Sweeping C seen s done left sweep)
    (hissued : ∀ d ∈ done ++ left, (C.heap s).issued d.2) :
    Sweeping C seen s (done ++ left) [] (left.foldl Reconcile.dismiss sweep) := by
  induction left generalizing done sweep with
  | nil => simpa using h
  | cons d left ih =>
    have hrest := ih (h.dismiss hissued) (by simpa using hissued)
    rwa [List.append_assoc] at hrest

/-! ## The pass -/

/-- What a pass outside a cleanup comes to. -/
structure Passed (C : Contract σ ω) (seen : ω → Prop) (r : Registry) (s : σ) (sweep : Sweep σ) :
    Prop extends Unmoved C s sweep.state where
  inStep : C.InStep sweep.registry sweep.state seen
  /-- The wrappers removed are those whose objects are gone. -/
  removed : ∃ ids, sweep.registry = r.removeAll ids ∧
    ∀ {id w}, r.get? id = some w → (id ∈ ids ↔ (C.heap s).Gone w.handle)
  released : ∀ {id w}, r.get? id = some w → (C.heap s).Gone w.handle →
    (C.heap sweep.state).target w.handle = none
  kept : ∀ {id w}, r.get? id = some w → ¬ (C.heap s).Gone w.handle →
    (C.heap sweep.state).target w.handle = (C.heap s).target w.handle

section Doomed

variable {ids : List WrapperId} {v : Visited σ} {id : WrapperId} {w : Wrapper} {d : Doomed}

theorem Visiting.issued_of_doomed (h : Visiting C r seen s ids v) (hs : C.InStep r s seen)
    (hd : d ∈ v.doomed) : (C.heap s).issued d.2 := by
  obtain ⟨w, hw, hsame, -⟩ := h.doomed d hd
  exact hsame ▸ hs.lockstep.issued hs.sound.toRecorded hw

/-- What is doomed is known by its wrapper, -/
theorem Visiting.eq_of_fst (h : Visiting C r seen s ids v) (hw : r.get? id = some w)
    (hd : d ∈ v.doomed) (hid : d.1 = id) : d = (id, w.handle) := by
  obtain ⟨w', hw', hsame, -⟩ := h.doomed d hd
  rw [hid, hw, Option.some.injEq] at hw'
  subst hw'
  rw [hsame, ← hid]

/-- and also by its handle. -/
theorem Visiting.eq_of_snd (h : Visiting C r seen s ids v) (hs : C.InStep r s seen)
    (hw : r.get? id = some w) (hd : d ∈ v.doomed) (hhandle : d.2 = w.handle) :
    d = (id, w.handle) := by
  obtain ⟨w', hw', hsame, -⟩ := h.doomed d hd
  have hid := hs.lockstep.indexed.id_eq hw hw' (hsame.trans hhandle)
  exact h.eq_of_fst hw hd hid

/-- A visit of all mapped wrappers dooms exactly those whose objects are gone. -/
theorem Visiting.mem_doomed (h : Visiting C r seen s (r.nativeEntries.map Prod.snd) v)
    (hs : C.InStep r s seen) (hw : r.get? id = some w) :
    (id, w.handle) ∈ v.doomed ↔ (C.heap s).Gone w.handle := by
  constructor
  · intro hd
    obtain ⟨-, -, -, hgone⟩ := h.doomed _ hd
    exact hgone
  · have hfind := hs.lockstep.orderly.mapped hw
    exact h.found id (Registry.mem_map_snd_nativeEntries.mpr ⟨w.native, hfind⟩) hw

/-- With what is doomed the removals can begin. -/
theorem Visiting.sweeping (h : Visiting C r seen s ids v) (hs : C.InStep r s seen) :
    Sweeping C seen s [] v.doomed ⟨r, v.state, v.events⟩ where
  updates := h.updates
  issued := h.issued
  present := h.present
  inStep := h.inStep
  released := by simp
  kept hold _ := h.target hold
  gone d hd := by
    obtain ⟨w, hw, hsame, hgone⟩ := h.doomed d hd
    exact (h.gone_iff (h.issued_of_doomed hs hd)).mpr hgone
  own d hd other w hw hsame :=
    (congrArg Prod.fst (h.eq_of_snd hs hw hd hsame.symm)).symm

end Doomed

theorem passed (hs : C.InStep r s seen) : Passed C seen r s (Reconcile.pass r false s) := by
  have h := visiting_visits hs (r.nativeEntries.map Prod.snd)
  rw [Reconcile.pass, passIn_eq]
  generalize visits (r.nativeEntries.map Prod.snd) r false s = v at h ⊢
  have hend := (h.sweeping hs).dismissals fun d hd ↦ h.issued_of_doomed hs hd
  exact
    { updates := hend.updates
      issued := hend.issued
      present := hend.present
      inStep := hend.inStep
      removed := ⟨_, registry_dismissals _ _, fun {id w} hw ↦ by
        rw [← h.mem_doomed hs hw, List.mem_map]
        constructor
        · rintro ⟨d, hd, hid⟩
          exact h.eq_of_fst hw hd hid ▸ hd
        · exact fun hd ↦ ⟨_, hd, rfl⟩⟩
      released := fun hw hgone ↦ hend.released _ ((h.mem_doomed hs hw).mpr hgone)
      kept := fun hw hnot ↦ by
        apply hend.kept (hs.lockstep.issued hs.sound.toRecorded hw)
        intro hhandle
        obtain ⟨d, hd, hsame⟩ := List.mem_map.mp hhandle
        exact hnot ((h.mem_doomed hs hw).mp (h.eq_of_snd hs hw hd hsame ▸ hd)) }

/-! ## Reports -/

/-- A report that may have weak references updated any number of times stays in step. -/
theorem inStep_run {H : Heap ω} {report : Report σ α} (hreport : C.Evaluates H report)
    (h : Lockstep r H seen) (hH : H.Recorded) (trace : List Event) :
    C.InStep (run false report r trace).registry (run false report r trace).state seen := by
  induction hreport generalizing r trace with
  | done hf => exact inStep_of_follows h hH hf
  | events _ ih => exact ih h hH _
  | phase _ ih => exact ih h hH _
  | update hf _ ih =>
    have hpassed := passed (inStep_of_follows h hH hf)
    exact ih _ hpassed.updates hpassed.inStep.lockstep hpassed.inStep.sound.toRecorded _

end ScriptBridge.Contract
