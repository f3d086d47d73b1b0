import ScriptBridge.Proofs.Start.Course

/-!
# Keeping a chronicle

Every turn of a course keeps its chronicle right: it stays regular, it agrees with the queue of the
engine, it accounts for every start, and no registration is about to be invoked that was invoked
before.
-/

namespace ScriptBridge.Course

open Chronicle Engine

variable {σ : Type} {may : Behaviour} {c c' : Course σ} {e e' : Engine σ} {h : List Mark}
  {starts : List Underway} {number position : Nat} {global : Handle} {r : Registration}
  {rest : List Registration} {next : Except Failure Reply → Routine} {routine after : Routine}

theorem kept_created (h : e.queue = []) (client : Routine) :
    Kept ⟨e, [], [], .running client⟩ where
  regular := .nil
  queued := h
  accounts := .nil
  nodup := List.nodup_nil
  known := fun _ hr ↦ hr

/-- Where no registration comes to those that may be invoked, none is invoked twice. -/
theorem Kept.onward (hc : Kept c) (hregular : Regular c'.chronicle)
    (hqueued : Queued c'.engine c'.chronicle) (haccounts : Accounts c'.chronicle c'.reached)
    (hgrows : c.chronicle <+: c'.chronicle) (hinvocable : c'.invocable.Subperm c.invocable) :
    Kept c' := by
  obtain ⟨l, hperm, hsublist⟩ := hinvocable
  obtain ⟨later, hlater⟩ := hgrows
  refine ⟨hregular, hqueued, haccounts, hperm.nodup_iff.mp (hsublist.nodup hc.nodup), ?_⟩
  intro r hr
  rw [← hlater, accepted_append]
  exact List.mem_append_left _ (hc.known r (hsublist.subset (hperm.mem_iff.mpr hr)))

/-- An operation other than a start registers an initializer, empties the queue, or neither. -/
theorem Kept.operate {ms : List Mark} (hc : Kept ⟨e, h, starts, .running routine⟩)
    (hchange : Requeues e h ms e'.queue) : Kept ⟨e', h ++ ms, starts, .running after⟩ := by
  generalize hqueue : e'.queue = queue at hchange
  cases hchange with
  | same =>
    rw [List.append_nil]
    exact ⟨hc.regular, hqueue.trans hc.queued, hc.accounts, hc.nodup, hc.known⟩
  | @registered name hnew =>
    let r : Registration := ⟨(accepted h).length, name⟩
    have hregular : Regular (h ++ [.registered r]) :=
      hc.regular.concat ⟨rfl, fun hwaits ↦ hnew (hc.queued ▸ hwaits)⟩
    have hfresh : r ∉ accepted h := fun hold ↦
      hregular.not_mem_of_accepted hold List.mem_cons_self
    have hinvocable : invocable ⟨e', h ++ [.registered r], starts, .running after⟩ =
        invocable ⟨e, h, starts, .running routine⟩ ++ [r] := by
      simp [invocable, Mark.invocation?, Mark.queue]
    refine ⟨hregular, ?_, hc.accounts.aside rfl, ?_, fun s hs ↦ ?_⟩
    · rw [Queued, hqueue, hc.queued, waiting_concat, Mark.queue, List.map_append,
        List.map_singleton]
    · rw [hinvocable, List.nodup_append_comm]
      exact List.nodup_cons.mpr ⟨fun hold ↦ hfresh (hc.known r hold), hc.nodup⟩
    · rw [hinvocable, List.mem_append] at hs
      rw [accepted_concat, List.mem_append]
      exact hs.imp_left (hc.known s)
  | tornDown =>
    refine hc.onward (hc.regular.concat trivial) ?_ (hc.accounts.aside rfl)
      (List.prefix_append _ _) (List.Sublist.subperm ?_)
    · rw [Queued, hqueue, waiting_concat]
      rfl
    · simp [invocable, Mark.invocation?, Mark.queue]

/-- A start moves what waits to what it is going to invoke. -/
theorem Kept.begin (hc : Kept ⟨e, h, starts, .running routine⟩) (global : Handle) :
    Kept ⟨e.taken, h ++ [.began (takings h).length (waiting h)],
      ⟨(takings h).length, global, 0, waiting h, next⟩ :: starts, .choosing⟩ := by
  refine hc.onward (hc.regular.concat ⟨rfl, rfl⟩) ?_ (hc.accounts.begin hc.regular (waiting h))
    (List.prefix_append _ _) (List.Perm.subperm ?_)
  · rw [Queued, waiting_concat]
    rfl
  · simp only [invocable, invocations_concat, Mark.invocation?, Option.toList_none, List.append_nil,
      waiting_concat, Mark.queue, List.flatMap_cons, List.append_assoc]
    exact List.perm_append_comm.append_left _

section Innermost

variable {u : Underway} {event : Event}

/-- A mark about the innermost start leaves the queue as it is. -/
theorem Kept.mark {m : Mark} {starts' : List Underway} {doing doing' : Doing}
    (hc : Kept ⟨e, h, u :: starts, doing⟩) (hqueue : e'.queue = e.queue)
    (hwaiting : m.queue (waiting h) = waiting h)
    (hfollows : u.number < (takings h).length → Follows h m)
    (haccounts : Accounts (h ++ [m]) (reached ⟨e', h ++ [m], starts', doing'⟩))
    (hinvocable : (invocable ⟨e', h ++ [m], starts', doing'⟩).Sublist
      (invocable ⟨e, h, u :: starts, doing⟩)) :
    Kept ⟨e', h ++ [m], starts', doing'⟩ := by
  have hunderway : u.number ∈ (reached ⟨e, h, u :: starts, doing⟩).map Prod.fst := by
    cases doing <;> exact List.mem_cons_self
  have hlt : u.number < (takings h).length := hc.accounts.start_lt hc.regular hunderway
  refine hc.onward (hc.regular.concat (hfollows hlt)) ?_ haccounts (List.prefix_append _ _)
    hinvocable.subperm
  rw [Queued, waiting_concat, hwaiting, hqueue]
  exact hc.queued

theorem Kept.invoke
    (hc : Kept ⟨e, h, ⟨number, global, position, r :: rest, next⟩ :: starts, .choosing⟩) :
    Kept ⟨e.noted event, h ++ [.invoked number position r],
      ⟨number, global, position, rest, next⟩ :: starts, .running routine⟩ := by
  refine hc.mark rfl rfl id ?_ ?_
  · exact hc.accounts.advance (by simp [Mark.start?]) rfl Account.invoke
  · simp [invocable, Mark.invocation?, Mark.queue]

theorem Kept.pass
    (hc : Kept ⟨e, h, ⟨number, global, position, rest, next⟩ :: starts, .running routine⟩) :
    Kept ⟨e, h ++ [.succeeded number position],
      ⟨number, global, position + 1, rest, next⟩ :: starts, .choosing⟩ := by
  refine hc.mark rfl rfl id ?_ ?_
  · exact hc.accounts.advance (by simp [Mark.start?]) rfl Account.pass
  · simp [invocable, Mark.invocation?, Mark.queue]

theorem Kept.fail {source : Failure}
    (hc : Kept ⟨e, h, ⟨number, global, position, rest, next⟩ :: starts, .running routine⟩) :
    Kept ⟨e.noted event, h ++ [.ended number (.error (.initializer position source))], starts,
      .running after⟩ := by
  have hended := hc.accounts.advance (by simp [Mark.start?]) rfl fun hacc ↦ hacc.fail source
  refine hc.mark rfl rfl id hended.pop ?_
  simp [invocable, Mark.invocation?, Mark.queue]

theorem Kept.complete
    (hc : Kept ⟨e, h, ⟨number, global, position, [], next⟩ :: starts, .choosing⟩) :
    Kept ⟨e, h ++ [.ended number (.ok ())], starts, .running after⟩ := by
  have hended := hc.accounts.advance (by simp [Mark.start?]) rfl Account.complete
  refine hc.mark rfl rfl id hended.pop ?_
  simp [invocable, Mark.invocation?, Mark.queue]

end Innermost

variable [Backend σ]

theorem Kept.step (hc : Kept c) (hstep : Step may c c') : Kept c' := by
  cases hstep with
  | operate => exact hc.operate (requeues_performSimple _ _ _)
  | refuse => exact ⟨hc.regular, hc.queued, hc.accounts, hc.nodup, hc.known⟩
  | begin => exact hc.begin _
  | invoke => exact hc.invoke
  | pass => exact hc.pass
  | fail => exact hc.fail
  | complete => exact hc.complete

theorem Attained.kept (hc : Attained may c) : Kept c := by
  induction hc with
  | created client h =>
    simp only [create] at h
    split at h
    · cases h
      exact kept_created rfl client
    · cases h
  | turned _ hturn ih =>
    cases hturn with
    | step hstep => exact ih.step hstep
    | drive => exact ⟨ih.regular, ih.queued, ih.accounts, ih.nodup, ih.known⟩

end ScriptBridge.Course
