import ScriptBridge.Proofs.Engine.Driving
import ScriptBridge.Proofs.Script.Finalization
import ScriptBridge.Session.Scripting

/-!
# Engines over script machines

An engine over a script machine is created, carries out operations, has its events taken away, and
lets its users make requests to the machine. At last it is dropped, which cleans it up. Over such a
life the finalizers are told once of every payload.
-/

namespace ScriptBridge.Script.Machine

open Backend

variable {m m' : Machine} {config : Config} {e e' : Engine Machine} {events : List Event}
  {x c : ObjectId} {k : Handle}

/-- The events of notices among what has passed. -/
def noted (exchanges : List Exchange) : List Event :=
  exchanges.filterMap fun exchange ↦
    match exchange with
    | .notice n => some n.event
    | _ => none

/-- An engine over a script machine in a configuration, with all events since its creation. Its
users may take the events away that it has not shown yet, and make requests to its machine. -/
inductive Lives (config : Config) : List Event → Engine Machine → Prop
  | created {e : Engine Machine} {events : List Event}
    (h : Session.createScripting config = (.ok e, events)) : Lives config events e
  | performed {e e' : Engine Machine} {events more : List Event} {repertoire : Repertoire}
    {depth : Nat} {op : Operation} {reply : Except Failure Reply} (h : Lives config events e)
    (hrun : Engine.perform repertoire depth op e = some (reply, e'))
    (htrace : e'.trace = e.trace ++ more) : Lives config (events ++ more) e'
  | used {e : Engine Machine} {events : List Event} {m m' : Machine} {exchanges : List Exchange}
    (h : Lives config events e) (hm : e.backend = some m) (hdealing : Dealing m exchanges m') :
    Lives config (events ++ noted exchanges)
      { e with backend := some m', trace := e.trace ++ noted exchanges }
  | shown {e : Engine Machine} {events : List Event} (h : Lives config events e) :
    Lives config events { e with trace := [] }

theorem relays_noted (exchanges : List Exchange) : Relays (noted exchanges) exchanges := by
  intro payload
  induction exchanges with
  | nil => rfl
  | cons exchange exchanges ih =>
    cases exchange with
    | notice n =>
      show (n.event :: noted exchanges).countP _ = _
      rw [List.countP_cons, List.countP_cons, ih]
      cases n <;> rfl
    | handed k => exact ih
    | rooted k => exact ih
    | waived k => exact ih

theorem createScripting_ok (h : Session.createScripting config = (.ok e, events)) :
    ∃ m, Machine.create config = .ok m ∧ e.backend = some m ∧ events = [.call .globalObject] ∧
      Engine.create m config = (.ok e, events) := by
  unfold Session.createScripting at h
  split at h
  · cases h
  · next m hm =>
    obtain rfl := create_eq hm
    cases h
    exact ⟨_, hm, rfl, rfl, rfl⟩

theorem isOpen_shutdown (m : Machine) : (Backend.shutdown m).state.isOpen = false := by
  show (Machine.shutdown m).state.isOpen = false
  unfold Machine.shutdown
  split
  · rfl
  · next hclosed => simpa using hclosed

/-- An engine keeps a machine that is used by requests, and relays what the machine tells of the
ends of payloads. -/
theorem Lives.kept (h : Lives config events e) :
    ∃ history m, Used config history m ∧ e.Keeps m ∧ Relays events history := by
  induction h with
  | created h =>
    obtain ⟨m, hm, hbackend, rfl, -⟩ := createScripting_ok h
    exact ⟨_, m, .created hm, .inl hbackend, fun _ ↦ rfl⟩
  | performed _ hrun htrace ih =>
    obtain ⟨history, m, hused, hkeeps, hrelays⟩ := ih
    obtain ⟨more, exchanges, m', htrace', hdealings, hkeeps', hrelays'⟩ :=
      Engine.drives_perform hrun m hkeeps
    obtain rfl := List.append_cancel_left (htrace.symm.trans htrace')
    exact ⟨_, m', hused.dealings hdealings, hkeeps', hrelays.append hrelays'⟩
  | @used e events m m' exchanges _ hm hdealing ih =>
    obtain ⟨history, m₀, hused, hkeeps, hrelays⟩ := ih
    obtain rfl := hkeeps.eq_of_some hm
    exact ⟨_, m', hused.dealt hdealing, .inl rfl, hrelays.append (relays_noted exchanges)⟩
  | shown _ ih => exact ih

/-- The finalizers were told of each payload whose carrier is gone. -/
theorem Used.finalized {history : List Exchange} (h : Used config history m)
    (payload : String × String) :
    history.countP (Exchange.finalizes payload) = m.lost payload := by
  induction h with
  | created h =>
    obtain rfl := create_eq h
    rfl
  | dealt h hdealing ih =>
    obtain ⟨-, made, hadvances, -⟩ := h.steady.dealing hdealing
    rw [List.countP_append, ih, Nat.add_comm, hadvances.finalized]

theorem Lives.reachable (h : Lives config events e) : Engine.Reachable e := by
  induction h with
  | created h =>
    obtain ⟨m, -, -, -, hcreate⟩ := createScripting_ok h
    exact .created hcreate
  | performed _ hrun _ ih =>
    obtain ⟨events, -, hacts⟩ := Engine.acts_perform ih hrun
    exact ih.acts hacts
  | used _ hm _ ih => exact (ih.moved (.drive hm _)).moved (.trace _ _)
  | shown _ ih => exact ih.acts (.single (.takeTrace _))

/-- The end of an engine is that of its machine. -/
theorem Lives.dropped (h : Lives config events e) (hused : Steady m) (hkeeps : e.Keeps m)
    (hcount : ∀ payload, events.countP (Event.finalizes payload) = m.lost payload) :
    ∃ final later m', (Engine.cleanup e).2.trace = e.trace ++ final ∧ Dealings m later m' ∧
      m'.isOpen = false ∧
        ∀ payload, (events ++ final).countP (Event.finalizes payload) = m'.total payload := by
  obtain ⟨final, later, m', htrace, hdealings, hkeeps', hrelays⟩ := Engine.drives_cleanup e m hkeeps
  obtain ⟨hsteady, made, hadvances⟩ := hused.dealings hdealings
  have hnone : (Engine.cleanup e).2.backend = none := by
    cases hvalid : e.isValid with
    | true => exact (Engine.cleanup_of_valid hvalid).backend
    | false =>
      rw [Engine.cleanup_of_invalid hvalid]
      exact (h.reachable.wellFormed.spent_of_invalid hvalid).backend
  have hclosed : m'.isOpen = false := by
    rcases hkeeps' with hsome | ⟨-, before, rfl⟩
    · rw [hnone] at hsome
      cases hsome
    · exact isOpen_shutdown before
  refine ⟨final, later, m', htrace, hdealings, hclosed, fun payload ↦ ?_⟩
  calc (events ++ final).countP (Event.finalizes payload)
      = m.lost payload + later.countP (Exchange.finalizes payload) := by
        rw [List.countP_append, hcount, hrelays]
    _ = m'.lost payload := by rw [Nat.add_comm, hadvances.finalized]
    _ = m'.total payload := hsteady.lost_eq_total hclosed payload

/-! ## Every payload ends once -/

/-- The count of an engine that has its machine. -/
theorem Lives.finalized (h : Lives config events e) (hm : e.backend = some m)
    (payload : String × String) : events.countP (Event.finalizes payload) = m.lost payload := by
  obtain ⟨history, m', hused, hkeeps, hrelays⟩ := h.kept
  obtain rfl := hkeeps.eq_of_some hm
  exact (hrelays payload).trans (hused.finalized payload)

theorem Lives.uses (h : Lives config events e) (hm : e.backend = some m)
    {exchanges : List Exchange} (hdealing : Dealing m exchanges m') :
    ∃ events e', Lives config events e' ∧ e'.backend = some m' :=
  ⟨_, _, h.used hm hdealing, rfl⟩

/-- A machine on which an object was just created. -/
@[irreducible]
def begun : Machine := (Backend.createObject (Realm.machine Config.default.strict)).state

theorem lives_begun : ∃ events e, Lives .default events e ∧ e.backend = some begun := by
  unfold begun
  have hcreated : ∃ e, Session.createScripting .default = (.ok e, [.call .globalObject]) ∧
      e.backend = some (Realm.machine Config.default.strict) := ⟨_, rfl, rfl⟩
  obtain ⟨e, hcreate, hbackend⟩ := hcreated
  exact (Lives.created hcreate).uses hbackend (.createObject _)

theorem begun_spec : Steady begun ∧ begun.nextHandle = 2 ∧ begun.ledger.made = [] ∧
    begun.Holds ⟨1⟩ (Realm.machine Config.default.strict).fresh
      (.empty .ordinary (some Realm.objectPrototype)) := by
  have hsteady := steady_machine Config.default.strict
  obtain ⟨hholds, hnext, hledger⟩ := hsteady.holds_createObject rfl (by decide)
  unfold begun
  refine ⟨(hsteady.dealing (.createObject _)).1, hnext, ?_, hholds⟩
  rw [hledger]
  rfl

theorem begun_attaches (payload : Payload) :
    (Backend.setPrivateData ⟨1⟩ payload begun).state.ledger.made = [(begun.fresh, payload)] ∧
      begun.fresh ∈ (Backend.setPrivateData ⟨1⟩ payload begun).state.heap := by
  obtain ⟨hsteady, -, hmade, hholds⟩ := begun_spec
  obtain ⟨flags, -, -, hafter, -, -, hledger⟩ :=
    hsteady.holds_setPrivateData hholds rfl (fun p hp ↦ by cases hp) payload
  rw [hmade] at hledger
  refine ⟨hledger, hafter.mem_of_references
    (hsteady.dealing (.setPrivateData ⟨1⟩ payload begun)).1 ?_⟩
  refine Object.mem_references.mpr (.inr (.inr ⟨_, List.mem_singleton_self _, ?_⟩))
  exact List.mem_singleton_self _

/-- Nothing is lost as long as every carrier of such a payload is there. -/
theorem lost_eq_zero {payload : String × String} (h : ∀ entry ∈ m.ledger.made,
    entry.2 = ⟨payload.2, some payload.1⟩ → entry.1 ∈ m.heap) : m.lost payload = 0 := by
  refine List.countP_eq_zero.mpr fun entry hentry hlost ↦ ?_
  obtain ⟨hgone, hpayload⟩ := Bool.and_eq_true_iff.mp hlost
  have hmem := h entry hentry (of_decide_eq_true hpayload)
  rw [← Std.ExtTreeMap.contains_iff_mem] at hmem
  rw [hmem] at hgone
  cases hgone

end ScriptBridge.Script.Machine
