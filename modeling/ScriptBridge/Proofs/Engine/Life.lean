import ScriptBridge.Proofs.Engine.Working

/-!
# The life of an engine

From its creation on an engine is acted upon: it carries out operations, among them cleanups, it
runs initializers, and its users take its events away or use the backend themselves. The hooks run
and the backend is shut down by a cleanup only. So as long as an engine is valid none of this has
happened; when it is over, all of it has happened once, and from then on it makes no call.
-/

namespace ScriptBridge

/-- Something that only a cleanup does. -/
def Event.isEffect : Event → Bool
  | .beforeCleanup _ | .afterCleanup _ | .call .shutdown => true
  | _ => false

namespace Engine

variable {σ : Type} [Backend σ] {e e' e'' e₀ : Engine σ} {events more : List Event}

/-! ## Acts -/

/-- What can be done to an engine at one go, and the events that this adds. -/
inductive Act : Engine σ → List Event → Engine σ → Prop
  | operate {e : Engine σ} {events : List Event} (op : Operation)
    (htrace : (performSimple op e).2.trace = e.trace ++ events) :
    Act e events (performSimple op e).2
  /-- A start sets its flag before the initializers run. -/
  | begin (e : Engine σ) : Act e [] e.taken
  /-- A start notes what it comes to. -/
  | remark {event : Event} (h : event.isRemark = true)
      (e : Engine σ) : Act e [event] (e.noted event)
  | takeTrace (e : Engine σ) : Act e [] { e with trace := [] }
  /-- A user may use the backend as it likes, which then does things by itself. -/
  | drive {e : Engine σ} {s : σ} (hs : e.backend = some s) (s' : σ) (notices : List Notice) :
    Act e (notices.map Notice.event)
      { e with backend := some s', trace := e.trace ++ notices.map Notice.event }

/-- Acts, one after the other. -/
inductive Acts : Engine σ → List Event → Engine σ → Prop
  | refl (e : Engine σ) : Acts e [] e
  | tail {e e' e'' : Engine σ} {events more : List Event} (h : Acts e events e')
    (hact : Act e' more e'') : Acts e (events ++ more) e''

theorem Acts.single (h : Act e events e') : Acts e events e' := .tail (.refl e) h

theorem Acts.trans (first : Acts e events e') (second : Acts e' more e'') :
    Acts e (events ++ more) e'' := by
  induction second with
  | refl => rwa [List.append_nil]
  | tail _ hact ih => exact List.append_assoc events _ _ ▸ ih.tail hact

theorem Act.move (h : Act e events e') : Relation.ReflTransGen Move e e' := by
  cases h with
  | operate op => exact .single (.operate op e)
  | begin => exact .single (.begin e)
  | remark => exact .single (.trace e _)
  | takeTrace => exact .single (.trace e [])
  | drive hs s' notices =>
    have hfirst : Move e { e with backend := some s' } := .drive hs s'
    exact .tail (.single hfirst) (.trace { e with backend := some s' } _)

theorem Reachable.moves (h : Reachable e) (hmoves : Relation.ReflTransGen Move e e') :
    Reachable e' := by
  induction hmoves with
  | refl => exact h
  | tail _ hmove ih => exact ih.moved hmove

theorem Reachable.acts (h : Reachable e) (hacts : Acts e events e') : Reachable e' := by
  induction hacts with
  | refl => exact h
  | tail _ hact ih => exact ih.moves hact.move

/-! ## What is not an effect of a cleanup -/

/-- No effect of a cleanup is among the events. -/
def Calm (events : List Event) : Prop := ∀ event ∈ events, event.isEffect = false

/-- The events are remarks, and what a backend does by itself: nothing was asked of it. -/
structure Silent (events : List Event) : Prop where
  calm : Calm events
  calls : callsOf events = []

theorem calm_nil : Calm [] := List.forall_mem_nil _

theorem Calm.append (first : Calm events) (second : Calm more) : Calm (events ++ more) :=
  List.forall_mem_append.mpr ⟨first, second⟩

theorem silent_nil : Silent [] := ⟨calm_nil, rfl⟩

theorem Silent.append (first : Silent events) (second : Silent more) : Silent (events ++ more) :=
  ⟨first.calm.append second.calm, by rw [callsOf_append, first.calls, second.calls]; rfl⟩

theorem calm_of_returning {handles : List Handle} (h : Returning events handles) : Calm events := by
  intro event hevent
  have hhook := h.hooks event hevent
  have hshutdown : event ≠ .call .shutdown := by
    rintro rfl
    exact h.shutdown (List.mem_filterMap.mpr ⟨_, hevent, rfl⟩)
  cases event with
  | call call =>
    cases call with
    | shutdown => exact absurd rfl hshutdown
    | _ => rfl
  | beforeCleanup | afterCleanup => cases hhook
  | _ => rfl

theorem silent_notices (notices : List Notice) : Silent (notices.map Notice.event) :=
  ⟨calm_of_returning (.notices notices), callsOf_notices notices⟩

theorem silent_of_remarks (h : ∀ event ∈ events, event.isRemark = true) : Silent events := by
  refine ⟨fun event hevent ↦ ?_, List.filterMap_eq_nil_iff.mpr fun event hevent ↦ ?_⟩
  · have hremark := h event hevent
    cases event <;> first | rfl | cases hremark
  · have hremark := h event hevent
    cases event <;> first | rfl | cases hremark

/-- A pass makes the calls of a visit and gives handles back. -/
theorem calm_pass (r : Registry) (inCleanup : Bool) (state : σ) :
    Calm (Reconcile.pass r inCleanup state).events := by
  let ids := r.nativeEntries.map Prod.snd
  let v := Reconcile.visits ids r inCleanup state
  have hvisits : Returning (⟨r, v.state, v.events⟩ : Reconcile.Sweep σ).events [] :=
    Reconcile.returning_visits ids r inCleanup state
  exact calm_of_returning (Reconcile.returning_dismissals v.doomed hvisits)

/-- A report, however it goes on, adds no effect of a cleanup. -/
theorem calm_run {α : Type} (inCleanup : Bool) (report : Report σ α) (r : Registry)
    (trace : List Event) : ∃ events,
      (Reconcile.run inCleanup report r trace).events = trace ++ events ∧ Calm events := by
  induction report generalizing r trace with
  | done o => exact ⟨_, rfl, (silent_notices o.events).calm⟩
  | events es next ih =>
    obtain ⟨events, htrace, hcalm⟩ := ih r (trace ++ es.map Notice.event)
    refine ⟨es.map Notice.event ++ events, ?_, (silent_notices es).calm.append hcalm⟩
    rw [Reconcile.run, htrace, List.append_assoc]
  | phase p next ih =>
    obtain ⟨events, htrace, hcalm⟩ := ih r (trace ++ [Reconcile.phaseEvent r p])
    have hphase : Calm [Reconcile.phaseEvent r p] := by cases p <;> simp [Calm, Event.isEffect,
      Reconcile.phaseEvent]
    refine ⟨Reconcile.phaseEvent r p :: events, ?_, hphase.append hcalm⟩
    rw [Reconcile.run, htrace, List.append_assoc]
    rfl
  | update state resume ih =>
    let s := Reconcile.pass r inCleanup state
    obtain ⟨events, htrace, hcalm⟩ := ih s.state s.registry (trace ++ s.events)
    refine ⟨s.events ++ events, ?_, (calm_pass r inCleanup state).append hcalm⟩
    calc (Reconcile.run inCleanup (.update state resume) r trace).events
        = trace ++ s.events ++ events := htrace
      _ = trace ++ (s.events ++ events) := List.append_assoc _ _ _

theorem calm_call {call : Call} (h : call ≠ .shutdown) : Calm [.call call] := by
  intro event hevent
  obtain rfl := List.mem_singleton.mp hevent
  cases call <;> first | rfl | exact absurd rfl h

theorem Served.ne_shutdown {call : Call} {s s' : σ} {notices : List Notice}
    (h : Served call s s' notices) : call ≠ .shutdown := by
  cases h <;> simp

/-- Bookkeeping, remarks and calls are no effects of a cleanup. -/
theorem Works.calm (h : Works e e') : ∃ events, e'.trace = e.trace ++ events ∧ Calm events := by
  have hreport : ∀ {α : Type} (e : Engine σ) {call : Call} (report : Report σ α),
      call ≠ .shutdown →
        ∃ events, (e.follow call report).events = e.trace ++ events ∧ Calm events := by
    intro α e call report hcall
    obtain ⟨events, htrace, hcalm⟩ :=
      calm_run e.inCleanup report e.registry (e.trace ++ [.call call])
    exact ⟨.call call :: events, htrace.trans (List.append_assoc _ _ _),
      (calm_call hcall).append hcalm⟩
  induction h with
  | apart h =>
    obtain ⟨remarks, htrace, hremarks⟩ := h.trace
    exact ⟨remarks, htrace, (silent_of_remarks hremarks).calm⟩
  | @heard _ e _ call o _ hcall =>
    exact ⟨_, rfl, (calm_call hcall.ne_shutdown).append (silent_notices o.events).calm⟩
  | @evaluated e s _ source file => exact hreport e (Backend.evaluate source file s) (by simp)
  | @collected e s _ => exact hreport e (Backend.collect s) (by simp)
  | trans _ _ first second =>
    obtain ⟨events, htrace, hcalm⟩ := first
    obtain ⟨more, htrace', hcalm'⟩ := second
    exact ⟨events ++ more, by rw [htrace', htrace, List.append_assoc], hcalm.append hcalm'⟩

/-- Without a backend there are no calls. -/
theorem Works.silent (h : Works e e') (hnone : e.backend = none) :
    e'.backend = none ∧ ∃ events, e'.trace = e.trace ++ events ∧ Silent events := by
  induction h with
  | apart h =>
    obtain ⟨remarks, htrace, hremarks⟩ := h.trace
    exact ⟨h.backend.trans hnone, remarks, htrace, silent_of_remarks hremarks⟩
  | heard hs => rw [hnone] at hs; cases hs
  | evaluated hs => rw [hnone] at hs; cases hs
  | collected hs => rw [hnone] at hs; cases hs
  | trans _ _ first second =>
    obtain ⟨hbetween, events, htrace, hsilent⟩ := first hnone
    obtain ⟨hafter, more, htrace', hsilent'⟩ := second hbetween
    exact ⟨hafter, events ++ more, by rw [htrace', htrace, List.append_assoc],
      hsilent.append hsilent'⟩

/-! ## What a cleanup does -/

/-- The events are those of a cleanup of the engine: its hooks run around everything else, and its
backend is shut down once, when every handle has been given back as often as it was owned. -/
def Teardown (e : Engine σ) (events : List Event) : Prop :=
  ∃ (giving : List Event) (notices : List Notice),
    events = e.beforeHooks.map .beforeCleanup ++ giving ++
      .call .shutdown :: notices.map Notice.event ++ e.afterHooks.map .afterCleanup ∧
    Calm giving ∧
    ∀ handle, ((callsOf giving).filterMap Call.givenBack?).count handle = claims e handle

theorem teardown_cleanup (h : Reachable e) (hvalid : e.isValid = true) :
    ∃ events, (cleanup e).2.trace = e.trace ++ events ∧ Teardown e events := by
  have hformed := h.wellFormed
  have hbackend : e.backend.isSome = true := hformed.isValid ▸ hvalid
  obtain ⟨given, hreturns, hperm⟩ := returns_emptied hformed.orderly.coherent hbackend
  obtain ⟨giving, hgiving, hreturning⟩ := hreturns.events
  obtain ⟨s, hs⟩ := Option.isSome_iff_exists.mp (hreturns.backend.trans hbackend)
  refine ⟨_, ?_, giving, (Backend.shutdown s).events, rfl, calm_of_returning hreturning, ?_⟩
  · rw [cleanup_eq hvalid, shutdownBackend_some hs]
    show (emptied e).trace ++ _ ++ (emptied e).afterHooks.map _ = _
    rw [hreturns.afterHooks, hgiving]
    simp only [begun, List.append_assoc, List.cons_append]
  · intro handle
    rw [hreturning.given, hperm.count_eq, count_owned]

/-- Where the engine that came from `e₀` was torn down, all effects of its cleanup are found once;
before there was none, and afterwards nothing is asked of the backend. -/
def Once (e₀ : Engine σ) (events : List Event) : Prop :=
  ∃ (e : Engine σ) (before during after : List Event), Acts e₀ before e ∧ e.isValid = true ∧
    events = before ++ during ++ after ∧ Calm before ∧ Teardown e during ∧ Silent after

/-- What has become of an engine, and whether its cleanup is among the events. -/
inductive Story (e : Engine σ) (events : List Event) (e' : Engine σ) : Prop
  | living (hbefore : e.isValid = true) (hafter : e'.isValid = true) (hcalm : Calm events)
  | ending (hbefore : e.isValid = true) (hafter : e'.isValid = false) (honce : Once e events)
  | past (hbefore : e.isValid = false) (hafter : e'.isValid = false) (hsilent : Silent events)

theorem Story.of_silent (hvalid : e'.isValid = e.isValid) (h : Silent events) :
    Story e events e' := by
  cases hbefore : e.isValid with
  | true => exact .living hbefore (hvalid.trans hbefore) h.calm
  | false => exact .past hbefore (hvalid.trans hbefore) h

theorem Once.prepend (hacts : Acts e events e') (hcalm : Calm events) (h : Once e' more) :
    Once e (events ++ more) := by
  obtain ⟨e₁, before, during, after, hbefore, hvalid, rfl, hcalm', hduring, hafter⟩ := h
  exact ⟨e₁, events ++ before, during, after, hacts.trans hbefore, hvalid, by simp,
    hcalm.append hcalm', hduring, hafter⟩

theorem Once.append (h : Once e events) (hsilent : Silent more) : Once e (events ++ more) := by
  obtain ⟨e₁, before, during, after, hbefore, hvalid, rfl, hcalm, hduring, hafter⟩ := h
  exact ⟨e₁, before, during, after ++ more, hbefore, hvalid, by simp, hcalm, hduring,
    hafter.append hsilent⟩

theorem Story.trans (hacts : Acts e events e') (first : Story e events e')
    (second : Story e' more e'') : Story e (events ++ more) e'' := by
  cases first with
  | living hbefore hbetween hcalm =>
    cases second with
    | living _ hafter hcalm' => exact .living hbefore hafter (hcalm.append hcalm')
    | ending _ hafter honce => exact .ending hbefore hafter (honce.prepend hacts hcalm)
    | past hover => rw [hbetween] at hover; cases hover
  | ending hbefore hbetween honce =>
    cases second with
    | past _ hafter hsilent => exact .ending hbefore hafter (honce.append hsilent)
    | living hvalid | ending hvalid => rw [hbetween] at hvalid; cases hvalid
  | past hbefore hbetween hsilent =>
    cases second with
    | past _ hafter hsilent' => exact .past hbefore hafter (hsilent.append hsilent')
    | living hvalid | ending hvalid => rw [hbetween] at hvalid; cases hvalid

/-- A cleanup of a valid engine has all its effects, and one of an engine that is over has none. -/
theorem story_cleanup (h : Reachable e) :
    ∃ events, (cleanup e).2.trace = e.trace ++ events ∧ Story e events (cleanup e).2 := by
  cases hvalid : e.isValid with
  | true =>
    obtain ⟨events, htrace, hteardown⟩ := teardown_cleanup h hvalid
    exact ⟨events, htrace, .ending hvalid (cleanup_of_valid hvalid).isValid
      ⟨e, [], events, [], .refl e, hvalid, by simp, calm_nil, hteardown, silent_nil⟩⟩
  | false =>
    rw [cleanup_of_invalid hvalid]
    exact ⟨[], by simp, .past hvalid hvalid silent_nil⟩

/-- An operation adds to the trace. Unless it is a cleanup it adds no effect of one. -/
theorem story_performSimple (h : Reachable e) (op : Operation) :
    ∃ events, (performSimple op e).2.trace = e.trace ++ events ∧
      Story e events (performSimple op e).2 := by
  by_cases hop : op = .cleanup
  · subst hop
    rw [performSimple, run_return, run_surely]
    exact story_cleanup h
  · have hworks := works_performSimple hop e
    have hframe := (frame_performSimple hop e).isValid
    cases hvalid : e.isValid with
    | true =>
      obtain ⟨events, htrace, hcalm⟩ := hworks.calm
      exact ⟨events, htrace, .living hvalid (hframe.trans hvalid) hcalm⟩
    | false =>
      obtain ⟨-, events, htrace, hsilent⟩ :=
        hworks.silent (h.wellFormed.spent_of_invalid hvalid).backend
      exact ⟨events, htrace, .past hvalid (hframe.trans hvalid) hsilent⟩

theorem Act.story (h : Reachable e) (hact : Act e events e') : Story e events e' := by
  cases hact with
  | operate op htrace =>
    obtain ⟨events', htrace', hstory⟩ := story_performSimple h op
    obtain rfl : events = events' := List.append_cancel_left (htrace.symm.trans htrace')
    exact hstory
  | begin => exact .of_silent rfl silent_nil
  | @remark event hremark => exact .of_silent rfl (silent_of_remarks (by simpa using hremark))
  | takeTrace => exact .of_silent rfl silent_nil
  | drive _ _ notices => exact .of_silent rfl (silent_notices notices)

/-- The effects of the cleanup are among the events once if the engine was valid and is over, and
else they are not. -/
theorem Acts.story (h : Reachable e) (hacts : Acts e events e') : Story e events e' := by
  induction hacts with
  | refl => exact .of_silent rfl silent_nil
  | tail hacts hact ih => exact ih.trans hacts (hact.story (h.acts hacts))

/-- The engine was created as `e₀` and then acted upon, which added these events. -/
def Lived (e₀ : Engine σ) (events : List Event) (e : Engine σ) : Prop :=
  (∃ state config created, create state config = (.ok e₀, created)) ∧ Acts e₀ events e

theorem Lived.reachable (h : Lived e₀ events e) : Reachable e := by
  obtain ⟨⟨state, config, created, hcreate⟩, hacts⟩ := h
  exact (Reachable.created hcreate).acts hacts

/-- Over the whole life of an engine that is over, its cleanup had its effects once. -/
theorem Lived.once (h : Lived e₀ events e) (hover : e.isValid = false) : Once e₀ events := by
  obtain ⟨⟨state, config, created, hcreate⟩, hacts⟩ := h
  cases hacts.story (.created hcreate) with
  | ending _ _ honce => exact honce
  | living _ hvalid => rw [hover] at hvalid; cases hvalid
  | past hbefore =>
    obtain ⟨global, s, rfl⟩ := create_eq_ok hcreate
    cases hbefore

/-- A last cleanup leaves an engine that is over, and a further one does nothing. -/
theorem Lived.once_cleanup (h : Lived e₀ events e) :
    ∃ final, (cleanup e).2.trace = e.trace ++ final ∧ Once e₀ (events ++ final) ∧
      cleanup (cleanup e).2 = ((), (cleanup e).2) := by
  obtain ⟨final, htrace, -⟩ := story_cleanup h.reachable
  have hcleanup : (performSimple .cleanup e).2 = (cleanup e).2 := by
    rw [performSimple, run_return, run_surely]
  have hact : Act e final (cleanup e).2 := by
    rw [← hcleanup] at htrace ⊢
    exact .operate .cleanup htrace
  have hover : (cleanup e).2.isValid = false := by
    cases hvalid : e.isValid with
    | true => exact (cleanup_of_valid hvalid).isValid
    | false => rwa [cleanup_of_invalid hvalid]
  have hlived : Lived e₀ (events ++ final) (cleanup e).2 := ⟨h.1, h.2.tail hact⟩
  exact ⟨final, htrace, hlived.once hover, cleanup_of_invalid hover⟩

/-! ## Starts -/

/-- Acts that add to the trace what is said. -/
def Lengthens (e e' : Engine σ) : Prop :=
  Reachable e → ∃ events, e'.trace = e.trace ++ events ∧ Acts e events e'

instance : IsPreorder (Engine σ) Lengthens where
  refl e _ := ⟨[], by simp, .refl e⟩
  trans e e' e'' first second h := by
    obtain ⟨events, htrace, hacts⟩ := first h
    obtain ⟨more, htrace', hacts'⟩ := second (h.acts hacts)
    exact ⟨events ++ more, by rw [htrace', htrace, List.append_assoc], hacts.trans hacts'⟩

/-- However starts nest, performing an operation is a sequence of acts. -/
theorem acts_perform (h : Reachable e) {repertoire : Repertoire} {depth : Nat} {op : Operation}
    {reply : Except Failure Reply} (hrun : perform repertoire depth op e = some (reply, e')) :
    ∃ events, e'.trace = e.trace ++ events ∧ Acts e events e' := by
  have hsimple : ∀ op, Along Lengthens (performSimple (σ := σ) op) := by
    intro op e h
    obtain ⟨events, htrace, -⟩ := story_performSimple h op
    exact ⟨events, htrace, .single (.operate op htrace)⟩
  have hnoted : ∀ (event : Event) (e : Engine σ), event.isRemark = true →
      Lengthens e (e.noted event) :=
    fun event e hremark _ ↦ ⟨[event], rfl, .single (.remark hremark e)⟩
  have hbegin : ∀ e : Engine σ, Lengthens e e.taken :=
    fun e _ ↦ ⟨[], (List.append_nil _).symm, .single (.begin e)⟩
  exact leads_perform hsimple hbegin hnoted repertoire depth op hrun h

end Engine

end ScriptBridge
