import Mathlib.Logic.Function.Iterate
import ScriptBridge.Proofs.Engine.Life
import ScriptBridge.Session.Hosting

/-!
# One engine at a time

What is done with a host is told by its deeds: each says what was in the slot before and what came
of it. The engines that a host has had come one after the other. Each is what the factory gave when
an engine was asked for and the slot was empty; it stays until it is destroyed, at the latest with
the host, and nobody else is asked for in the meantime. By then its cleanup has had all of its
effects, and it has had them once, whether a user, the host, or the factory itself has caused them.
-/

namespace ScriptBridge

open Engine

/-- Something that is done with a host. -/
inductive Deed (σ : Type) where
  /-- An engine is asked for. Before, the slot has what was `found`, and then what is `left`. -/
  | get (found : Option (Engine σ)) (result : Except Failure Unit) (left : Option (Engine σ))
  /-- The engine in the slot is acted upon. -/
  | use (before : Engine σ) (events : List Event) (after : Engine σ)
  /-- The engine in the slot is destroyed, with its events up to then. -/
  | destroy (found : Option (Engine σ)) (events : List Event) (left : Option (Engine σ))

/-- An engine is asked for and there is none. -/
def Deed.asksFactory {σ : Type} : Deed σ → Bool
  | .get none _ _ => true
  | _ => false

namespace Host

variable {φ σ : Type} {make : φ → Made φ σ} {fresh : φ} {host host' : Host φ σ}
  {deed : Deed σ} {deeds before after : List (Deed σ)} {e e₀ e₁ : Engine σ} {events : List Event}

/-- The factory after it was called once. -/
def called (make : φ → Made φ σ) (factory : φ) : φ := (make factory).factory

/-- How often the factory has to be asked. -/
def calls (deeds : List (Deed σ)) : Nat := deeds.countP Deed.asksFactory

/-- What the factory makes after a number of calls. -/
def makes (make : φ → Made φ σ) (fresh : φ) (n : Nat) : Made φ σ :=
  make ((called make)^[n] fresh)

variable [Backend σ]

/-- Asking for an engine, as a deed. -/
def getting (make : φ → Made φ σ) (host : Host φ σ) : Deed σ :=
  .get host.engine (host.getInstance make).1 (host.getInstance make).2.2.engine

/-- Destroying the engine, as a deed. A host that is dropped does the same. -/
def destroying (host : Host φ σ) : Deed σ :=
  .destroy host.engine host.destroyInstance.1 host.destroyInstance.2.engine

/-- A deed leads from one state of a host to another. -/
inductive Does (make : φ → Made φ σ) : Host φ σ → Deed σ → Host φ σ → Prop
  | get (host : Host φ σ) : Does make host (host.getting make) (host.getInstance make).2.2
  | use {host : Host φ σ} {e e' : Engine σ} {events : List Event} (he : host.engine = some e)
    (hacts : Acts e events e') :
    Does make host (.use e events e') { host with engine := some e' }
  | destroy (host : Host φ σ) : Does make host host.destroying host.destroyInstance.2

/-- Deeds, one after the other. -/
inductive Runs (make : φ → Made φ σ) : Host φ σ → List (Deed σ) → Host φ σ → Prop
  | refl (host : Host φ σ) : Runs make host [] host
  | tail {host host' host'' : Host φ σ} {deeds : List (Deed σ)} {deed : Deed σ}
    (h : Runs make host deeds host') (hdeed : Does make host' deed host'') :
    Runs make host (deeds ++ [deed]) host''

/-- While an engine stays in the slot, it is asked for and acted upon. -/
inductive Stays : Engine σ → List (Deed σ) → List Event → Engine σ → Prop
  | refl (e : Engine σ) : Stays e [] [] e
  | found {e₀ e : Engine σ} {deeds : List (Deed σ)} {events : List Event}
    (h : Stays e₀ deeds events e) :
    Stays e₀ (deeds ++ [.get (some e) (.ok ()) (some e)]) events e
  | used {e₀ e e' : Engine σ} {deeds : List (Deed σ)} {events more : List Event}
    (h : Stays e₀ deeds events e) (hacts : Acts e more e') :
    Stays e₀ (deeds ++ [.use e more e']) (events ++ more) e'

/-- What a deed is like after the deeds before. The factory is asked by those who find the slot
empty, in their turn, and its answer is passed on; all others get the engine that came last, as it
is by now. -/
def Right (make : φ → Made φ σ) (fresh : φ) (before : List (Deed σ)) : Deed σ → Prop
  | .get none result left =>
    result = (makes make fresh (calls before)).result.map (fun _ ↦ ()) ∧
      left = (makes make fresh (calls before)).result.toOption
  | .get (some e) result left => result = .ok () ∧ left = some e ∧ Stayed before e
  | .use e _ _ => Stayed before e
  | .destroy none events left => events = [] ∧ left = none
  | .destroy (some e) _ left => left = none ∧ Stayed before e
where
  /-- The engine is the one that was asked for last when there was none. -/
  Stayed (before : List (Deed σ)) (e : Engine σ) : Prop :=
    ∃ earlier e₀ stay events, before = earlier ++ .get none (.ok ()) (some e₀) :: stay ∧
      Stays e₀ stay events e

/-- The engine stays, and is destroyed in the end. -/
def Ends (e : Engine σ) (after : List (Deed σ)) : Prop :=
  ∃ stay used e' rest, Stays e stay used e' ∧
    after = stay ++ .destroy (some e') (cleanup e').2.trace none :: rest

/-- The engine stays and is destroyed in the end. With this, whatever its life was before, its
cleanup has had its effects once, and when it is dropped as well nothing more happens. -/
def EndsOnce (e : Engine σ) (after : List (Deed σ)) : Prop :=
  ∃ stay used e' final rest, Stays e stay used e' ∧
    after = stay ++ .destroy (some e') (e'.trace ++ final) none :: rest ∧
    (∀ {e₀ events}, Lived e₀ events e → Once e₀ (events ++ used ++ final)) ∧
    cleanup (cleanup e').2 = ((), (cleanup e').2)

/-- A host has its engines one at a time. -/
structure OneAtATime (make : φ → Made φ σ) (fresh : φ) (deeds : List (Deed σ))
    (host : Host φ σ) : Prop where
  /-- The factory was called as often as the slot was found empty. -/
  factory : host.factory = (called make)^[calls deeds] fresh
  right : ∀ {before deed after}, deeds = before ++ deed :: after → Right make fresh before deed
  /-- No engine is asked of the factory before the last one was destroyed. -/
  ends : ∀ {before result e after}, deeds = before ++ .get none result (some e) :: after →
    EndsOnce e after

/-! ## Deeds -/

omit [Backend σ] in
/-- A deed among deeds is the last one, or it is among those before. -/
theorem concat_eq_append_cons {later : Deed σ} (h : deeds ++ [later] = before ++ deed :: after) :
    (before = deeds ∧ deed = later ∧ after = []) ∨
      ∃ between, after = between ++ [later] ∧ deeds = before ++ deed :: between := by
  rcases List.eq_nil_or_concat after with rfl | ⟨between, last, rfl⟩
  · obtain ⟨rfl, hlast⟩ := List.append_inj' h rfl
    exact .inl ⟨rfl, (List.singleton_inj.mp hlast).symm, rfl⟩
  · rw [List.concat_eq_append, ← List.cons_append, ← List.append_assoc] at h
    obtain ⟨rfl, hlast⟩ := List.append_inj' h rfl
    obtain rfl := List.singleton_inj.mp hlast
    exact .inr ⟨between, List.concat_eq_append, rfl⟩

theorem Stays.acts (h : Stays e₀ deeds events e) : Acts e₀ events e := by
  induction h with
  | refl => exact .refl _
  | found _ ih => exact ih
  | used _ hacts ih => exact ih.trans hacts

theorem Ends.concat (h : Ends e after) (deed : Deed σ) : Ends e (after ++ [deed]) := by
  obtain ⟨stay, used, e', rest, hstays, rfl⟩ := h
  exact ⟨stay, used, e', rest ++ [deed], hstays, by simp⟩

/-- The engine in the slot is the one that was asked for, or this one has been destroyed. -/
def Tenanted (host : Host φ σ) (e : Engine σ) (after : List (Deed σ)) : Prop :=
  (∃ used e', host.engine = some e' ∧ Stays e after used e') ∨ Ends e after

/-- What is kept by all deeds. -/
structure Kept (make : φ → Made φ σ) (fresh : φ) (deeds : List (Deed σ)) (host : Host φ σ) :
    Prop where
  factory : host.factory = (called make)^[calls deeds] fresh
  stayed : ∀ {e}, host.engine = some e → Right.Stayed deeds e
  right : ∀ {before deed after}, deeds = before ++ deed :: after → Right make fresh before deed
  tenanted : ∀ {before result e after}, deeds = before ++ .get none result (some e) :: after →
    Tenanted host e after

theorem kept_empty (make : φ → Made φ σ) (fresh : φ) :
    Kept make fresh [] (.empty fresh) where
  factory := rfl
  stayed h := by cases h
  right h := by simp at h
  tenanted h := by simp at h

omit [Backend σ] in
theorem calls_concat (deeds : List (Deed σ)) (deed : Deed σ) :
    calls (deeds ++ [deed]) = calls deeds + if deed.asksFactory then 1 else 0 := by
  rw [calls, List.countP_append, List.countP_singleton, calls]

/-- After a deed by which the slot does not become occupied it is enough to look at the deed. -/
theorem Kept.concat (h : Kept make fresh deeds host) (hright : Right make fresh deeds deed)
    (hfactory : host'.factory = (called make)^[calls (deeds ++ [deed])] fresh)
    (hstayed : ∀ {e}, host'.engine = some e → Right.Stayed (deeds ++ [deed]) e)
    (hnew : ∀ {result e}, deed = .get none result (some e) → host'.engine = some e)
    (hold : ∀ {e used e' after}, host.engine = some e' → Stays e after used e' →
      Tenanted host' e (after ++ [deed])) :
    Kept make fresh (deeds ++ [deed]) host' where
  factory := hfactory
  stayed := hstayed
  right hsplit := by
    rcases concat_eq_append_cons hsplit with ⟨rfl, rfl, -⟩ | ⟨between, -, hbefore⟩
    · exact hright
    · exact h.right hbefore
  tenanted hsplit := by
    rcases concat_eq_append_cons hsplit with ⟨rfl, rfl, rfl⟩ | ⟨between, rfl, hbefore⟩
    · exact .inl ⟨[], _, hnew rfl, .refl _⟩
    · rcases h.tenanted hbefore with ⟨used, e', hengine, hstays⟩ | hends
      · exact hold hengine hstays
      · exact .inr (hends.concat deed)

theorem Kept.get (h : Kept make fresh deeds host) :
    Kept make fresh (deeds ++ [host.getting make]) (host.getInstance make).2.2 := by
  obtain ⟨engine, current⟩ := host
  obtain rfl : current = _ := h.factory
  cases engine with
  | some e =>
    obtain ⟨earlier, e₀, stay, events, hdeeds, hstays⟩ := h.stayed rfl
    refine h.concat ⟨rfl, rfl, earlier, e₀, stay, events, hdeeds, hstays⟩ ?_ ?_ ?_ ?_
    · rw [calls_concat]
      rfl
    · intro e' he
      cases he
      exact ⟨earlier, e₀, _, events, by rw [hdeeds, List.append_assoc]; rfl, hstays.found⟩
    · intro result e' hdeed
      cases hdeed
    · intro e₀ used e' after he hstays
      cases he
      exact .inl ⟨used, e, rfl, hstays.found⟩
  | none =>
    have hfactory : (makes make fresh (calls deeds)).factory =
        (called make)^[calls deeds + 1] fresh :=
          (Function.iterate_succ_apply' (called make) _ fresh).symm
    have hcalls : ∀ {result left}, calls (deeds ++ [.get none result left]) = calls deeds + 1 :=
      fun {_ _} ↦ calls_concat _ _
    cases hmade : (makes make fresh (calls deeds)).result with
    | ok e =>
      have hget : (⟨none, (called make)^[calls deeds] fresh⟩ : Host φ σ).getInstance make =
          (.ok (), (makes make fresh (calls deeds)).events,
            ⟨some e, (makes make fresh (calls deeds)).factory⟩) := by
        unfold makes at hmade ⊢
        simp only [getInstance, hmade]
      rw [getting, hget]
      refine h.concat ⟨by rw [hmade]; rfl, by rw [hmade]; rfl⟩ (hcalls ▸ hfactory) ?_ ?_ ?_
      · intro e' he
        cases he
        exact ⟨deeds, e, [], [], rfl, .refl e⟩
      · intro result e' hdeed
        cases hdeed
        rfl
      · intro e₀ used e' after he
        cases he
    | error failure =>
      have hget : (⟨none, (called make)^[calls deeds] fresh⟩ : Host φ σ).getInstance make =
          (.error failure, (makes make fresh (calls deeds)).events ++
            [.log .error ("Script engine initialization failed: " ++ failure.message)],
            ⟨none, (makes make fresh (calls deeds)).factory⟩) := by
        unfold makes at hmade ⊢
        simp only [getInstance, hmade]
      rw [getting, hget]
      refine h.concat ⟨by rw [hmade]; rfl, by rw [hmade]; rfl⟩ (hcalls ▸ hfactory) ?_ ?_ ?_
      · intro e' he
        cases he
      · intro result e' hdeed
        cases hdeed
      · intro e₀ used e' after he
        cases he

theorem Kept.use {e' : Engine σ} (h : Kept make fresh deeds host) (he : host.engine = some e)
    (hacts : Acts e events e') :
    Kept make fresh (deeds ++ [.use e events e']) { host with engine := some e' } := by
  obtain ⟨earlier, e₀, stay, used, hdeeds, hstays⟩ := h.stayed he
  refine h.concat ⟨earlier, e₀, stay, used, hdeeds, hstays⟩ ?_ ?_ ?_ ?_
  · rw [calls_concat]
    exact h.factory
  · intro e'' he''
    cases he''
    exact ⟨earlier, e₀, _, _, by rw [hdeeds, List.append_assoc]; rfl, hstays.used hacts⟩
  · intro result e'' hdeed
    cases hdeed
  · intro e₁ used e₂ after he₂ hstays
    rw [he] at he₂
    cases he₂
    exact .inl ⟨_, e', rfl, hstays.used hacts⟩

theorem Kept.destroy (h : Kept make fresh deeds host) :
    Kept make fresh (deeds ++ [host.destroying]) host.destroyInstance.2 := by
  obtain ⟨engine, current⟩ := host
  have hcalls : ∀ {found events left},
      calls (deeds ++ [.destroy found events left]) = calls deeds :=
    fun {_ _ _} ↦ calls_concat _ _
  cases engine with
  | none =>
    refine h.concat ⟨rfl, rfl⟩ (hcalls ▸ h.factory) ?_ ?_ ?_
    · intro e he
      cases he
    · intro result e hdeed
      cases hdeed
    · intro e₀ used e after he
      cases he
  | some e =>
    refine h.concat ⟨rfl, h.stayed rfl⟩ (hcalls ▸ h.factory) ?_ ?_ ?_
    · intro e' he
      cases he
    · intro result e' hdeed
      cases hdeed
    · intro e₀ used e' after he hstays
      cases he
      exact .inr ⟨after, used, e, [], hstays, rfl⟩

theorem Runs.kept (h : Runs make (.empty fresh) deeds host) : Kept make fresh deeds host := by
  generalize hempty : (empty fresh : Host φ σ) = start at h
  induction h with
  | refl => exact hempty ▸ kept_empty make fresh
  | tail _ hdeed ih =>
    cases hdeed with
    | get => exact ih.get
    | use he hacts => exact ih.use he hacts
    | destroy => exact ih.destroy

/-! ## Ends -/

/-- Where engines are made that have a life, one that has stayed and was destroyed was cleaned up
once. -/
theorem Ends.once (h : Ends e after) (hlived : ∃ e₀ events, Lived e₀ events e) :
    EndsOnce e after := by
  obtain ⟨stay, used, e', rest, hstays, rfl⟩ := h
  have hlife : ∀ {e₀ events}, Lived e₀ events e → Lived e₀ (events ++ used) e' :=
    fun hlived ↦ ⟨hlived.1, hlived.2.trans hstays.acts⟩
  obtain ⟨e₀, events, hfirst⟩ := hlived
  obtain ⟨final, htrace, -, hagain⟩ := (hlife hfirst).once_cleanup
  refine ⟨stay, used, e', final, rest, hstays, by rw [htrace], fun hlived ↦ ?_, hagain⟩
  obtain ⟨final', htrace', honce, -⟩ := (hlife hlived).once_cleanup
  obtain rfl : final' = final := List.append_cancel_left (htrace'.symm.trans htrace)
  exact honce

omit [Backend σ] in
/-- Whatever the factory gives to a host, it has made. -/
theorem result_makes_of_left {n : Nat}
    (h : some e = (makes make fresh n).result.toOption) :
    (makes make fresh n).result = .ok e := by
  cases hresult : (makes make fresh n).result with
  | ok e' => rw [hresult] at h; cases h; rfl
  | error => rw [hresult] at h; cases h

/-- Whatever is done with a host until it is dropped, it has its engines one at a time, if its
factory gives engines that were made as engines are. -/
theorem one_at_a_time (hmake : ∀ {factory e}, (make factory).result = .ok e →
      ∃ e₀ events, Lived e₀ events e) (h : Runs make (.empty fresh) deeds host) :
    OneAtATime make fresh (deeds ++ [host.destroying]) host.destroyInstance.2 := by
  have hkept := h.kept.destroy
  refine ⟨hkept.factory, hkept.right, fun hsplit ↦ ?_⟩
  have hmade := hmake (result_makes_of_left (hkept.right hsplit).2)
  rcases hkept.tenanted hsplit with ⟨used, e', hengine, -⟩ | hends
  · obtain ⟨_ | e, _⟩ := host <;> cases hengine
  · exact hends.once hmade

/-! ## A host of rehearsals -/

open Session

/-- Engines for rehearsals are made as engines are. -/
theorem lived_makeRehearsal {recipes : List RehearsalRecipe} {e : Engine Rehearsal}
    (h : (makeRehearsal recipes).result = .ok e) : ∃ e₀ events, Lived e₀ events e := by
  have hrecipe : ∀ {recipe rest}, (makeRehearsal.fromRecipe recipe rest).result = .ok e →
      ∃ e₀ events, Lived e₀ events e := by
    intro recipe rest hresult
    simp only [makeRehearsal.fromRecipe] at hresult
    split at hresult
    · cases hresult
    · exact ⟨e, [], ⟨_, _, _, Prod.ext hresult rfl⟩, .refl e⟩
  cases recipes <;> exact hrecipe h

/-- A factory that fails once and then gives plain engines. -/
def unsteady : Host (List RehearsalRecipe) Rehearsal :=
  .empty [⟨some (.engine "no factory today"), none, default⟩]

/-- The host of an unsteady factory that was asked twice. -/
def furnished : Host (List RehearsalRecipe) Rehearsal :=
  ((unsteady.getInstance makeRehearsal).2.2.getInstance makeRehearsal).2.2

/-- The engine of this host, with a hook. -/
def hooked : Engine Rehearsal := (performSimple (.addBeforeHook "first") rehearsed).2

/-- The engine after its user has cleaned it up. -/
def cleaned : Engine Rehearsal := (performSimple .cleanup hooked).2

/-- The first call of the factory fails, the second gives an engine that its user cleans up. -/
def rehearsedDeeds : List (Deed Rehearsal) :=
  [unsteady.getting makeRehearsal, (unsteady.getInstance makeRehearsal).2.2.getting makeRehearsal,
    .use rehearsed [] hooked, .use hooked cleaned.trace cleaned]

theorem one_at_a_time_unsteady :
    (∀ {recipes e}, (makeRehearsal recipes).result = .ok e → ∃ e₀ events, Lived e₀ events e) ∧
      Runs makeRehearsal unsteady rehearsedDeeds { furnished with engine := some cleaned } ∧
      calls rehearsedDeeds = 2 ∧
      OneAtATime makeRehearsal unsteady.factory
        (rehearsedDeeds ++ [destroying { furnished with engine := some cleaned }])
        (destroyInstance { furnished with engine := some cleaned }).2 := by
  have hfirst : Runs makeRehearsal unsteady [unsteady.getting makeRehearsal] _ :=
    .tail (.refl unsteady) (.get unsteady)
  have hsecond := hfirst.tail (.get (unsteady.getInstance makeRehearsal).2.2)
  have hhooked : Act rehearsed [] hooked := .operate (.addBeforeHook "first") rfl
  have hcleaned : Act hooked cleaned.trace cleaned := .operate .cleanup rfl
  have hthird := hsecond.tail (.use (e := rehearsed) rfl (.single hhooked))
  have hruns : Runs makeRehearsal unsteady rehearsedDeeds
      { furnished with engine := some cleaned } :=
    hthird.tail (.use (e := hooked) rfl (.single hcleaned))
  exact ⟨lived_makeRehearsal, hruns, rfl, one_at_a_time lived_makeRehearsal hruns⟩

end Host

end ScriptBridge
