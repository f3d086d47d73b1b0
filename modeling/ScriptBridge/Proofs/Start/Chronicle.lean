import Mathlib.Data.List.Induction
import Mathlib.Data.List.Nodup
import ScriptBridge.Failure

/-!
# Chronicles of module initializers

A chronicle notes what happens to module initializers: registrations, starts with what they take
from the queue, invocations and what comes of them, and cleanups. What waits for the next start can
be read off it, and so can the account that each start gives of what it took. A chronicle is regular
if registrations and starts are numbered in turn, no name waits twice, and every start takes all
that waits. Then no two starts take the same registration.
-/

namespace ScriptBridge

/-- A registration that succeeded. An initializer may be registered again once it has been taken
from the queue, so registrations are numbered. -/
structure Registration where
  number : Nat
  name : String
  deriving DecidableEq

/-- Something that happened to module initializers. Starts are numbered as well. -/
inductive Mark where
  | registered (r : Registration)
  /-- A start took these registrations from the queue. -/
  | began (start : Nat) (taken : List Registration)
  | invoked (start position : Nat) (r : Registration)
  | succeeded (start position : Nat)
  | ended (start : Nat) (result : Except Failure Unit)
  /-- A cleanup emptied the queue. -/
  | tornDown

namespace Mark

def registration? : Mark → Option Registration
  | registered r => some r
  | _ => none

def taken? : Mark → Option (List Registration)
  | began _ taken => some taken
  | _ => none

def invocation? : Mark → Option Registration
  | invoked _ _ r => some r
  | _ => none

/-- The start that a mark is about. -/
def start? : Mark → Option Nat
  | began start _ | invoked start _ _ | succeeded start _ | ended start _ => some start
  | registered _ | tornDown => none

/-- What a mark makes of the registrations that wait. -/
def queue (waiting : List Registration) : Mark → List Registration
  | registered r => waiting ++ [r]
  | began _ _ | tornDown => []
  | _ => waiting

/-- The mark leaves nothing waiting. -/
def Empties : Mark → Prop
  | began _ _ | tornDown => True
  | _ => False

end Mark

namespace Chronicle

/-- All registrations, in order. -/
def accepted (h : List Mark) : List Registration := h.filterMap Mark.registration?

/-- What the starts took, in the order of the starts. -/
def takings (h : List Mark) : List (List Registration) := h.filterMap Mark.taken?

/-- The registrations that were invoked, in order. -/
def invocations (h : List Mark) : List Registration := h.filterMap Mark.invocation?

/-- The registrations that wait for the next start. -/
def waiting (h : List Mark) : List Registration := h.foldl Mark.queue []

/-- The marks of one start. -/
def ofStart (start : Nat) (h : List Mark) : List Mark := h.filter fun m ↦ m.start? = some start

variable {h before later : List Mark} {m : Mark} {r : Registration} {start : Nat}
  {taken : List Registration}

section Append

variable (h later : List Mark)

@[simp]
theorem accepted_append : accepted (h ++ later) = accepted h ++ accepted later :=
  List.filterMap_append

@[simp]
theorem takings_append : takings (h ++ later) = takings h ++ takings later :=
  List.filterMap_append

@[simp]
theorem ofStart_append : ofStart start (h ++ later) = ofStart start h ++ ofStart start later :=
  List.filter_append h later

variable (m : Mark)

@[simp]
theorem accepted_concat : accepted (h ++ [m]) = accepted h ++ m.registration?.toList := by
  rw [accepted_append]
  cases m <;> rfl

@[simp]
theorem takings_concat : takings (h ++ [m]) = takings h ++ m.taken?.toList := by
  rw [takings_append]
  cases m <;> rfl

@[simp]
theorem invocations_concat : invocations (h ++ [m]) = invocations h ++ m.invocation?.toList := by
  rw [invocations, List.filterMap_append]
  cases m <;> rfl

@[simp]
theorem waiting_concat : waiting (h ++ [m]) = m.queue (waiting h) := by
  rw [waiting, List.foldl_append]
  rfl

end Append

theorem mem_accepted_iff : r ∈ accepted h ↔ .registered r ∈ h := by
  rw [accepted, List.mem_filterMap]
  constructor
  · rintro ⟨m, hm, hr⟩
    cases m <;> cases hr
    exact hm
  · exact fun hmem ↦ ⟨_, hmem, rfl⟩

theorem mem_invocations_iff :
    r ∈ invocations h ↔ ∃ start position, .invoked start position r ∈ h := by
  rw [invocations, List.mem_filterMap]
  constructor
  · rintro ⟨m, hm, hr⟩
    cases m <;> cases hr
    exact ⟨_, _, hm⟩
  · rintro ⟨start, position, hmem⟩
    exact ⟨_, hmem, rfl⟩

/-! ## What waits -/

/-- What waits has waited before, or it was registered later. -/
theorem mem_waiting_append (hr : r ∈ waiting (h ++ later)) :
    r ∈ waiting h ∨ .registered r ∈ later := by
  induction later using List.reverseRecOn with
  | nil => exact .inl (by rwa [List.append_nil] at hr)
  | append_singleton later m ih =>
    rw [← List.append_assoc, waiting_concat] at hr
    have hstay : r ∈ waiting (h ++ later) → r ∈ waiting h ∨ .registered r ∈ later ++ [m] :=
      fun hold ↦ (ih hold).imp_right (List.mem_append_left [m])
    cases m with
    | registered s =>
      rcases List.mem_append.mp hr with hold | hnew
      · exact hstay hold
      · obtain rfl := List.mem_singleton.mp hnew
        exact .inr (by simp)
    | began => cases hr
    | tornDown => cases hr
    | _ => exact hstay hr

theorem mem_accepted_of_mem_waiting (hr : r ∈ waiting h) : r ∈ accepted h := by
  rcases mem_waiting_append (h := []) hr with hnone | hregistered
  · cases hnone
  · exact mem_accepted_iff.mpr hregistered

/-- What waits stays until the queue is emptied. -/
theorem mem_waiting_of_forall (hr : r ∈ waiting h) (hlater : ∀ m ∈ later, ¬ m.Empties) :
    r ∈ waiting (h ++ later) := by
  induction later using List.reverseRecOn with
  | nil => rwa [List.append_nil]
  | append_singleton later m ih =>
    have hold := ih fun m hm ↦ hlater m (List.mem_append_left _ hm)
    rw [← List.append_assoc, waiting_concat]
    cases m with
    | registered => exact List.mem_append_left _ hold
    | began start taken => exact absurd trivial (hlater (.began start taken) (by simp))
    | tornDown => exact absurd trivial (hlater .tornDown (by simp))
    | _ => exact hold

/-! ## Regular chronicles -/

/-- A mark may come after a chronicle. -/
def Follows (h : List Mark) : Mark → Prop
  | .registered r => r.number = (accepted h).length ∧ r.name ∉ (waiting h).map Registration.name
  | .began start taken => start = (takings h).length ∧ taken = waiting h
  | .invoked start _ _ | .succeeded start _ | .ended start _ => start < (takings h).length
  | .tornDown => True

/-- Every mark may come where it comes. -/
inductive Regular : List Mark → Prop
  | nil : Regular []
  | concat {h : List Mark} {m : Mark} (before : Regular h) (hm : Follows h m) : Regular (h ++ [m])

theorem regular_concat_iff : Regular (h ++ [m]) ↔ Regular h ∧ Follows h m := by
  constructor
  · generalize hwhole : h ++ [m] = whole
    rintro (_ | ⟨hbefore, hm⟩)
    · simp at hwhole
    · obtain ⟨rfl, rfl⟩ := List.append_singleton_inj.mp hwhole
      exact ⟨hbefore, hm⟩
  · exact fun ⟨hbefore, hm⟩ ↦ .concat hbefore hm

namespace Regular

theorem of_append (hreg : Regular (h ++ later)) : Regular h := by
  induction later using List.reverseRecOn with
  | nil => rwa [List.append_nil] at hreg
  | append_singleton later m ih =>
    rw [← List.append_assoc, regular_concat_iff] at hreg
    exact ih hreg.1

theorem follows (hreg : Regular (before ++ m :: later)) : Follows before m := by
  rw [List.append_cons] at hreg
  exact (regular_concat_iff.mp hreg.of_append).2

theorem number_accepted (hreg : Regular h) :
    (accepted h).map Registration.number = List.range (accepted h).length := by
  induction hreg with
  | nil => rfl
  | @concat h m _ hm ih =>
    rw [accepted_concat]
    cases m with
    | registered r =>
      simp only [Mark.registration?, Option.toList_some, List.map_append, List.map_singleton, ih,
        List.length_append, List.length_singleton, List.range_succ, hm.1]
    | _ => simpa only [Mark.registration?, Option.toList_none, List.append_nil] using ih

/-- No registration is noted twice. -/
theorem nodup_accepted (hreg : Regular h) : (accepted h).Nodup :=
  .of_map Registration.number (hreg.number_accepted ▸ List.nodup_range)

theorem not_mem_of_accepted (hreg : Regular (h ++ later)) (hr : r ∈ accepted h) :
    .registered r ∉ later := by
  intro hmem
  have hnodup := hreg.nodup_accepted
  rw [accepted_append] at hnodup
  exact List.disjoint_of_nodup_append hnodup hr (mem_accepted_iff.mpr hmem)

theorem nodup_waiting (hreg : Regular h) : ((waiting h).map Registration.name).Nodup := by
  induction hreg with
  | nil => exact List.nodup_nil
  | @concat h m _ hm ih =>
    rw [waiting_concat]
    cases m with
    | registered r =>
      rw [Mark.queue, List.map_append, List.map_singleton, List.nodup_append_comm]
      exact List.nodup_cons.mpr ⟨hm.2, ih⟩
    | began => exact List.nodup_nil
    | tornDown => exact List.nodup_nil
    | _ => exact ih

/-- A start is found by its number. -/
theorem takings_getElem? (hreg : Regular h) (hbegan : .began start taken ∈ h) :
    (takings h)[start]? = some taken := by
  obtain ⟨before, later, rfl⟩ := List.append_of_mem hbegan
  obtain ⟨rfl, -⟩ := hreg.follows
  rw [List.append_cons, takings_append, takings_concat]
  simp [Mark.taken?]

theorem start_lt (hreg : Regular h) (hm : m ∈ h) (hstart : m.start? = some start) :
    start < (takings h).length := by
  obtain ⟨before, later, rfl⟩ := List.append_of_mem hm
  have hfollows := hreg.follows
  rw [List.append_cons, takings_append, takings_concat, List.length_append, List.length_append]
  cases m with
  | began start taken =>
    cases hstart
    have hnew : (Mark.began start taken).taken?.toList.length = 1 := rfl
    have hnumber : start = (takings before).length := hfollows.1
    omega
  | invoked | succeeded | ended =>
    cases hstart
    exact Nat.lt_of_lt_of_le hfollows (by omega)
  | registered | tornDown => cases hstart

/-- What the starts took and what waits are registrations in their order. -/
theorem sublist_accepted (hreg : Regular h) :
    ((takings h).flatten ++ waiting h).Sublist (accepted h) := by
  induction hreg with
  | nil => exact .slnil
  | @concat h m _ hm ih =>
    rw [takings_concat, accepted_concat, waiting_concat]
    cases m with
    | registered r =>
      have hboth := ih.append_right [r]
      simpa [Mark.taken?, Mark.queue, Mark.registration?] using hboth
    | began start taken =>
      obtain ⟨-, rfl⟩ := hm
      simpa [Mark.taken?, Mark.queue, Mark.registration?] using ih
    | tornDown =>
      have hsome := (List.sublist_append_left (takings h).flatten (waiting h)).trans ih
      simpa [Mark.taken?, Mark.queue, Mark.registration?] using hsome
    | _ => simpa [Mark.taken?, Mark.queue, Mark.registration?] using ih

/-- No registration is taken twice. -/
theorem nodup_takings (hreg : Regular h) : (takings h).flatten.Nodup :=
  ((List.sublist_append_left _ _).trans hreg.sublist_accepted).nodup hreg.nodup_accepted

theorem nodup_taken (hreg : Regular h) (hbegan : .began start taken ∈ h) : taken.Nodup :=
  (List.nodup_flatten.mp hreg.nodup_takings).1 taken
    (List.mem_of_getElem? (hreg.takings_getElem? hbegan))

/-- A registration is taken by one start at most. -/
theorem start_unique {other : Nat} {own : List Registration} (hreg : Regular h)
    (hbegan : .began start taken ∈ h) (hother : .began other own ∈ h) (hr : r ∈ taken)
    (hr' : r ∈ own) : start = other := by
  obtain ⟨hlt, rfl⟩ := List.getElem?_eq_some_iff.mp (hreg.takings_getElem? hbegan)
  obtain ⟨hlt', rfl⟩ := List.getElem?_eq_some_iff.mp (hreg.takings_getElem? hother)
  have hpair := List.pairwise_iff_getElem.mp (List.nodup_flatten.mp hreg.nodup_takings).2
  rcases Nat.lt_trichotomy start other with hbefore | hsame | hafter
  · exact absurd hr' (hpair start other hlt hlt' hbefore hr)
  · exact hsame
  · exact absurd hr (hpair other start hlt' hlt hafter hr')

/-- A later start takes registrations that came since this one began, and none of its own. -/
theorem apart {other : Nat} {own : List Registration}
    (hreg : Regular (before ++ .began start taken :: later)) (hother : .began other own ∈ later)
    (hr : r ∈ own) : .registered r ∈ later ∧ r ∉ taken := by
  obtain ⟨between, rest, rfl⟩ := List.append_of_mem hother
  have hwhole : before ++ .began start taken :: (between ++ .began other own :: rest) =
      (before ++ [.began start taken] ++ between) ++ .began other own :: rest := by simp
  have hregular := hreg
  rw [hwhole] at hregular
  obtain ⟨-, rfl⟩ := hregular.follows
  have hsince : .registered r ∈ between := by
    rcases mem_waiting_append hr with hnone | hregistered
    · rw [waiting_concat] at hnone
      cases hnone
    · exact hregistered
  refine ⟨List.mem_append_left _ hsince, fun htaken ↦ ?_⟩
  obtain ⟨-, rfl⟩ := hreg.follows
  exact hreg.not_mem_of_accepted (mem_accepted_of_mem_waiting htaken) (by simp [hsince])

end Regular

end Chronicle

end ScriptBridge
