import ScriptBridge.Proofs.Script.Changes

/-!
# The pending exception

An interpretation without a result leaves an exception pending. One that has a result raises none of
its own: an exception that is pending then was pending before, or native code has passed over it
meanwhile. Of those that native code has passed over the last one is pending, unless it was taken.
-/

namespace ScriptBridge.Script.Machine

variable {m m' m'' : Machine} {hasResult : Bool}

/-- What has become of the pending exception, and what native code has passed over, when an
interpretation has ended with or without a result. -/
def Accounts (m : Machine) (hasResult : Bool) (m' : Machine) : Prop :=
  ∃ passed, m'.overlooked = m.overlooked ++ passed ∧
    if hasResult then m'.pending = none ∨ m'.pending = passed.getLast?.or m.pending
    else m'.pending.isSome = true

namespace Accounts

theorem of_eq (hpending : m'.pending = m.pending) (hoverlooked : m'.overlooked = m.overlooked) :
    Accounts m true m' :=
  ⟨[], by rw [hoverlooked, List.append_nil], .inr hpending⟩

theorem refl (m : Machine) : Accounts m true m := of_eq rfl rfl

theorem of_raised {thrown : Datum} (hpending : m'.pending = some thrown)
    (hoverlooked : m'.overlooked = m.overlooked) : Accounts m false m' :=
  ⟨[], by rw [hoverlooked, List.append_nil], by rw [hpending]; rfl⟩

theorem of_taken (hpending : m'.pending = none) (hoverlooked : m'.overlooked = m.overlooked) :
    Accounts m true m' :=
  ⟨[], by rw [hoverlooked, List.append_nil], .inl hpending⟩

theorem trans (first : Accounts m true m') (second : Accounts m' hasResult m'') :
    Accounts m hasResult m'' := by
  obtain ⟨passed, hpassed, hbefore⟩ := first
  obtain ⟨more, hmore, hafter⟩ := second
  refine ⟨passed ++ more, by rw [hmore, hpassed, List.append_assoc], ?_⟩
  cases hasResult with
  | false => exact hafter
  | true =>
    rcases hafter with hnone | hlast
    · exact .inl hnone
    · cases hmore : more.getLast? with
      | some last => exact .inr (by rw [hlast, List.getLast?_append, hmore]; rfl)
      | none =>
        rw [hmore, Option.none_or] at hlast
        rw [List.getLast?_eq_none_iff.mp hmore, List.append_nil, hlast]
        exact hbefore

/-- Only the pending exception and those that were passed over matter. -/
theorem congr (h : Accounts m hasResult m') (hpending : m''.pending = m'.pending)
    (hoverlooked : m''.overlooked = m'.overlooked) : Accounts m hasResult m'' := by
  rw [Accounts, hpending, hoverlooked]
  exact h

/-- An exception is passed over. -/
theorem overlook (h : Accounts m false m') : Accounts m true m'.overlook := by
  obtain ⟨passed, hpassed, hsome⟩ := h
  obtain ⟨thrown, hthrown⟩ := Option.isSome_iff_exists.mp hsome
  refine ⟨passed ++ [thrown], ?_, .inr ?_⟩
  · rw [Machine.overlook, hpassed, hthrown, List.append_assoc]
    rfl
  · rw [List.getLast?_append]
    exact hthrown

/-- An exception is taken, whether the interpretation has a result or not. -/
theorem taken (h : Accounts m hasResult m') : Accounts m true { m' with pending := none } := by
  obtain ⟨passed, hpassed, -⟩ := h
  exact ⟨passed, hpassed, .inl rfl⟩

theorem settle (h : Accounts m hasResult m') (kept : List ObjectId) :
    Accounts m hasResult (m'.settle kept) := by
  refine h.congr ?_ ?_ <;> rw [settle_eq]

theorem sweep (m : Machine) : Accounts m true m.sweep := by
  refine .of_eq ?_ ?_ <;> rw [sweep_eq, freeAll_eq]

end Accounts

end ScriptBridge.Script.Machine
