import ScriptBridge.Config.Environment
import ScriptBridge.Proofs.Text.Numerals

/-!
# What the environment changes

A variable asks for a size if its text is a numeral of the size, with or without blanks around it.
Each of the two settings becomes what its own variable asks for and stays as it is if that asks for
nothing; the other settings stay in any case.
-/

namespace ScriptBridge.Config

open Text

/-- The variable is set to a numeral of this size, apart from blanks around it. -/
def Asks (given : Option String) (n : Nat) : Prop :=
  ∃ text numeral, given = some text ∧ Padded isBlank numeral text.toList ∧
    Denotes numeral n ∧ n < sizeLimit

theorem sizeOfVariable?_eq_some_iff {text : String} {n : Nat} :
    sizeOfVariable? text = some n ↔
      ∃ numeral, Padded isBlank numeral text.toList ∧ Denotes numeral n ∧ n < sizeLimit := by
  rw [sizeOfVariable?, naturalBelow?_eq_some_iff (by decide)]
  constructor
  · rintro ⟨h, hn⟩
    exact ⟨_, padded_trim _, h, hn⟩
  · rintro ⟨numeral, hpadded, h, hn⟩
    have htrim : trim text.toList = numeral :=
      hpadded.trim_eq (fun c hc ↦ h.isBlank_of_mem c (List.mem_of_head? hc))
        (fun c hc ↦ h.isBlank_of_mem c (List.mem_of_getLast? hc))
    rw [htrim]
    exact ⟨h, hn⟩

theorem bind_sizeOfVariable?_eq_some_iff {given : Option String} {n : Nat} :
    given.bind sizeOfVariable? = some n ↔ Asks given n := by
  simp only [Option.bind_eq_some_iff, sizeOfVariable?_eq_some_iff, Asks]
  exact ⟨fun ⟨text, h, numeral, hnumeral⟩ ↦ ⟨text, numeral, h, hnumeral⟩,
    fun ⟨text, numeral, h, hnumeral⟩ ↦ ⟨text, h, numeral, hnumeral⟩⟩

/-- What a variable makes of a setting: the size that it asks for, if it does, and otherwise what
the setting was before. -/
structure Overridden (given : Option String) (before after : Nat) : Prop where
  asked : ∀ n, Asks given n → after = n
  kept : (∀ n, ¬ Asks given n) → after = before

theorem overridden_getD (given : Option String) (before : Nat) :
    Overridden given before ((given.bind sizeOfVariable?).getD before) := by
  constructor
  · intro n h
    rw [bind_sizeOfVariable?_eq_some_iff.2 h]
    rfl
  · intro h
    cases hsize : given.bind sizeOfVariable? with
    | none => rfl
    | some n => exact absurd (bind_sizeOfVariable?_eq_some_iff.1 hsize) (h n)

/-- A setting becomes the same size whatever it was before exactly if its variable asks for that. -/
theorem forall_getD_eq_iff {given : Option String} {n : Nat} :
    (∀ before, (given.bind sizeOfVariable?).getD before = n) ↔ Asks given n := by
  constructor
  · intro h
    rw [← bind_sizeOfVariable?_eq_some_iff]
    cases hsize : given.bind sizeOfVariable? with
    | none =>
      have hzero := h 0
      have hone := h 1
      rw [hsize] at hzero hone
      cases hzero
      cases hone
    | some size =>
      have hsame := h 0
      rw [hsize] at hsame
      exact congrArg some hsame
  · exact fun h before ↦ (overridden_getD given before).asked n h

/-- The environment sets each of the two sizes exactly to what its own variable asks for, whatever
it was before and whatever the other variable is; a setting whose variable asks for nothing keeps
its value, and so do the settings that have no variable. -/
theorem withEnvironment_overrides (env : Environment) :
    (∀ n, (∀ config, (withEnvironment config env).gcThreshold = n) ↔ Asks env.gcThreshold n) ∧
    (∀ n, (∀ config, (withEnvironment config env).memoryLimit = n) ↔ Asks env.memoryLimit n) ∧
    ∀ config,
      let after := withEnvironment config env
      Overridden env.gcThreshold config.gcThreshold after.gcThreshold ∧
      Overridden env.memoryLimit config.memoryLimit after.memoryLimit ∧
      after.maxStackSize = config.maxStackSize ∧
      after.defaultFileName = config.defaultFileName ∧ after.strict = config.strict := by
  refine ⟨fun n ↦ ?_, fun n ↦ ?_, fun config ↦
    ⟨overridden_getD _ _, overridden_getD _ _, rfl, rfl, rfl⟩⟩
  · rw [← forall_getD_eq_iff]
    exact ⟨fun h before ↦ h { Config.default with gcThreshold := before }, fun h config ↦ h _⟩
  · rw [← forall_getD_eq_iff]
    exact ⟨fun h before ↦ h { Config.default with memoryLimit := before }, fun h config ↦ h _⟩

/-- Blanks and leading zeros do not matter, the limit and a lone sign do. -/
example : withEnvironment .default ⟨some " +0004096\n", some "18446744073709551616"⟩ =
      { Config.default with gcThreshold := 4096 } ∧
    withEnvironment .default ⟨some "+", some "18446744073709551615"⟩ =
      { Config.default with memoryLimit := sizeLimit - 1 } := by
  decide

end ScriptBridge.Config
