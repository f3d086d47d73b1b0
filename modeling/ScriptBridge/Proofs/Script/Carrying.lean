import ScriptBridge.Proofs.Script.Handles

/-!
# Values there and back

A value that enters the script heap has a datum there, and a datum that leaves the heap has a value.
The value that comes back is strictly equal to the one that went in, or neither of them is a number.
It need not be the same: the zeros lose their sign, and an object gets a new handle.

Numbers are kept as words where they fit, so it takes the equality of floating-point numbers to tell
that nothing is lost.
-/

namespace ScriptBridge.Script

/-! ## Equality of numbers -/

section Numbers

open Float.Model

variable {x y z : Float}

theorem compare_refl {u : UnpackedFloat} (hu : u ≠ .notANumber) : u.compare u = some .eq := by
  cases u with
  | notANumber => contradiction
  | infinity s => cases s <;> rfl
  | zero s => cases s <;> rfl
  | finite s mantissa exponent hmantissa =>
    have hfields : (compare exponent exponent).then (compare mantissa mantissa) = .eq := by simp
    cases s with
    | positive => exact congrArg some hfields
    | negative => exact congrArg (some ·.swap) hfields

/-- Only zeros of different signs compare as equal without being the same. -/
theorem of_compare_eq {u v : UnpackedFloat} (h : u.compare v = some .eq) :
    u = v ∨ ∃ s t, u = .zero s ∧ v = .zero t := by
  cases u with
  | notANumber => cases v <;> cases h
  | infinity s =>
    cases v with
    | infinity t => cases s <;> cases t <;> first | exact .inl rfl | cases h
    | _ => cases s <;> cases h
  | zero s =>
    cases v with
    | zero t => exact .inr ⟨s, t, rfl, rfl⟩
    | finite t => cases t <;> cases h
    | infinity t => cases t <;> cases h
    | notANumber => cases h
  | finite s m e hm =>
    cases v with
    | finite t m' e' hm' =>
      have hfields (h : ((compare e e').then (compare m m')) = .eq) : m = m' ∧ e = e' := by
        simpa [Ordering.then_eq_eq, and_comm] using h
      cases s <;> cases t
      case positive.positive =>
        obtain ⟨rfl, rfl⟩ := hfields (Option.some.inj h)
        exact .inl rfl
      case negative.negative =>
        obtain ⟨rfl, rfl⟩ := hfields (Ordering.swap_eq_eq.1 (Option.some.inj h))
        exact .inl rfl
      all_goals cases h
    | infinity t => cases t <;> cases h
    | zero t => cases s <;> cases h
    | notANumber => cases h

/-- Numbers compare as equal if they are the same, or both of them a zero. -/
theorem compare_eq_iff (u v : UnpackedFloat) : u.compare v = some .eq ↔
    u ≠ .notANumber ∧ (u = v ∨ ∃ s t, u = .zero s ∧ v = .zero t) := by
  constructor
  · intro h
    refine ⟨?_, of_compare_eq h⟩
    rintro rfl
    cases v <;> cases h
  · rintro ⟨hu, rfl | ⟨s, t, rfl, rfl⟩⟩
    · exact compare_refl hu
    · rfl

theorem float_beq_iff : (x == y) = true ↔ x.toModel.unpack ≠ .notANumber ∧
    (x.toModel.unpack = y.toModel.unpack ∨
      ∃ s t, x.toModel.unpack = .zero s ∧ y.toModel.unpack = .zero t) := by
  rw [← compare_eq_iff]
  show (_ == some Ordering.eq) = true ↔ _
  exact beq_iff_eq

theorem float_beq_symm (h : (x == y) = true) : (y == x) = true := by
  rw [float_beq_iff] at h ⊢
  obtain ⟨hnumber, heq | ⟨s, t, hs, ht⟩⟩ := h
  · exact ⟨heq ▸ hnumber, .inl heq.symm⟩
  · exact ⟨by rw [ht]; exact UnpackedFloat.noConfusion, .inr ⟨t, s, ht, hs⟩⟩

/-- Numbers that are equal to a third one are equal. -/
theorem float_beq_of_beq (hx : (x == z) = true) (hy : (y == z) = true) : (x == y) = true := by
  rw [float_beq_iff] at hx hy ⊢
  obtain ⟨hnumber, hx⟩ := hx
  obtain ⟨-, hy⟩ := hy
  refine ⟨hnumber, ?_⟩
  rcases hx with hx | ⟨s, t, hs, ht⟩ <;> rcases hy with hy | ⟨s', t', hs', ht'⟩
  · exact .inl (hx.trans hy.symm)
  · exact .inr ⟨t', s', hx.trans ht', hs'⟩
  · exact .inr ⟨s, t, hs, hy.trans ht⟩
  · exact .inr ⟨s, s', hs, hs'⟩

/-- Only what is not a number differs from itself. -/
theorem float_beq_self_or_isNaN (x : Float) : (x == x) = true ∨ x.isNaN = true := by
  by_cases h : x.toModel.unpack = .notANumber
  · exact .inr (congrArg UnpackedFloat.isNaN h)
  · exact .inl (float_beq_iff.mpr ⟨h, .inl rfl⟩)

end Numbers

/-- The number is equal to another one, or neither of them is a number. -/
def Matches (x y : Float) : Prop := (x == y) = true ∨ x.isNaN = true ∧ y.isNaN = true

theorem Matches.refl (x : Float) : Matches x x :=
  (float_beq_self_or_isNaN x).imp_right fun h ↦ ⟨h, h⟩

/-- The number that is stored for a number matches it. -/
theorem Matches.of_unsigned {x y : Float} (h : Matches (if x == 0 then 0 else x) y) :
    Matches x y := by
  split at h
  · next hzero =>
    rcases h with h | ⟨h, -⟩
    · exact .inl (float_beq_of_beq hzero (float_beq_symm h))
    · exact absurd h (by decide)
  · exact h

/-- A number is kept as a word only if the word is equal to it. -/
theorem Datum.number?_ofFloat (x : Float) : ∃ y, (ofFloat x).number? = some y ∧ Matches x y := by
  unfold ofFloat
  split
  · next h => exact ⟨_, rfl, .inl (float_beq_symm (Bool.and_eq_true_iff.mp h).1)⟩
  · exact ⟨x, rfl, .refl x⟩

namespace Machine

variable {m m' : Machine} {v w : Value} {d : Datum} {x : Float}

/-- What native code gets back for a value that it has put into the script heap: a value that is
strictly equal, or not a number if the other was none, and for an object a new handle that leads to
the same object. -/
inductive Returns (m m' : Machine) : Value → Value → Prop
  | undefined : Returns m m' .undefined .undefined
  | null : Returns m m' .null .null
  | boolean (b : Bool) : Returns m m' (.boolean b) (.boolean b)
  | number {x y : Float} (h : Matches x y) : Returns m m' (.number x) (.number y)
  | string (s : String) : Returns m m' (.string s) (.string s)
  | object {h k : Handle} {target : ObjectId} (hbefore : m.lookup h = .ok (some target))
    (hnew : m.nextHandle ≤ k.index) (hafter : m'.lookup k = .ok (some target)) :
    Returns m m' (.object h) (.object k)

/-- Returned values are strictly equal, but for what is not a number and for handles. -/
theorem Returns.strictEquals (h : Returns m m' v w) : v.strictEquals w = true ∨
    (∃ x y, v = .number x ∧ w = .number y ∧ x.isNaN = true ∧ y.isNaN = true) ∨
    ∃ k k', v = .object k ∧ w = .object k' ∧ m.lookup k = m'.lookup k' := by
  cases h with
  | undefined => exact .inl rfl
  | null => exact .inl rfl
  | boolean b => exact .inl (beq_self_eq_true b)
  | @number x y h => exact h.imp_right fun hnan ↦ .inl ⟨x, y, rfl, rfl, hnan⟩
  | string s => exact .inl (beq_self_eq_true s)
  | object hbefore _ hafter => exact .inr (.inr ⟨_, _, rfl, rfl, hbefore.trans hafter.symm⟩)

/-- A number leaves the heap as a number. -/
theorem toValue_of_number? (h : d.number? = some x) (m : Machine) :
    m.toValue d = (.ok (.number x), m) := by
  cases d <;> simp_all [Datum.number?, toValue]

/-- Only symbols are looked at before they leave. -/
theorem run_handOver (hd : ∀ number description, d ≠ .symbol number description) (m : Machine) :
    (Interp.handOver invoke d).run m = (some (m.toValue d).1, (m.toValue d).2) := by
  cases d with
  | symbol number description => exact absurd rfl (hd number description)
  | _ => rfl

/-- The datum of a value leaves the heap as a value that matches it, and an object under the handle
that is given out for it. -/
theorem run_handOver_ofValue (hd : m.ofValue v = .ok d) (invoke : Invoke) (m' : Machine) :
    (∃ w, (Interp.handOver invoke d).run m' = (some (.ok w), m') ∧ v.asObject? = none ∧
      ∀ m m', Returns m m' v w) ∨
    ∃ h target, v = .object h ∧ m.resolveLive h = .ok target ∧
      (Interp.handOver invoke d).run m' =
        (some ((m'.handOut target).1.map .object), (m'.handOut target).2) := by
  cases v with
  | undefined =>
    cases hd
    exact .inl ⟨.undefined, rfl, rfl, fun _ _ ↦ .undefined⟩
  | null =>
    cases hd
    exact .inl ⟨.null, rfl, rfl, fun _ _ ↦ .null⟩
  | boolean b =>
    cases hd
    exact .inl ⟨.boolean b, rfl, rfl, fun _ _ ↦ .boolean b⟩
  | number x =>
    cases hd
    obtain ⟨y, hy, hmatches⟩ := Datum.number?_ofFloat (if x == 0 then 0 else x)
    refine .inl ⟨.number y, ?_, rfl, fun _ _ ↦ .number hmatches.of_unsigned⟩
    rw [run_handOver (by rintro _ _ h; rw [h] at hy; cases hy), toValue_of_number? hy]
  | string s =>
    cases hd
    refine .inl ⟨.string s, ?_, rfl, fun _ _ ↦ .string s⟩
    show (some (toValue (.string (.ofString s)) m').1, _) = _
    rw [toValue, Text.Units.decode_ofString]
  | object h =>
    rw [ofValue] at hd
    cases htarget : m.resolveLive h with
    | error failure =>
      rw [htarget] at hd
      cases hd
    | ok target =>
      rw [htarget] at hd
      cases hd
      exact .inr ⟨h, target, rfl, htarget, rfl⟩

end Machine

end ScriptBridge.Script
