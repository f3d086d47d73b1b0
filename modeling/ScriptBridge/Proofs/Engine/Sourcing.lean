import ScriptBridge.Proofs.Text.Utf8
import ScriptBridge.Proofs.Engine.Executing

/-!
# Which buffers reach the backend

A buffer is a source if it holds the bytes of a string without NUL. The buffers that are sources are
the ones that the backend gets to evaluate, as the string that they hold. Every other buffer is
refused before the backend is looked for: there is nothing ill-formed that slips through after well
formed text, and a refusal changes nothing.
-/

namespace ScriptBridge

namespace Engine

open Backend Reconcile Text

variable {σ : Type} [Backend σ] {e : Engine σ} {bytes : List UInt8} {given : Option String}
  {source : String}

/-- The bytes hold a string that may be evaluated. -/
structure Holds (bytes : List UInt8) (source : String) : Prop where
  bytes_eq : source.toUTF8.toList = bytes
  noNul : '\x00' ∉ source.toList

theorem decodeSource_eq_ok_iff : decodeSource bytes = .ok source ↔ Holds bytes source := by
  unfold decodeSource
  constructor
  · intro h
    split at h
    · cases h
    · next chars hchars =>
      split at h
      · cases h
      · next hnul =>
        rw [Except.ok.injEq] at h
        subst h
        rw [← String.toList_ofList (l := chars), Utf8.decode_eq_ok_iff_toUTF8] at hchars
        exact ⟨hchars, by simpa using hnul⟩
  · rintro ⟨hbytes, hnul⟩
    rw [Utf8.decode_eq_ok_iff_toUTF8.2 hbytes]
    simp [hnul]

/-- Bytes hold one string at most. -/
theorem Holds.unique {other : String} (h : Holds bytes source) (h' : Holds bytes other) :
    source = other := by
  have hsource := decodeSource_eq_ok_iff.2 h
  rw [decodeSource_eq_ok_iff.2 h'] at hsource
  cases hsource
  rfl

/-- Bytes that hold no source are refused as such. -/
theorem decodeSource_refuses (h : ∀ source, ¬ Holds bytes source) :
    ∃ defect, decodeSource bytes = .error (.invalidSource defect) := by
  cases hdecode : decodeSource bytes with
  | error failure =>
    obtain ⟨defect, rfl⟩ := invalid_of_decodeSource hdecode
    exact ⟨defect, rfl⟩
  | ok source => exact absurd (decodeSource_eq_ok_iff.1 hdecode) (h source)

/-- What is ill-formed is refused wherever it stands, and the refusal tells where that is. -/
theorem decodeSource_illFormed (text : List Char) {rest : List UInt8} (h : Utf8.IllFormed rest) :
    ∃ length, decodeSource (Utf8.encode text ++ rest) =
      .error (.invalidSource (.notUtf8 ⟨(Utf8.encode text).length, length⟩)) := by
  obtain ⟨length, hdecode⟩ := Utf8.decode_illFormed text h
  exact ⟨length, by rw [decodeSource, hdecode]⟩

/-- A buffer that cannot be decoded is refused before anything else happens. -/
theorem executeBuffer_of_error {failure : Failure} (h : decodeSource bytes = .error failure)
    (given : Option String) (e : Engine σ) : executeBuffer bytes given e = (.error failure, e) := by
  simp only [executeBuffer, run_bind, h]
  rfl

theorem executeBuffer_of_holds (h : Holds bytes source) (given : Option String) (e : Engine σ) :
    executeBuffer bytes given e = executeSource (.text source) given e := by
  simp only [executeBuffer, run_bind, decodeSource_eq_ok_iff.2 h]
  rfl

/-- The backend evaluates a source first of all, and evaluates nothing else. -/
theorem callsSince_executeSource {s : σ} (h : e.backend = some s) (source : Script.Source)
    (given : Option String) : ∃ passes o later,
      Conducted e.inCleanup e.registry (evaluate source (e.fileName given) s) passes o ∧
      callsSince e (executeSource source given e).2 =
        .evaluate source (e.fileName given) :: later ∧
      ∀ call ∈ later, call.isWeak = true ∨ call = .takePending := by
  obtain ⟨passes, o, events, s', final, hconducted, hcalls, hverdict, hafter⟩ :=
    executeSource_verdict h source given
  have htrace : (executeSource source given e).2.trace = e.trace ++
      (.call (.evaluate source (e.fileName given)) :: events ++ final) := by
    rw [hafter, List.append_assoc]
  refine ⟨passes, o, callsOf events ++ callsOf final, hconducted, ?_, ?_⟩
  · rw [callsSince_eq htrace, callsOf_append, callsOf_call, List.cons_append]
  · intro call hcall
    rw [hcalls, hverdict.callsOf_final, List.mem_append, List.mem_flatMap] at hcall
    obtain ⟨pass, hpass, hcall⟩ | hcall := hcall
    · exact .inl (hconducted.isWeak pass hpass call hcall)
    · split at hcall
      · exact .inr (List.mem_singleton.1 hcall)
      · cases hcall

/-- A buffer reaches the backend exactly if there is one and the bytes are those of a string without
NUL. Then the backend evaluates that string, under the given file name or the default one; all that
it is asked later is what a pass asks, and for the pending exception. Any other buffer is refused
as no source, with or without a backend, and a source without a backend for want of one; then the
engine is what it was. In particular bytes are refused that go on, after any text, with something
ill-formed: an overlong form, a surrogate, a number above the last code point, a sequence that
breaks off, or a continuation byte that nothing leads. -/
theorem executeBuffer_reaches (bytes : List UInt8) (given : Option String) (e : Engine σ) :
    let result := (executeBuffer bytes given e).1
    let after := (executeBuffer bytes given e).2
    (callsSince e after ≠ [] ↔ e.backend.isSome ∧ ∃ source, Holds bytes source) ∧
    (∀ source, Holds bytes source →
      (∀ s, e.backend = some s → ∃ passes o later,
        Conducted e.inCleanup e.registry (evaluate (.text source) (e.fileName given) s) passes o ∧
        callsSince e after = .evaluate (.text source) (e.fileName given) :: later ∧
        ∀ call ∈ later, call.isWeak = true ∨ call = .takePending) ∧
      (e.backend = none → result = .error .notInitialized ∧ after = e)) ∧
    ((∀ source, ¬ Holds bytes source) →
      (∃ defect, result = .error (.invalidSource defect)) ∧ after = e) ∧
    (∀ text rest, Utf8.IllFormed rest → bytes = Utf8.encode text ++ rest →
      (∃ length, result =
        .error (.invalidSource (.notUtf8 ⟨(Utf8.encode text).length, length⟩))) ∧ after = e) := by
  have hheld : ∀ source, Holds bytes source →
      (∀ s, e.backend = some s → ∃ passes o later,
        Conducted e.inCleanup e.registry (evaluate (.text source) (e.fileName given) s) passes o ∧
        callsSince e (executeBuffer bytes given e).2 =
          .evaluate (.text source) (e.fileName given) :: later ∧
        ∀ call ∈ later, call.isWeak = true ∨ call = .takePending) ∧
      (e.backend = none → executeBuffer bytes given e = (.error .notInitialized, e)) := by
    intro source h
    rw [executeBuffer_of_holds h]
    exact ⟨fun s hs ↦ callsSince_executeSource hs _ given,
      fun hnone ↦ executeSource_of_none hnone _ given⟩
  have hrefused : (∀ source, ¬ Holds bytes source) →
      ∃ defect, executeBuffer bytes given e = (.error (.invalidSource defect), e) := by
    intro h
    obtain ⟨defect, hdecode⟩ := decodeSource_refuses h
    exact ⟨defect, executeBuffer_of_error hdecode given e⟩
  have hsame : callsSince e e = [] := callsSince_of_trace rfl
  refine ⟨⟨fun hcalls ↦ ?_, fun ⟨hsome, source, h⟩ ↦ ?_⟩, fun source h ↦ ?_, fun h ↦ ?_, ?_⟩
  · by_cases hsource : ∃ source, Holds bytes source
    · obtain ⟨source, h⟩ := hsource
      refine ⟨Option.isSome_iff_ne_none.2 fun hnone ↦ hcalls ?_, source, h⟩
      rw [(hheld source h).2 hnone, hsame]
    · obtain ⟨defect, hrun⟩ := hrefused (not_exists.1 hsource)
      rw [hrun] at hcalls
      exact absurd hsame hcalls
  · obtain ⟨s, hs⟩ := Option.isSome_iff_exists.1 hsome
    obtain ⟨-, -, later, -, hcalls, -⟩ := (hheld source h).1 s hs
    rw [hcalls]
    exact List.cons_ne_nil _ _
  · refine ⟨(hheld source h).1, fun hnone ↦ ?_⟩
    rw [(hheld source h).2 hnone]
    exact ⟨rfl, rfl⟩
  · obtain ⟨defect, hrun⟩ := hrefused h
    rw [hrun]
    exact ⟨⟨defect, rfl⟩, rfl⟩
  · rintro text rest h rfl
    obtain ⟨length, hdecode⟩ := decodeSource_illFormed text h
    rw [executeBuffer_of_error hdecode]
    exact ⟨⟨length, rfl⟩, rfl⟩

end Engine

end ScriptBridge
