import ScriptBridge.Proofs.Start.Chronicle

/-!
# What starts do with what they took

A start invokes what it took in order, each registration once, and goes on as long as they succeed.
At any time the chronicle has such an account of every start: of those under way up to where they
are, of all others to the end. So a start invokes only what it took, and what the failure of an
initializer has left over is not invoked by any start.
-/

namespace ScriptBridge.Chronicle

variable {h before later : List Mark} {m : Mark} {r : Registration} {start : Nat}
  {taken : List Registration}

/-! ## Accounts of starts -/

/-- The marks of initializers that a start invoked and that succeeded. -/
def passes (start : Nat) (done : List Registration) : List Mark :=
  done.zipIdx.flatMap fun (r, position) ↦
    [.invoked start position r, .succeeded start position]

theorem passes_concat (start : Nat) (done : List Registration) (r : Registration) :
    passes start (done ++ [r]) = passes start done ++
      [.invoked start done.length r, .succeeded start done.length] := by
  simp [passes, List.zipIdx_append]

/-- How far a start has come. -/
inductive Progress where
  /-- The initializer at this position is the next, the first of these. -/
  | between (position : Nat) (rest : List Registration)
  /-- The initializer at this position is running, and these come after it. -/
  | within (position : Nat) (rest : List Registration)
  | finished

/-- What a start does with the registrations that it took: it invokes them in order, each once, up
to the first that fails, and ends with the position and the failure of that one. -/
inductive Account (start : Nat) (taken : List Registration) : Progress → List Mark → Prop
  | between {done rest : List Registration} (h : taken = done ++ rest) :
    Account start taken (.between done.length rest) (passes start done)
  | within {done rest : List Registration} {r : Registration} (h : taken = done ++ r :: rest) :
    Account start taken (.within done.length rest)
      (passes start done ++ [.invoked start done.length r])
  | failed {done rest : List Registration} {r : Registration} {source : Failure}
    (h : taken = done ++ r :: rest) :
    Account start taken .finished
      (passes start done ++ [.invoked start done.length r,
        .ended start (.error (.initializer done.length source))])
  | completed : Account start taken .finished (passes start taken ++ [.ended start (.ok ())])

/-- A chronicle has the account of a start that has come so far. -/
def Accounted (h : List Mark) (start : Nat) (progress : Progress) : Prop :=
  ∃ taken marks, ofStart start h = .began start taken :: marks ∧ Account start taken progress marks

/-- The starts under way have come as far as listed, the innermost first, and all others are
finished. -/
structure Accounts (h : List Mark) (reached : List (Nat × Progress)) : Prop where
  nodup : (reached.map Prod.fst).Nodup
  underway : ∀ {start progress}, (start, progress) ∈ reached → Accounted h start progress
  others : ∀ {start}, start < (takings h).length → start ∉ reached.map Prod.fst →
    Accounted h start .finished

namespace Account

variable {progress : Progress} {marks : List Mark} {position : Nat} {rest : List Registration}

theorem invoke (hacc : Account start taken (.between position (r :: rest)) marks) :
    Account start taken (.within position rest) (marks ++ [.invoked start position r]) := by
  cases hacc with
  | between h => exact .within h

theorem pass (hacc : Account start taken (.within position rest) marks) :
    Account start taken (.between (position + 1) rest)
      (marks ++ [.succeeded start position]) := by
  cases hacc with
  | @within done rest r h =>
    have htaken : taken = (done ++ [r]) ++ rest := by rw [h, List.append_assoc]; rfl
    have hlonger : Account start taken (.between (done ++ [r]).length rest)
        (passes start (done ++ [r])) := .between htaken
    rw [passes_concat, List.length_append] at hlonger
    rwa [List.append_assoc]

theorem fail (hacc : Account start taken (.within position rest) marks) (source : Failure) :
    Account start taken .finished
      (marks ++ [.ended start (.error (.initializer position source))]) := by
  cases hacc with
  | within h =>
    rw [List.append_assoc]
    exact .failed h

theorem complete (hacc : Account start taken (.between position []) marks) :
    Account start taken .finished (marks ++ [.ended start (.ok ())]) := by
  cases hacc with
  | between h =>
    rw [List.append_nil] at h
    subst h
    exact .completed

theorem mem_passes_iff {done : List Registration} {other : Nat} :
    .invoked other position r ∈ passes start done ↔ other = start ∧ done[position]? = some r := by
  simp only [passes, List.mem_flatMap, Prod.exists, List.mem_zipIdx_iff_getElem?, List.mem_cons,
    Mark.invoked.injEq, reduceCtorEq, List.not_mem_nil, or_false]
  constructor
  · rintro ⟨_, _, hget, rfl, rfl, rfl⟩
    exact ⟨rfl, hget⟩
  · rintro ⟨rfl, hget⟩
    exact ⟨r, position, hget, rfl, rfl, rfl⟩

/-- What a start invokes at a position is what it took there. -/
theorem getElem?_of_invoked (hacc : Account start taken progress marks)
    (hmem : .invoked start position r ∈ marks) : taken[position]? = some r := by
  have hdone : ∀ {done after : List Registration}, taken = done ++ after →
      .invoked start position r ∈ passes start done → taken[position]? = some r := by
    intro done after htaken hpassed
    have hget := (mem_passes_iff.mp hpassed).2
    rw [htaken, List.getElem?_append_left (List.getElem?_eq_some_iff.mp hget).1, hget]
  have hlast : ∀ {done after : List Registration} {s : Registration}, taken = done ++ s :: after →
      Mark.invoked start position r = .invoked start done.length s →
      taken[position]? = some r := by
    rintro done after s htaken ⟨⟩
    simp [htaken]
  cases hacc with
  | between h => exact hdone h hmem
  | within h =>
    rcases List.mem_append.mp hmem with hpassed | hcurrent
    · exact hdone h hpassed
    · exact hlast h (List.mem_singleton.mp hcurrent)
  | failed h =>
    rcases List.mem_append.mp hmem with hpassed | hcurrent
    · exact hdone h hpassed
    · exact hlast h (by simpa using hcurrent)
  | completed =>
    rcases List.mem_append.mp hmem with hpassed | hended
    · exact hdone (List.append_nil taken).symm hpassed
    · simp at hended

theorem not_mem_passes_ended {done : List Registration} {result : Except Failure Unit} :
    .ended start result ∉ passes start done := by
  simp [passes]

/-- A start that ended with a failure invoked nothing after it. -/
theorem position_le (hacc : Account start taken progress marks) {failed : Nat} {source : Failure}
    (hended : .ended start (.error (.initializer failed source)) ∈ marks)
    (hmem : .invoked start position r ∈ marks) : position ≤ failed := by
  cases hacc with
  | between => exact absurd hended not_mem_passes_ended
  | within => simp [not_mem_passes_ended] at hended
  | completed => simp [not_mem_passes_ended] at hended
  | @failed done rest s source' h =>
    obtain ⟨rfl, -⟩ : failed = done.length ∧ source = source' := by
      simpa [not_mem_passes_ended] using hended
    rcases List.mem_append.mp hmem with hpassed | hcurrent
    · exact Nat.le_of_lt (List.getElem?_eq_some_iff.mp (mem_passes_iff.mp hpassed).2).1
    · obtain ⟨rfl, -⟩ : position = done.length ∧ r = s := by simpa using hcurrent
      exact Nat.le_refl _

end Account

/-! ## Accounts over a chronicle -/

namespace Accounted

variable {progress progress' : Progress}

theorem began_mem (hacc : Accounted h start progress) : ∃ taken, .began start taken ∈ h := by
  obtain ⟨taken, marks, hmarks, -⟩ := hacc
  have hmem : .began start taken ∈ ofStart start h := hmarks ▸ List.mem_cons_self
  exact ⟨taken, (List.mem_filter.mp hmem).1⟩

theorem lt (hacc : Accounted h start progress) (hreg : Regular h) : start < (takings h).length := by
  obtain ⟨taken, hmem⟩ := hacc.began_mem
  exact hreg.start_lt hmem rfl

/-- Marks that are about other starts or none change nothing. -/
theorem append (hacc : Accounted h start progress) (hlater : ∀ m ∈ later, m.start? ≠ some start) :
    Accounted (h ++ later) start progress := by
  obtain ⟨taken, marks, hmarks, haccount⟩ := hacc
  refine ⟨taken, marks, ?_, haccount⟩
  have hnone : ofStart start later = [] := by simpa [ofStart] using hlater
  rw [ofStart_append, hnone, List.append_nil, hmarks]

theorem advance (hacc : Accounted h start progress) (hlater : ∀ m ∈ later, m.start? = some start)
    (hstep : ∀ {taken marks}, Account start taken progress marks →
      Account start taken progress' (marks ++ later)) :
    Accounted (h ++ later) start progress' := by
  obtain ⟨taken, marks, hmarks, haccount⟩ := hacc
  refine ⟨taken, marks ++ later, ?_, hstep haccount⟩
  have hall : ofStart start later = later := by simpa [ofStart] using hlater
  rw [ofStart_append, hall, hmarks, List.cons_append]

/-- A start that has just begun has everything before it. -/
theorem of_began (hreg : Regular h) (taken : List Registration) :
    Accounted (h ++ [.began (takings h).length taken]) (takings h).length (.between 0 taken) := by
  have hnone : taken = [] ++ taken := rfl
  refine ⟨taken, [], ?_, .between hnone⟩
  have hfirst : ofStart (takings h).length h = [] := by
    simp only [ofStart, List.filter_eq_nil_iff, decide_eq_true_eq]
    exact fun m hm hstart ↦ Nat.lt_irrefl _ (hreg.start_lt hm hstart)
  rw [ofStart_append, hfirst]
  simp [ofStart, Mark.start?]

end Accounted

namespace Accounts

variable {progress progress' : Progress} {reached : List (Nat × Progress)}

theorem nil : Accounts [] [] :=
  ⟨List.nodup_nil, (by simp), (by simp [takings])⟩

/-- A mark that is about no start changes no account. -/
theorem aside (hacc : Accounts h reached) (hm : m.start? = none) :
    Accounts (h ++ [m]) reached := by
  have hother : ∀ other, ∀ n ∈ [m], n.start? ≠ some other := by simp [hm]
  have hnone : m.taken? = none := by
    cases m with
    | registered => rfl
    | tornDown => rfl
    | _ => cases hm
  refine ⟨hacc.nodup, fun hmem ↦ (hacc.underway hmem).append (hother _), ?_⟩
  intro start hlt hover
  rw [takings_concat, hnone, Option.toList_none, List.append_nil] at hlt
  exact (hacc.others hlt hover).append (hother start)

theorem start_lt (hacc : Accounts h reached) (hreg : Regular h)
    (hmem : start ∈ reached.map Prod.fst) : start < (takings h).length := by
  obtain ⟨⟨_, progress⟩, hprogress, rfl⟩ := List.mem_map.mp hmem
  exact (hacc.underway hprogress).lt hreg

/-- A start that begins is the innermost one. -/
theorem begin (hacc : Accounts h reached) (hreg : Regular h) (taken : List Registration) :
    Accounts (h ++ [.began (takings h).length taken])
      (((takings h).length, .between 0 taken) :: reached) := by
  have hnew : (takings h).length ∉ reached.map Prod.fst :=
    fun hmem ↦ Nat.lt_irrefl _ (hacc.start_lt hreg hmem)
  have hother : ∀ {other}, other ≠ (takings h).length →
      ∀ m ∈ [Mark.began (takings h).length taken], m.start? ≠ some other := by
    intro other hne m hm hstart
    obtain rfl := List.mem_singleton.mp hm
    exact hne (Option.some.inj hstart).symm
  refine ⟨List.nodup_cons.mpr ⟨hnew, hacc.nodup⟩, fun {start progress} hmem ↦ ?_, ?_⟩
  · rcases List.mem_cons.mp hmem with hthis | hold
    · obtain ⟨rfl, rfl⟩ := Prod.mk.inj hthis
      exact .of_began hreg taken
    · refine (hacc.underway hold).append (hother ?_)
      exact fun heq ↦ hnew (heq ▸ List.mem_map_of_mem hold)
  · intro start hlt hover
    obtain ⟨hne, hold⟩ := not_or.mp (mt List.mem_cons.mpr hover)
    refine (hacc.others ?_ hold).append (hother hne)
    rw [takings_concat, Mark.taken?, Option.toList_some, List.length_append,
      List.length_singleton] at hlt
    exact Nat.lt_of_le_of_ne (Nat.le_of_lt_succ hlt) hne

/-- The innermost start comes further. -/
theorem advance (hacc : Accounts h ((start, progress) :: reached))
    (hstart : ∀ m ∈ later, m.start? = some start) (htaken : takings later = [])
    (hstep : ∀ {taken marks}, Account start taken progress marks →
      Account start taken progress' (marks ++ later)) :
    Accounts (h ++ later) ((start, progress') :: reached) := by
  have hother : ∀ {other}, other ≠ start → ∀ m ∈ later, m.start? ≠ some other := by
    intro other hne m hm heq
    rw [hstart m hm] at heq
    exact hne (Option.some.inj heq).symm
  have hnew := (List.nodup_cons.mp hacc.nodup).1
  refine ⟨hacc.nodup, fun {other progress''} hmem ↦ ?_, ?_⟩
  · rcases List.mem_cons.mp hmem with hthis | hold
    · obtain ⟨rfl, rfl⟩ := Prod.mk.inj hthis
      exact (hacc.underway List.mem_cons_self).advance hstart hstep
    · refine (hacc.underway (List.mem_cons_of_mem _ hold)).append (hother ?_)
      rintro rfl
      exact hnew (List.mem_map.mpr ⟨_, hold, rfl⟩)
  · intro other hlt hover
    rw [takings_append, htaken, List.append_nil] at hlt
    exact (hacc.others hlt hover).append (hother (not_or.mp (mt List.mem_cons.mpr hover)).1)

/-- The innermost start is finished. -/
theorem pop (hacc : Accounts h ((start, .finished) :: reached)) : Accounts h reached := by
  refine ⟨(List.nodup_cons.mp hacc.nodup).2,
    fun hmem ↦ hacc.underway (List.mem_cons_of_mem _ hmem), ?_⟩
  intro other hlt hover
  by_cases hsame : other = start
  · subst hsame
    exact hacc.underway List.mem_cons_self
  · exact hacc.others hlt (by simp [hsame, hover])

/-- Every start is accounted for. -/
theorem exists_accounted (hacc : Accounts h reached) (hlt : start < (takings h).length) :
    ∃ progress, Accounted h start progress ∧
      (start ∉ reached.map Prod.fst → progress = .finished) := by
  by_cases hmem : start ∈ reached.map Prod.fst
  · obtain ⟨⟨_, progress⟩, hprogress, rfl⟩ := List.mem_map.mp hmem
    exact ⟨progress, hacc.underway hprogress, fun hover ↦ absurd hmem hover⟩
  · exact ⟨.finished, hacc.others hlt hmem, fun _ ↦ rfl⟩

/-- The account of a start begins with what it took. -/
theorem exists_account (hacc : Accounts h reached) (hreg : Regular h)
    (hbegan : .began start taken ∈ h) : ∃ progress marks,
      ofStart start h = .began start taken :: marks ∧ Account start taken progress marks ∧
        (start ∉ reached.map Prod.fst → progress = .finished) := by
  obtain ⟨progress, ⟨own, marks, hmarks, haccount⟩, hover⟩ :=
    hacc.exists_accounted (hreg.start_lt hbegan rfl)
  have hown : .began start own ∈ ofStart start h := hmarks ▸ List.mem_cons_self
  have hsame := hreg.takings_getElem? (List.mem_filter.mp hown).1
  rw [hreg.takings_getElem? hbegan] at hsame
  cases hsame
  exact ⟨progress, marks, hmarks, haccount, hover⟩

/-- What a start does after its beginning is in its account. -/
theorem mem_account {marks : List Mark} (hmarks : ofStart start h = .began start taken :: marks)
    (hm : m ∈ h) (hstart : m.start? = some start) (hother : m.taken? = none) : m ∈ marks := by
  have hmem : m ∈ ofStart start h := List.mem_filter.mpr ⟨hm, by simpa using hstart⟩
  rw [hmarks] at hmem
  rcases List.mem_cons.mp hmem with rfl | hmem
  · cases hother
  · exact hmem

/-- A start invokes only what it took. -/
theorem began_of_invoked {position : Nat} (hacc : Accounts h reached) (hreg : Regular h)
    (hinvoked : .invoked start position r ∈ h) :
    ∃ taken, .began start taken ∈ h ∧ taken[position]? = some r := by
  obtain ⟨_, haccounted, -⟩ := hacc.exists_accounted (hreg.start_lt hinvoked rfl)
  obtain ⟨taken, hbegan⟩ := haccounted.began_mem
  obtain ⟨_, marks, hmarks, haccount, -⟩ := hacc.exists_account hreg hbegan
  exact ⟨taken, hbegan, haccount.getElem?_of_invoked (mem_account hmarks hinvoked rfl rfl)⟩

/-- What a failure has left over is not invoked by any start. -/
theorem not_invoked_of_left {position : Nat} {source : Failure} (hacc : Accounts h reached)
    (hreg : Regular h) (hbegan : .began start taken ∈ h)
    (hended : .ended start (.error (.initializer position source)) ∈ h)
    (hr : r ∈ taken.drop (position + 1)) : r ∉ invocations h := by
  intro hinvoked
  obtain ⟨other, place, hinvoked⟩ := mem_invocations_iff.mp hinvoked
  obtain ⟨own, hother, hown⟩ := hacc.began_of_invoked hreg hinvoked
  obtain rfl := hreg.start_unique hbegan hother (List.mem_of_mem_drop hr)
    (List.mem_of_getElem? hown)
  obtain ⟨_, marks, hmarks, haccount, -⟩ := hacc.exists_account hreg hbegan
  have hplace := mem_account hmarks hinvoked rfl rfl
  have hget : taken[place]? = some r := haccount.getElem?_of_invoked hplace
  have hle : place ≤ position :=
    haccount.position_le (mem_account hmarks hended rfl rfl) hplace
  obtain ⟨later, hlater⟩ := List.mem_iff_getElem?.mp hr
  rw [List.getElem?_drop] at hlater
  have hsame : place = position + 1 + later :=
    (List.getElem?_inj (List.getElem?_eq_some_iff.mp hget).1 (hreg.nodup_taken hbegan)).mp
      (hget.trans hlater.symm)
  omega

end Accounts

end ScriptBridge.Chronicle
