import ScriptBridge.Script.Fault
import ScriptBridge.Script.Location
import ScriptBridge.Proofs.Text.Numerals

/-!
# Locations are found again

A stack text is written line by line. Some lines have no location; the first one that has tells the
file and the line that are found. The name of a file may contain anything but a line break, and
what makes reading it back possible is that everything written around it is told apart from it: the
name of the function has no opening parenthesis behind a blank, the numbers have no colons, and a
frame without parentheses ends with a digit.
-/

namespace ScriptBridge.Script.Location

open Text

/-! ## The format -/

/-- A location, with the column or without it. -/
def located (file : List Char) (line : Nat) : Option Nat → List Char
  | some column => file ++ ':' :: Nat.toDigits 10 line ++ ':' :: Nat.toDigits 10 column
  | none => file ++ ':' :: Nat.toDigits 10 line

/-- The line of a frame: of a function that has a name, or of no function. -/
def frameLine (indent : Nat) (function : Option (List Char)) (location : List Char) : List Char :=
  List.replicate indent ' ' ++ (['a', 't', ' '] ++ match function with
    | some name => name ++ ' ' :: '(' :: (location ++ [')'])
    | none => location)

/-- The name can stand before a parenthesis: neither a line break is in it nor what begins one. -/
structure Nameable (name : List Char) : Prop where
  noBreak : '\n' ∉ name
  noParenthesis : ¬ [' ', '('] <:+: name

/-- A line that shows no location: no frame at all, or that of a native function. -/
inductive Unlocated : List Char → Prop
  | other {line : List Char} (hline : '\n' ∉ line) (h : ¬ ['a', 't', ' '] <+: trim line) :
    Unlocated line
  | native {name : List Char} (indent : Nat) (h : Nameable name) :
    Unlocated (frameLine indent (some name) "native".toList)

/-- A stack text. -/
def stackOf (lines : List (List Char)) : List Char := ['\n'].intercalate lines

/-! ## Lines -/

theorem splitAll_of_notMem {separator : Char} {s : List Char} (h : separator ∉ s) :
    splitAll separator s = [s] := by
  induction s with
  | nil => rfl
  | cons c s ih =>
    rw [List.mem_cons, not_or] at h
    simp only [splitAll, if_neg (Ne.symm h.1), ih h.2]

theorem splitAll_append (separator : Char) (s t : List Char) :
    splitAll separator (s ++ separator :: t) = splitAll separator s ++ splitAll separator t := by
  induction s with
  | nil => simp [splitAll]
  | cons c s ih =>
    rw [List.cons_append]
    simp only [splitAll, ih]
    split
    · rfl
    · cases hs : splitAll separator s with
      | nil => exact absurd hs (splitAll_ne_nil separator s)
      | cons part parts => rfl

theorem splitAll_intercalate (separator : Char) {parts : List (List Char)} (h : parts ≠ []) :
    splitAll separator ([separator].intercalate parts) = parts.flatMap (splitAll separator) := by
  induction parts with
  | nil => exact absurd rfl h
  | cons part parts ih =>
    cases parts with
    | nil => simp
    | cons next parts =>
      rw [List.intercalate_cons_cons, List.append_assoc, List.singleton_append, splitAll_append,
        ih (List.cons_ne_nil _ _), ← List.flatMap_cons]

/-! ## Locations -/

theorem ne_colon_of_mem_reverse {s : List Char} (h : ':' ∉ s) :
    ∀ c ∈ s.reverse, (c != ':') = true := by
  intro c hc
  rw [bne_iff_ne]
  rintro rfl
  exact h (List.mem_reverse.1 hc)

theorem splitLastColon?_append (front : List Char) {last : List Char} (h : ':' ∉ last) :
    splitLastColon? (front ++ ':' :: last) = some (front, last) := by
  have hreverse : (front ++ ':' :: last).reverse = last.reverse ++ ':' :: front.reverse := by simp
  simp only [splitLastColon?, hreverse,
    List.dropWhile_append_of_pos (ne_colon_of_mem_reverse h),
    List.takeWhile_append_of_pos (ne_colon_of_mem_reverse h)]
  simp

theorem splitLastColon?_of_notMem {s : List Char} (h : ':' ∉ s) : splitLastColon? s = none := by
  have hall : s.reverse.dropWhile (· != ':') = [] := by
    have hdrop : (s.reverse ++ []).dropWhile (· != ':') = [].dropWhile (· != ':') :=
      List.dropWhile_append_of_pos (ne_colon_of_mem_reverse h)
    rwa [List.append_nil, List.dropWhile_nil] at hdrop
  simp only [splitLastColon?, hall]

theorem colon_notMem_toDigits (n : Nat) : ':' ∉ Nat.toDigits 10 n := not_mem_toDigits rfl n

theorem ofLocation?_located {file : List Char} {line : Nat} {column : Option Nat}
    (hline : line < UInt32.size) (hcolumn : ∀ n ∈ column, n < UInt32.size)
    (hplain : column = none → ':' ∉ file) :
    ofLocation? (located file line column) = some (file, line) := by
  have hnumber : number? (Nat.toDigits 10 line) = some line := naturalBelow?_toDigits hline
  have hsplit : splitLastColon? (file ++ ':' :: Nat.toDigits 10 line) =
      some (file, Nat.toDigits 10 line) := splitLastColon?_append file (colon_notMem_toDigits line)
  cases column with
  | none =>
    have hfile : splitLastColon? file = none := splitLastColon?_of_notMem (hplain rfl)
    simp [ofLocation?, located, hsplit, hfile, hnumber]
  | some n =>
    have hcount : number? (Nat.toDigits 10 n) = some n := naturalBelow?_toDigits (hcolumn n rfl)
    have hlast := splitLastColon?_append (file ++ ':' :: Nat.toDigits 10 line)
      (colon_notMem_toDigits n)
    simp only [ofLocation?, located, hlast, Option.bind_eq_bind, Option.bind_some, hsplit,
      hnumber, hcount]
    rfl

/-- A location ends with a digit. -/
theorem getLast?_located (file : List Char) (line : Nat) (column : Option Nat) :
    ∃ c, (located file line column).getLast? = some c ∧ c.isDigit := by
  cases column with
  | none =>
    obtain ⟨c, hc, hdigit⟩ := getLast?_toDigits line
    exact ⟨c, by simp [located, List.getLast?_append, List.getLast?_cons, hc], hdigit⟩
  | some n =>
    obtain ⟨c, hc, hdigit⟩ := getLast?_toDigits n
    exact ⟨c, by simp [located, List.getLast?_append, List.getLast?_cons, hc], hdigit⟩

/-! ## Frames -/

theorem after?_eq_some_iff {beginning s rest : List Char} :
    after? beginning s = some rest ↔ s = beginning ++ rest := by
  induction beginning generalizing s with
  | nil => simp [after?, eq_comm]
  | cons c beginning ih =>
    cases s with
    | nil => simp [after?]
    | cons d s =>
      simp only [after?, List.cons_append, List.cons.injEq]
      split
      · next heq => simp [ih, heq]
      · next hne => simp [Ne.symm hne]

theorem after?_eq_none {beginning s : List Char} (h : ¬ beginning <+: s) :
    after? beginning s = none := by
  rw [Option.eq_none_iff_forall_ne_some]
  intro rest hrest
  exact h ⟨rest, (after?_eq_some_iff.1 hrest).symm⟩

/-- A name is passed over up to the parenthesis that it stands before. -/
theorem afterParenthesis?_append {name : List Char} (h : ¬ [' ', '('] <:+: name)
    (rest : List Char) : afterParenthesis? (name ++ ' ' :: '(' :: rest) = some rest := by
  induction name with
  | nil => simp [afterParenthesis?, after?]
  | cons c name ih =>
    have hname : ¬ [' ', '('] <:+: name := fun hname ↦ h (List.infix_cons hname)
    have hnext : after? [' ', '('] (c :: (name ++ ' ' :: '(' :: rest)) = none := by
      apply after?_eq_none
      rintro ⟨found, hfound⟩
      cases name with
      | nil => simp at hfound
      | cons d name =>
        -- What stands first in the name would begin a parenthesis in it.
        obtain ⟨rfl, rfl, -⟩ : ' ' = c ∧ '(' = d ∧ _ := by simpa using hfound
        exact h (List.prefix_append [' ', '('] name).isInfix
    rw [List.cons_append, afterParenthesis?, hnext]
    exact ih hname

theorem suffix_of_afterParenthesis? {s rest : List Char} (h : afterParenthesis? s = some rest) :
    rest <:+ s := by
  induction s with
  | nil => cases h
  | cons c s ih =>
    rw [afterParenthesis?] at h
    split at h
    · next found hfound =>
      cases h
      exact ⟨[' ', '('], (after?_eq_some_iff.1 hfound).symm⟩
    · exact (ih h).trans (List.suffix_cons c s)

/-- The parentheses behind a name are taken off. -/
theorem strip_named {name : List Char} (h : Nameable name) (location : List Char) :
    strip (name ++ ' ' :: '(' :: (location ++ [')'])) = location := by
  rw [strip, afterParenthesis?_append h.noParenthesis]
  simp

/-- What does not end with a parenthesis is left as it is. -/
theorem strip_bare {location : List Char} (h : location.getLast? ≠ some ')') :
    strip location = location := by
  rw [strip]
  split
  · next rest hrest =>
    obtain ⟨front, rfl⟩ := suffix_of_afterParenthesis? hrest
    refine if_neg fun hlast ↦ h ?_
    rw [List.getLast?_append, hlast]
    rfl
  · rfl

theorem ofFrame?_of_trim {line frame : List Char} (h : trim line = ['a', 't', ' '] ++ frame) :
    ofFrame? line = ofLocation? (strip frame) := by
  rw [ofFrame?, h, after?_append]
  rfl

/-- The indentation of a frame is trimmed, and nothing else of it. -/
theorem trim_frame (indent : Nat) {frame : List Char}
    (hlast : ∀ c ∈ frame.getLast?, isBlank c = false) (hne : frame ≠ []) :
    trim (List.replicate indent ' ' ++ (['a', 't', ' '] ++ frame)) = ['a', 't', ' '] ++ frame := by
  refine Padded.trim_eq ⟨_, [], fun c hc ↦ ?_, nofun, by rw [List.append_nil]⟩ (fun c hc ↦ ?_)
    (fun c hc ↦ hlast c ?_)
  · rw [List.eq_of_mem_replicate hc]
    rfl
  · obtain rfl : 'a' = c := by simpa using hc
    rfl
  · rwa [List.getLast?_append, Option.or_of_isSome (List.getLast?_isSome.2 hne)] at hc

theorem ofFrame?_named (indent : Nat) {name : List Char} (h : Nameable name)
    (location : List Char) :
    ofFrame? (frameLine indent (some name) location) = ofLocation? location := by
  have hlast : (name ++ ' ' :: '(' :: (location ++ [')'])).getLast? = some ')' := by
    simp [List.getLast?_append, List.getLast?_cons]
  rw [frameLine, ofFrame?_of_trim (trim_frame indent (fun c hc ↦ ?_) (by simp)), strip_named h]
  rw [hlast] at hc
  cases hc
  rfl

theorem ofFrame?_bare (indent : Nat) {location : List Char}
    (h : ∃ c, location.getLast? = some c ∧ c.isDigit) :
    ofFrame? (frameLine indent none location) = ofLocation? location := by
  obtain ⟨c, hlast, hdigit⟩ := h
  have hne : location ≠ [] := by
    rintro rfl
    cases hlast
  have hstrip : strip location = location := strip_bare fun hparenthesis ↦ by
    rw [hlast] at hparenthesis
    cases hparenthesis
    cases hdigit
  rw [frameLine, ofFrame?_of_trim (trim_frame indent (fun d hd ↦ ?_) hne), hstrip]
  rw [hlast] at hd
  cases hd
  exact isBlank_of_isDigit hdigit

/-- The location of a frame is read back, whether or not the function has a name. -/
theorem ofFrame?_located (indent : Nat) {function : Option (List Char)} {file : List Char}
    {line : Nat} {column : Option Nat} (hfunction : ∀ name ∈ function, Nameable name)
    (hline : line < UInt32.size) (hcolumn : ∀ n ∈ column, n < UInt32.size)
    (hplain : column = none → ':' ∉ file) :
    ofFrame? (frameLine indent function (located file line column)) = some (file, line) := by
  cases function with
  | none =>
    rw [ofFrame?_bare indent (getLast?_located file line column)]
    exact ofLocation?_located hline hcolumn hplain
  | some name =>
    rw [ofFrame?_named indent (hfunction name rfl)]
    exact ofLocation?_located hline hcolumn hplain

theorem Unlocated.ofFrame? {line : List Char} (h : Unlocated line) : ofFrame? line = none := by
  cases h with
  | other _ h =>
    rw [Location.ofFrame?, after?_eq_none h]
    rfl
  | native indent h =>
    rw [ofFrame?_named indent h]
    rfl

/-! ## Stack texts -/

theorem break_notMem_frameLine (indent : Nat) {function : Option (List Char)}
    {location : List Char} (hfunction : ∀ name ∈ function, Nameable name)
    (hlocation : '\n' ∉ location) : '\n' ∉ frameLine indent function location := by
  cases function with
  | none => simp [frameLine, hlocation]
  | some name => simp [frameLine, hlocation, (hfunction name rfl).noBreak]

theorem Unlocated.noBreak {line : List Char} (h : Unlocated line) : '\n' ∉ line := by
  cases h with
  | other hline _ => exact hline
  | native indent h =>
    exact break_notMem_frameLine indent (by simpa using h) (by decide)

theorem break_notMem_located {file : List Char} (h : '\n' ∉ file) (line : Nat)
    (column : Option Nat) : '\n' ∉ located file line column := by
  have hdigits : ∀ n, '\n' ∉ Nat.toDigits 10 n := not_mem_toDigits rfl
  cases column with
  | none => simp [located, h, hdigits]
  | some n => simp [located, h, hdigits]

theorem findSome?_unlocated {lines : List (List Char)} (h : ∀ line ∈ lines, Unlocated line) :
    (lines.flatMap (splitAll '\n')).findSome? ofFrame? = none := by
  rw [List.findSome?_eq_none_iff]
  intro part hpart
  obtain ⟨line, hline, hpart⟩ := List.mem_flatMap.1 hpart
  rw [splitAll_of_notMem (h line hline).noBreak, List.mem_singleton] at hpart
  rw [hpart]
  exact (h line hline).ofFrame?

/-! ## The stack texts of the machine -/

/-- The line that the machine writes for a frame. -/
theorem toList_frameText (m : Machine) (f : Frame) :
    (m.frameText f).toList = frameLine 4 (some (m.frameName f).toList) (match f.place with
      | some place => located place.file.toList place.line (some 1)
      | none => "native".toList) ++ ['\n'] := by
  have hone : Nat.toDigits 10 1 = ['1'] := rfl
  cases hplace : f.place with
  | none => simp [Machine.frameText, frameLine, hplace]
  | some place => simp [Machine.frameText, frameLine, located, hplace, hone]

theorem ofStack?_cons {line : List Char} (h : '\n' ∉ line) (rest : List Char) :
    ofStack? (line ++ '\n' :: rest) = (ofFrame? line).or (ofStack? rest) := by
  rw [ofStack?, splitAll_append, splitAll_of_notMem h, List.singleton_append,
    List.findSome?_cons]
  cases ofFrame? line <;> rfl

/-- In its own stack texts the machine finds the innermost place that they show, unless a function
on the way has a name that ends too early. -/
theorem ofStack?_stackText (m : Machine) {frames : List Frame}
    (hnames : ∀ f ∈ frames, Nameable (m.frameName f).toList)
    (hplaces : ∀ f ∈ frames, ∀ place ∈ f.place,
      '\n' ∉ place.file.toList ∧ place.line < UInt32.size) :
    ofStack? (m.stackText frames).toList =
      ((frames.take Machine.shownFrames).findSome? (·.place)).map
        fun place ↦ (place.file.toList, place.line) := by
  have hshown : ∀ f ∈ frames.take Machine.shownFrames, f ∈ frames := fun f ↦ List.mem_of_mem_take
  rw [Machine.stackText, String.toList_join]
  generalize frames.take Machine.shownFrames = shown at hshown
  induction shown with
  | nil => rfl
  | cons f shown ih =>
    have hname : ∀ name ∈ some (m.frameName f).toList, Nameable name := by
      simpa using hnames f (hshown f List.mem_cons_self)
    have hrest := ih fun g hg ↦ hshown g (List.mem_cons_of_mem _ hg)
    rw [List.map_cons, List.flatMap_cons, toList_frameText, List.append_assoc,
      List.singleton_append, List.findSome?_cons]
    cases hplace : f.place with
    | none =>
      have hline : Unlocated (frameLine 4 (some (m.frameName f).toList) "native".toList) :=
        .native 4 (hname _ rfl)
      rw [ofStack?_cons hline.noBreak, hline.ofFrame?, Option.none_or, hrest]
    | some place =>
      obtain ⟨hfile, hbound⟩ := hplaces f (hshown f List.mem_cons_self) place hplace
      rw [ofStack?_cons (break_notMem_frameLine 4 hname (break_notMem_located hfile _ _)),
        ofFrame?_located 4 hname hbound (by simp [UInt32.size]) (by simp)]
      rfl

/-! ## Locations are found again -/

/-- Lines without a location are passed over; then the file and the line of the first frame that
has one are found, with or without a name and a column, whatever comes after it. So are the
innermost ones that the machine itself has written into a stack text. -/
theorem location_found_again {before : List (List Char)}
    (hbefore : ∀ line ∈ before, Unlocated line) :
    ofStack? (stackOf before) = none ∧
    (∀ (indent : Nat) (function : Option (List Char)) (file : List Char) (line : Nat)
      (column : Option Nat) (after : List (List Char)),
      (∀ name ∈ function, Nameable name) → '\n' ∉ file → line < UInt32.size →
      (∀ n ∈ column, n < UInt32.size) → (column = none → ':' ∉ file) →
      ofStack? (stackOf (before ++ frameLine indent function (located file line column) :: after)) =
        some (file, line)) ∧
    ∀ (m : Machine) (frames : List Frame), (∀ f ∈ frames, Nameable (m.frameName f).toList) →
      (∀ f ∈ frames, ∀ place ∈ f.place,
        '\n' ∉ place.file.toList ∧ place.line < UInt32.size) →
      ofStack? (m.stackText frames).toList =
        ((frames.take Machine.shownFrames).findSome? (·.place)).map
          fun place ↦ (place.file.toList, place.line) := by
  refine ⟨?_, ?_, fun m _ ↦ ofStack?_stackText m⟩
  · cases before with
    | nil => rfl
    | cons first rest =>
      rw [ofStack?, stackOf, splitAll_intercalate _ (List.cons_ne_nil _ _)]
      exact findSome?_unlocated hbefore
  · intro indent function file line column after hfunction hfile hline hcolumn hplain
    have hframe := break_notMem_frameLine indent hfunction
      (break_notMem_located hfile line column)
    rw [ofStack?, stackOf, splitAll_intercalate _ (by simp), List.flatMap_append,
      List.flatMap_cons, splitAll_of_notMem hframe, List.findSome?_append,
      findSome?_unlocated hbefore, Option.none_or, List.singleton_append, List.findSome?_cons,
      ofFrame?_located indent hfunction hline hcolumn hplain]

/-- A native frame is passed over, and a file name may have parentheses. -/
theorem location_found_again_native :
    (∀ line ∈ ["Error: nope".toList, "    at push (native)".toList], Unlocated line) ∧
      ofStack? ("Error: nope\n    at push (native)\n    at spawn (levels/copy (2).js:8:3)\n" ++
        "    at main.js:1:1").toList = some ("levels/copy (2).js".toList, 8) := by
  have hpush : Nameable "push".toList := ⟨by decide, by decide⟩
  have hbefore : ∀ line ∈ ["Error: nope".toList, "    at push (native)".toList],
      Unlocated line := by
    intro line hline
    obtain rfl | rfl : line = _ ∨ line = _ := by simpa using hline
    · exact .other (by decide) (by decide)
    · exact .native 4 hpush
  have hspawn : ∀ name ∈ some "spawn".toList, Nameable name := by
    simpa using ⟨by decide, by decide⟩
  exact ⟨hbefore, (location_found_again hbefore).2.1 4 (some "spawn".toList)
    "levels/copy (2).js".toList 8 (some 3) ["    at main.js:1:1".toList] hspawn (by decide)
    (by decide) (by decide) (by decide)⟩

end ScriptBridge.Script.Location
