import Calculator.CommandLine.Run
import Calculator.Proofs.Keypad.Continue
import Calculator.Proofs.Line.Editing
import Calculator.Proofs.Surroundings

/-!
# One expression, three programs

The line session and the keypad take the blanks around an expression away and evaluate what is left.
The one-shot command evaluates its words as they are, joined by blanks, and takes the blanks away
from the text that it shows with an error.  So the three agree on an expression without blanks
around it.  If there are separators around it, the command counts the place of an error from the
start of the words, and not of the text that it shows; any other blank is to the command a character
that it does not know (`front_ends_report`).
-/

namespace Calculator

/-! ## Blanks around a text -/

namespace Text

/-- The blanks in front of a text. -/
def leading (text : List Char) : List Char := text.takeWhile isBlank

/-- The blanks behind a text. -/
def trailing (text : List Char) : List Char :=
  ((text.dropWhile isBlank).reverse.takeWhile isBlank).reverse

theorem leading_trim_trailing (text : List Char) :
    leading text ++ trim text ++ trailing text = text := by
  have hsplit : trim text ++ trailing text = text.dropWhile isBlank := by
    rw [trim, trailing, ← List.reverse_append, List.takeWhile_append_dropWhile,
      List.reverse_reverse]
  rw [List.append_assoc, hsplit, leading, List.takeWhile_append_dropWhile]

theorem isBlank_of_mem_leading {text : List Char} {c : Char} (h : c ∈ leading text) :
    isBlank c = true :=
  List.all_eq_true.1 List.all_takeWhile c h

theorem isBlank_of_mem_trailing {text : List Char} {c : Char} (h : c ∈ trailing text) :
    isBlank c = true :=
  List.all_eq_true.1 List.all_takeWhile c (List.mem_reverse.1 h)

theorem allBlank_trim {text : List Char} (h : allBlank text = false) :
    allBlank (trim text) = false := by
  refine Bool.eq_false_iff.2 fun htrim => ?_
  have hall : allBlank text = true := by
    rw [← leading_trim_trailing text]
    simp only [allBlank, List.all_append, Bool.and_eq_true]
    exact ⟨⟨List.all_eq_true.2 fun c => isBlank_of_mem_leading, htrim⟩,
      List.all_eq_true.2 fun c => isBlank_of_mem_trailing⟩
  rw [hall] at h
  cases h

end Text

open Text

/-- Whether all the blanks around a text are separators. -/
def Separated (line : List Char) : Prop :=
  (∀ c ∈ leading line, isSeparator c = true) ∧ ∀ c ∈ trailing line, isSeparator c = true

/-- **Around a text that has a value there are only separators.** -/
theorem separated_of_evaluate {line : List Char} {v : Binary64}
    (h : evaluate (String.ofList line) = .ok v) : Separated line := by
  have hallowed : ∀ c ∈ line, isAllowed c = true := by
    simpa only [String.toList_ofList] using isAllowed_of_evaluate h
  rw [← leading_trim_trailing line] at hallowed
  constructor
  · intro c hc
    exact isSeparator_of_isBlank (hallowed c (by simp [hc])) (isBlank_of_mem_leading hc)
  · intro c hc
    exact isSeparator_of_isBlank (hallowed c (by simp [hc])) (isBlank_of_mem_trailing hc)

/-! ## What the programs write -/

/-- What the line session writes of an outcome. -/
def Line.written (expression : List Char) (outcome : Except EvalError Binary64) : String :=
  "\r\n  " ++ String.ofList expression ++ " = " ++
    (match outcome with
      | .ok v => formatResult v
      | .error err => "Error: " ++ err.message) ++
    "\r\n\n"

theorem Line.answer_eq (expression : List Char) :
    answer expression = written expression (evaluate (String.ofList expression)) := by
  simp only [answer, written, calculate]
  cases evaluate (String.ofList expression) <;> rfl

/-- What the one-shot command writes of an outcome. -/
def CommandLine.reported (shown : List Char) : Except EvalError Binary64 → Answer
  | .ok v => { stdout := formatResult v ++ "\n" }
  | .error err => failure ("cannot evaluate '" ++ String.ofList shown ++ "': " ++ err.message)

theorem CommandLine.run_eq {arguments : List String} {settings : Settings} {line : List Char}
    (hread : Arguments.read arguments = .settings settings)
    (hwords : " ".intercalate settings.words = String.ofList line)
    (hblank : allBlank line = false) :
    run arguments = reported (trim line) (evaluate (String.ofList line)) := by
  have hne : settings.words.isEmpty = false := by
    refine Bool.eq_false_iff.2 fun hnone => ?_
    rw [List.isEmpty_iff.1 hnone] at hwords
    have hline : line = [] := by simpa using congrArg String.toList hwords.symm
    rw [hline] at hblank
    cases hblank
  have hrun : run arguments = evaluateWords settings.words := by
    simp only [run, hread, hne, Bool.false_eq_true, if_false]
  rw [hrun, evaluateWords, hwords, String.toList_ofList, calculate]
  cases evaluate (String.ofList line) <;> rfl

namespace Line

theorem Sides.foldl_type (s : Sides) (text : List Char) :
    (text.map Key.char).foldl edit s = ⟨s.before ++ text, s.after⟩ := by
  induction text generalizing s with
  | nil => simp
  | cons c rest ih => simp [ih, edit]

/-- **A line that is typed and submitted is answered**, and the next line starts. -/
theorem Session.runFrom_submitted (rows : Rows) {line : List Char} (hbreak : '\n' ∉ line)
    (hblank : allBlank line = false)
    (hcommand : Command.ofLine (trim line) = .evaluate (trim line)) (rest : List Input) :
    runFrom rows .empty ((line.map Key.char).map .key ++ .key (.char '\n') :: rest) =
      ((startLine rows.later (answer (trim line))).followedBy rest fun rows b =>
          runFrom rows b rest).after
        (((line.map Key.char).scanl Buffer.edit .empty).tail.map (redraw rows.row)) := by
  have hedits : ∀ key ∈ line.map Key.char, key.edits = true := by
    intro key hkey
    obtain ⟨c, hc, rfl⟩ := List.mem_map.1 hkey
    refine Key.edits_char fun hnewline => hbreak ?_
    rwa [hnewline] at hc
  have hline : (line.map Key.char).foldl Buffer.edit .empty = ⟨line, line.length⟩ := by
    have hsides := Sides.foldl_edit_buffer .empty (line.map Key.char)
    rw [Sides.foldl_type] at hsides
    simpa [Sides.buffer, Sides.empty, Buffer.empty] using hsides
  have hreply : reply line = .text (answer (trim line)) := by
    simp only [reply, isEmpty_trim hblank, Bool.false_eq_true, if_false, hcommand]
  rw [runFrom_line rows hedits, hline, hreply]

end Line

/-- **The keypad shows the outcome of what has been typed.** -/
theorem Keypad.State.shows_outcome {s : State} (hblank : allBlank s.input.toList = false) :
    s.calculate.Shows s.outcome := by
  cases houtcome : s.outcome with
  | ok v =>
    rw [calculate_of_ok houtcome]
    exact .value rfl rfl
  | error err =>
    rw [calculate_of_error hblank houtcome]
    exact .error rfl rfl

/-! ## The comparison -/

/-- **What the three programs report of one expression.**  The line session, when the line is typed
and submitted, and the keypad report the outcome of the text without the blanks around it.  The
one-shot command reports it if there are none.  If there are separators, it reports the same value
or the same error, but with the places counted in the line as it was given; if there are other
blanks, it reports an error. -/
theorem front_ends_report (rows : Line.Rows) {line : List Char} (hbreak : '\n' ∉ line)
    (hblank : allBlank line = false)
    (hcommand : Line.Command.ofLine (trim line) = .evaluate (trim line)) (rest : List Line.Input)
    {s : Keypad.State} (hinput : s.input = String.ofList line)
    {arguments : List String} {settings : CommandLine.Settings}
    (hread : CommandLine.Arguments.read arguments = .settings settings)
    (hwords : " ".intercalate settings.words = String.ofList line) :
    let text := trim line
    let outcome := evaluate (String.ofList text)
    let typed := line.map Line.Key.char
    let drawn := (typed.scanl Line.Buffer.edit .empty).tail.map (Line.redraw rows.row)
    let place := placeIn (leading line).length text.length line.length
    Line.Session.runFrom rows .empty (typed.map .key ++ .key (.char '\n') :: rest) =
      ((Line.Session.startLine rows.later (Line.written text outcome)).followedBy rest
        fun rows b => Line.Session.runFrom rows b rest).after drawn ∧
    s.calculate.Shows outcome ∧
    (text = line → CommandLine.run arguments = CommandLine.reported text outcome) ∧
    (Separated line → CommandLine.run arguments =
      CommandLine.reported text (outcome.mapError (EvalError.relocate place))) ∧
    (¬ Separated line → ∃ err, CommandLine.run arguments =
      CommandLine.reported text (.error err)) := by
  intro text outcome typed drawn place
  have hrun : CommandLine.run arguments =
      CommandLine.reported text (evaluate (String.ofList line)) :=
    CommandLine.run_eq hread hwords hblank
  refine ⟨?_, ?_, ?_, ?_, ?_⟩
  · rw [← Line.answer_eq]
    exact Line.Session.runFrom_submitted rows hbreak hblank hcommand rest
  · have htyped : s.input.toList = line := by rw [hinput, String.toList_ofList]
    have hshows := Keypad.State.shows_outcome (htyped ▸ hblank)
    rwa [Keypad.State.outcome, htyped] at hshows
  · intro htrim
    rw [hrun, ← htrim]
  · rintro ⟨hlead, hbehind⟩
    have hmoved := evaluate_surrounded hlead hbehind (allBlank_trim hblank)
    rw [leading_trim_trailing] at hmoved
    rw [hrun, hmoved]
  · intro hother
    cases hvalue : evaluate (String.ofList line) with
    | ok v => exact absurd (separated_of_evaluate hvalue) hother
    | error err => exact ⟨err, by rw [hrun, hvalue]⟩

/-- A parenthesis that is never closed, with a blank before it and one at the end. -/
theorem front_ends_report_open_parenthesis :
    let line := " (1 ".toList
    let s : Keypad.State := { input := " (1 " }
    '\n' ∉ line ∧ allBlank line = false ∧
    Line.Command.ofLine (trim line) = .evaluate (trim line) ∧
    CommandLine.Arguments.read [" (1 "] = .settings { words := [" (1 "] } ∧
    s.calculate.Shows (.error (.malformed (.neverClosed 0) 2)) ∧
    CommandLine.run [" (1 "] =
      CommandLine.reported "(1".toList (.error (.malformed (.neverClosed 1) 4)) := by
  intro line s
  have hbreak : '\n' ∉ line := by decide
  have hblank : allBlank line = false := by decide
  have hcommand : Line.Command.ofLine (trim line) = .evaluate (trim line) := by decide
  have hread : CommandLine.Arguments.read [" (1 "] = .settings { words := [" (1 "] } := by decide
  have hreport :=
    front_ends_report ⟨1, fun _ => .ok 2⟩ hbreak hblank hcommand [] (s := s) rfl hread rfl
  obtain ⟨-, hkeypad, -, hseparated, -⟩ := hreport
  have hblanks : Separated line := ⟨List.all_eq_true.1 (by decide), List.all_eq_true.1 (by decide)⟩
  have htrim : trim line = "(1".toList := by decide
  have houtcome : evaluate "(1" = .error (.malformed (.neverClosed 0) 2) := by rfl
  rw [htrim, String.ofList_toList, houtcome] at hkeypad hseparated
  exact ⟨hbreak, hblank, hcommand, hread, hkeypad, hseparated hblanks⟩

/-- **The one-shot command places an error elsewhere than it shows it.**  In `2 + x`, which is what
all three show, the name is the fourth character after the first; the command says the fifth, since
it has counted the blank before it. -/
theorem not_reports_same_place :
    let line := " 2 + x".toList
    let text := trim line
    let s : Keypad.State := { input := " 2 + x" }
    let outcome : Except EvalError Binary64 := .error (.disallowed .identifier 4)
    '\n' ∉ line ∧ allBlank line = false ∧ Line.Command.ofLine text = .evaluate text ∧
    CommandLine.Arguments.read [" 2 + x"] = .settings { words := [" 2 + x"] } ∧
    Line.reply line = .text (Line.written text outcome) ∧ s.calculate.Shows outcome ∧
    CommandLine.run [" 2 + x"] = CommandLine.reported text (.error (.disallowed .identifier 5)) ∧
    CommandLine.run [" 2 + x"] ≠ CommandLine.reported text outcome := by
  intro line text s outcome
  refine ⟨by decide, by decide, by decide, by decide, by decide, ?_, by decide, by decide⟩
  exact .error (by decide) (by decide)

end Calculator
