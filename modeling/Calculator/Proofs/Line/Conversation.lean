import Calculator.Proofs.FrontEnds

/-!
# The conversation of a session

Whatever comes from the terminal is a script: lines that are edited and submitted, then a line that
is still being edited, and then, unless there is nothing more, an input at which the session stops
(`Script.exists_inputs`).  A session on a script draws each line while it is edited and replies to
it when it is submitted; the reply is a function of the text of that line, and of no other line.  It
stops at the first line that asks to quit, at a prompt whose row the terminal does not report, or
else behind the line that is never submitted (`Session.answers_each_line`).
-/

namespace Calculator.Line

open Text

/-! ## Scripts -/

/-- Whether the session stops at an input, whatever line is being typed. -/
def Input.stops : Input → Bool
  | .failure | .key (.control 'c') | .key (.control 'd') => true
  | _ => false

/-- **Every input edits the line, submits it or stops the session.** -/
theorem Input.edits_or_submits_or_stops (input : Input) :
    (∃ key : Key, key.edits = true ∧ input = .key key) ∨ input = .key (.char '\n') ∨
      input.stops = true := by
  cases input with
  | failure => exact .inr (.inr rfl)
  | key key =>
    cases hedits : key.edits with
    | true => exact .inl ⟨key, hedits, rfl⟩
    | false =>
      unfold Key.edits at hedits
      split at hedits
      case h_1 => exact .inr (.inl rfl)
      case h_2 | h_3 => exact .inr (.inr rfl)
      case h_4 => cases hedits

/-- The keys that edit a line, and the key that submits it. -/
def submission (keys : List Key) : List Input := keys.map .key ++ [.key (.char '\n')]

/-- **What comes from the terminal**, cut into lines. -/
structure Script where
  /-- The keys of each line that is submitted. -/
  lines : List (List Key)
  /-- The keys of the line that is never submitted. -/
  pending : List Key
  /-- The input at which the session stops and everything behind it, if there is one. -/
  rest : List Input
  lines_edit : ∀ keys ∈ lines, ∀ key ∈ keys, key.edits = true
  pending_edits : ∀ key ∈ pending, key.edits = true
  rest_stops : ∀ input ∈ rest.head?, input.stops = true

namespace Script

/-- What is typed behind the submitted lines. -/
def unsubmitted (script : Script) : List Input := script.pending.map .key ++ script.rest

/-- The inputs of a script. -/
def inputs (script : Script) : List Input :=
  script.lines.flatMap submission ++ script.unsubmitted

/-- A script with one more line in front. -/
def withLine (script : Script) (keys : List Key) (h : ∀ key ∈ keys, key.edits = true) : Script :=
  { script with
    lines := keys :: script.lines
    lines_edit := List.forall_mem_cons.2 ⟨h, script.lines_edit⟩ }

theorem inputs_withLine (script : Script) {keys : List Key} (h : ∀ key ∈ keys, key.edits = true) :
    (script.withLine keys h).inputs = submission keys ++ script.inputs := by
  rw [inputs, inputs, ← List.append_assoc]
  rfl

/-- **Induction along a script**, over one line in front. -/
theorem induction_lines {motive : Script → Prop}
    (unsubmitted : ∀ pending rest hpending hrest,
      motive ⟨[], pending, rest, List.forall_mem_nil _, hpending, hrest⟩)
    (line : ∀ script keys h, motive script → motive (script.withLine keys h)) (script : Script) :
    motive script := by
  obtain ⟨lines, pending, rest, hlines, hpending, hrest⟩ := script
  induction lines with
  | nil => exact unsubmitted pending rest hpending hrest
  | cons keys later ih =>
    obtain ⟨hkeys, hlater⟩ := List.forall_mem_cons.1 hlines
    exact line ⟨later, pending, rest, hlater, hpending, hrest⟩ keys hkeys (ih hlater)

/-- **Any inputs are a script.** -/
theorem exists_inputs (inputs : List Input) : ∃ script : Script, script.inputs = inputs := by
  induction inputs with
  | nil => exact ⟨⟨[], [], [], by simp, by simp, by simp⟩, rfl⟩
  | cons input inputs ih =>
    obtain ⟨⟨lines, pending, rest, hlines, hpending, hrest⟩, rfl⟩ := ih
    rcases input.edits_or_submits_or_stops with ⟨key, hkey, rfl⟩ | rfl | hstops
    · -- the key belongs to the line in front, be it submitted or pending
      cases lines with
      | nil =>
        exact ⟨⟨[], key :: pending, rest, by simp, List.forall_mem_cons.2 ⟨hkey, hpending⟩, hrest⟩,
          rfl⟩
      | cons keys lines =>
        obtain ⟨hkeys, hlater⟩ := List.forall_mem_cons.1 hlines
        exact ⟨⟨(key :: keys) :: lines, pending, rest,
          List.forall_mem_cons.2 ⟨List.forall_mem_cons.2 ⟨hkey, hkeys⟩, hlater⟩, hpending, hrest⟩,
          rfl⟩
    · exact ⟨⟨[] :: lines, pending, rest, List.forall_mem_cons.2 ⟨by simp, hlines⟩, hpending,
        hrest⟩, rfl⟩
    · exact ⟨⟨[], [], input :: _, by simp, by simp, by simpa using hstops⟩, rfl⟩

end Script

/-! ## Replies -/

/-- **The text of a line** that is submitted after these keys, without the blanks around it. -/
def lineText (keys : List Key) : List Char :=
  let s := keys.foldl Sides.edit .empty
  trim (s.before ++ s.after)

/-- A text in small letters. -/
def lowered (text : List Char) : String := String.ofList (text.map Char.toLower)

/-- Whether a text asks for the end of the session. -/
def asksToQuit (text : List Char) : Bool := ["quit", "exit", "q"].contains (lowered text)

/-- Whether a text asks for help. -/
def asksForHelp (text : List Char) : Bool := lowered text == "help"

theorem Command.ofLine_eq (text : List Char) :
    ofLine text =
      if asksToQuit text then .quit else if asksForHelp text then .help else .evaluate text := by
  rw [ofLine, asksToQuit, asksForHelp, ← lowered]
  split
  case h_1 hword | h_2 hword | h_3 hword | h_4 hword =>
    rw [hword]
    rfl
  case h_5 hquit hexit hq hhelp =>
    have hstays : ¬ (["quit", "exit", "q"].contains (lowered text) = true) := by
      simpa using ⟨hquit, hexit, hq⟩
    rw [if_neg hstays, if_neg (mt eq_of_beq hhelp)]

/-- **The response to a text** that does not ask for the end of the session. -/
def response (text : List Char) : String :=
  if text.isEmpty then "\r\n"
  else if asksForHelp text then helpReply
  else written text (evaluate (String.ofList text))

/-- What the session takes its leave with. -/
def farewell : String := "\r\nGoodbye!\r\n"

/-- **The reply to a line is a function of its text.** -/
theorem reply_eq (line : List Char) :
    reply line =
      if asksToQuit (trim line) then .farewell farewell else .text (response (trim line)) := by
  simp only [reply, response, Command.ofLine_eq, ← answer_eq]
  cases hempty : (trim line).isEmpty with
  | true =>
    rw [List.isEmpty_iff.1 hempty]
    rfl
  | false =>
    cases asksToQuit (trim line) <;> cases asksForHelp (trim line) <;> rfl

example : reply " QuIt ".toList = .farewell farewell := by decide

/-- Letters come behind the digits, so there is none that could be lowered. -/
theorem lowered_eq_of_le_nine {text : List Char} (h : ∀ c ∈ text, c ≤ '9') :
    lowered text = String.ofList text := by
  have hlower : ∀ c ∈ text, c.toLower = c := by
    intro c hc
    refine dif_neg fun hupper => ?_
    exact absurd (Char.le_trans hupper.1 (h c hc)) (by decide)
  rw [lowered, List.map_congr_left hlower, List.map_id']

/-- **No command is written without letters.** -/
theorem not_asks_of_le_nine {text : List Char} (h : ∀ c ∈ text, c ≤ '9') :
    asksToQuit text = false ∧ asksForHelp text = false := by
  have hne : ∀ word : String, (∃ c ∈ word.toList, ¬ c ≤ '9') → lowered text ≠ word := by
    rintro word ⟨c, hc, hletter⟩ rfl
    rw [lowered_eq_of_le_nine h, String.toList_ofList] at hc
    exact hletter (h c hc)
  constructor
  · refine Bool.eq_false_iff.2 fun hquit => ?_
    simp only [asksToQuit, List.contains_iff_mem, List.mem_cons, List.not_mem_nil, or_false]
      at hquit
    rcases hquit with hword | hword | hword
    · exact hne _ ⟨'q', by decide, by decide⟩ hword
    · exact hne _ ⟨'e', by decide, by decide⟩ hword
    · exact hne _ ⟨'q', by decide, by decide⟩ hword
  · refine Bool.eq_false_iff.2 fun hhelp => ?_
    exact hne _ ⟨'h', by decide, by decide⟩ (eq_of_beq hhelp)

theorem Command.ofLine_of_le_nine {text : List Char} (h : ∀ c ∈ text, c ≤ '9') :
    ofLine text = .evaluate text := by
  obtain ⟨hquit, hhelp⟩ := not_asks_of_le_nine h
  simp [ofLine_eq, hquit, hhelp]

/-! ## Conversations -/

/-- What is drawn while a line is edited. -/
def drawings (row : Nat) (keys : List Key) : List String :=
  (keys.scanl Sides.edit .empty).tail.map fun s => redraw row s.buffer

/-- What is written at a prompt: the line is started only if its row is reported. -/
def Reports.heading (reports : Reports) (n : Nat) : String :=
  match reports n with
  | .ok row => prompt row
  | .error _ => promptMark

/-- **What is written of lines that are answered** in these rows: the drawings of each line, and the
response to its text with the next prompt behind it. -/
def exchanges (reports : Reports) (row : Nat → Nat) (lines : List (List Key)) : List String :=
  (lines.mapIdx fun n keys =>
    drawings (row n) keys ++ [response (lineText keys) ++ reports.heading (n + 1)]).flatten

theorem exchanges_cons (reports : Reports) (row : Nat → Nat) (keys : List Key)
    (later : List (List Key)) :
    exchanges reports row (keys :: later) =
      drawings (row 0) keys ++ (response (lineText keys) ++ reports.heading 1) ::
        exchanges (fun n => reports (n + 1)) (fun n => row (n + 1)) later := by
  rw [exchanges, List.mapIdx_cons, List.flatten_cons, List.append_assoc]
  rfl

/-- How a session ends that no line asks to quit. -/
def closing : List Input → Transcript
  | [] => ⟨["\r\n"], .closed, 0⟩
  | .failure :: unread => ⟨[""], .readFailed, unread.length⟩
  | .key _ :: unread => ⟨["\r\n"], .closed, unread.length⟩

/-- Whether a line that is submitted after these keys does not ask to quit. -/
def goesOn (keys : List Key) : Bool := !asksToQuit (lineText keys)

namespace Script

/-- The lines before the first one that asks to quit. -/
def answered (script : Script) : List (List Key) := script.lines.takeWhile goesOn

/-- **The conversation on a terminal that reports its rows**, behind what is written before.  Each
line is answered in its turn, until one asks to quit. -/
def conversation (script : Script) (written : String) (reports : Reports) (row : Nat → Nat) :
    Transcript :=
  let shown := (written ++ reports.heading 0) :: exchanges reports row script.answered
  let here := row script.answered.length
  match script.lines.dropWhile goesOn with
  | [] => (closing script.rest).after (shown ++ drawings here script.pending)
  | keys :: later =>
    ⟨shown ++ drawings here keys ++ [farewell], .closed,
      (later.flatMap submission ++ script.unsubmitted).length⟩

/-- **The conversation up to a prompt** whose row is not reported. -/
def interrupted (script : Script) (written : String) (reports : Reports) (row : Nat → Nat)
    (count : Nat) (reason : String) : Transcript :=
  ⟨(written ++ reports.heading 0) :: exchanges reports row (script.lines.take count),
    .rowUnknown reason,
    ((script.lines.drop count).flatMap submission ++ script.unsubmitted).length⟩

section WithLine

variable {script : Script} {written : String} {reports : Reports} {row : Nat → Nat}
  {keys : List Key} (hkeys : ∀ key ∈ keys, key.edits = true)

theorem answered_withLine (hgoes : goesOn keys = true) :
    (script.withLine keys hkeys).answered = keys :: script.answered :=
  List.takeWhile_cons_of_pos hgoes

theorem conversation_withLine (hgoes : goesOn keys = true) :
    (script.withLine keys hkeys).conversation written reports row =
      (script.conversation (response (lineText keys)) (fun n => reports (n + 1))
        fun n => row (n + 1)).after ((written ++ reports.heading 0) :: drawings (row 0) keys) := by
  have hdropped : (script.withLine keys hkeys).lines.dropWhile goesOn =
      script.lines.dropWhile goesOn := List.dropWhile_cons_of_pos hgoes
  simp only [conversation, answered_withLine hkeys hgoes, hdropped, exchanges_cons]
  cases script.lines.dropWhile goesOn <;>
    simp [Transcript.after, Reports.heading, withLine, unsubmitted]

theorem conversation_withLine_of_quit (hquits : goesOn keys = false) :
    (script.withLine keys hkeys).conversation written reports row =
      ⟨(written ++ reports.heading 0) :: (drawings (row 0) keys ++ [farewell]), .closed,
        script.inputs.length⟩ := by
  simp [conversation, answered, withLine, hquits, exchanges, inputs, unsubmitted]

theorem interrupted_withLine (count : Nat) (reason : String) :
    (script.withLine keys hkeys).interrupted written reports row (count + 1) reason =
      (script.interrupted (response (lineText keys)) (fun n => reports (n + 1))
        (fun n => row (n + 1)) count reason).after
          ((written ++ reports.heading 0) :: drawings (row 0) keys) := by
  simp [interrupted, withLine, exchanges_cons, Transcript.after, Reports.heading, unsubmitted]

end WithLine

end Script

/-! ## Sessions -/

namespace Session

variable {reports : Reports} {row : Nat → Nat} {reason : String}

/-- A session stops at an input that stops it, or where there is none. -/
theorem runFrom_stops (rows : Rows) (b : Buffer) {rest : List Input}
    (h : ∀ input ∈ rest.head?, input.stops = true) : runFrom rows b rest = closing rest := by
  cases rest with
  | nil => rfl
  | cons input unread =>
    have hstops : input.stops = true := h input rfl
    unfold Input.stops at hstops
    split at hstops
    case h_1 | h_2 | h_3 => rfl
    case h_4 => cases hstops

theorem drawings_eq (row : Nat) (keys : List Key) :
    (keys.scanl Buffer.edit .empty).tail.map (redraw row) = drawings row keys := by
  have hvisited : keys.scanl Buffer.edit .empty = (keys.scanl Sides.edit .empty).map Sides.buffer :=
    Sides.scanl_edit_buffer .empty keys
  rw [hvisited, ← List.map_tail, List.map_map]
  rfl

/-- **A session from a prompt on**, behind what is written before. -/
def fromPrompt (reports : Reports) (written : String) (inputs : List Input) : Transcript :=
  (startLine reports written).followedBy inputs fun rows line => runFrom rows line inputs

theorem fromPrompt_of_ok {r : Nat} (h : reports 0 = .ok r) (written : String)
    (inputs : List Input) :
    fromPrompt reports written inputs =
      (runFrom ⟨r, fun n => reports (n + 1)⟩ .empty inputs).after
        [written ++ reports.heading 0] := by
  simp only [fromPrompt, startLine, Reports.next, Reports.heading, h]
  rfl

theorem fromPrompt_of_error (h : reports 0 = .error reason) (written : String)
    (inputs : List Input) :
    fromPrompt reports written inputs =
      ⟨[written ++ reports.heading 0], .rowUnknown reason, inputs.length⟩ := by
  simp only [fromPrompt, startLine, Reports.next, Reports.heading, h]
  rfl

/-- **A line is drawn while it is edited and replied to when it is submitted.** -/
theorem runFrom_submission (rows : Rows) {keys : List Key} (h : ∀ key ∈ keys, key.edits = true)
    (later : List Input) :
    runFrom rows .empty (submission keys ++ later) =
      (if goesOn keys then fromPrompt rows.later (response (lineText keys)) later
        else ⟨[farewell], .closed, later.length⟩).after (drawings rows.row keys) := by
  have hline : keys.foldl Buffer.edit .empty = (keys.foldl Sides.edit .empty).buffer :=
    Sides.foldl_edit_buffer .empty keys
  have hreply : reply (keys.foldl Sides.edit .empty).buffer.text =
      if asksToQuit (lineText keys) then .farewell farewell else .text (response (lineText keys)) :=
    reply_eq _
  have hinputs : submission keys ++ later = keys.map .key ++ .key (.char '\n') :: later := by
    simp [submission]
  rw [hinputs, runFrom_line rows h, hline, drawings_eq, hreply, goesOn]
  cases asksToQuit (lineText keys) <;> rfl

/-- **A line that is answered** leaves the rest of the session behind the next prompt. -/
theorem fromPrompt_submission {keys : List Key} (hkeys : ∀ key ∈ keys, key.edits = true)
    (hgoes : goesOn keys = true) (hrow : reports 0 = .ok (row 0)) (written : String)
    (later : List Input) :
    fromPrompt reports written (submission keys ++ later) =
      (fromPrompt (fun n => reports (n + 1)) (response (lineText keys)) later).after
        ((written ++ reports.heading 0) :: drawings (row 0) keys) := by
  rw [fromPrompt_of_ok hrow, runFrom_submission _ hkeys, if_pos hgoes, Transcript.after_after]
  rfl

/-- **A session on a script**, from a prompt on, where all rows are reported that are asked for. -/
theorem fromPrompt_inputs (script : Script)
    (hrows : ∀ n ≤ script.answered.length, reports n = .ok (row n)) (written : String) :
    fromPrompt reports written script.inputs = script.conversation written reports row := by
  have hrow : reports 0 = .ok (row 0) := hrows 0 (Nat.zero_le _)
  induction script using Script.induction_lines generalizing reports row written with
  | unsubmitted pending rest hpending hrest =>
    have hrun := runFrom_edits ⟨row 0, fun n => reports (n + 1)⟩ .empty hpending rest
    rw [runFrom_stops _ _ hrest, drawings_eq] at hrun
    rw [fromPrompt_of_ok hrow]
    exact (congrArg (Transcript.after · _) hrun).trans (Transcript.after_after _ _ _)
  | line script keys hkeys ih =>
    rw [Script.inputs_withLine]
    cases hgoes : goesOn keys with
    | false =>
      rw [fromPrompt_of_ok hrow, runFrom_submission _ hkeys, hgoes,
        Script.conversation_withLine_of_quit hkeys hgoes]
      rfl
    | true =>
      rw [Script.answered_withLine hkeys hgoes] at hrows
      have hlater : ∀ n ≤ script.answered.length, reports (n + 1) = .ok (row (n + 1)) :=
        fun n hn => hrows (n + 1) (Nat.succ_le_succ hn)
      rw [fromPrompt_submission hkeys hgoes hrow,
        ih hlater (response (lineText keys)) (hlater 0 (Nat.zero_le _)),
        Script.conversation_withLine hkeys hgoes]

/-- **A session on a script** up to a prompt whose row is not reported. -/
theorem fromPrompt_interrupted (script : Script) {count : Nat}
    (hcount : count ≤ script.answered.length) (hrows : ∀ n < count, reports n = .ok (row n))
    (hfails : reports count = .error reason) (written : String) :
    fromPrompt reports written script.inputs =
      script.interrupted written reports row count reason := by
  induction script using Script.induction_lines generalizing reports row count written with
  | unsubmitted pending rest hpending hrest =>
    obtain rfl : count = 0 := Nat.le_zero.1 hcount
    exact fromPrompt_of_error hfails written _
  | line script keys hkeys ih =>
    cases count with
    | zero => exact fromPrompt_of_error hfails written _
    | succ count =>
      cases hgoes : goesOn keys with
      | false => simp [Script.answered, Script.withLine, hgoes] at hcount
      | true =>
        rw [Script.answered_withLine hkeys hgoes] at hcount
        have hlater : ∀ n < count, reports (n + 1) = .ok (row (n + 1)) :=
          fun n hn => hrows (n + 1) (Nat.succ_lt_succ hn)
        rw [Script.inputs_withLine, fromPrompt_submission hkeys hgoes (hrows 0 (Nat.succ_pos _)),
          ih (Nat.le_of_succ_le_succ hcount) hlater hfails, Script.interrupted_withLine]

/-- **Either all rows are reported** at the prompts up to a given one, or there is a first prompt
whose row is not. -/
theorem reported_or_fails (reports : Reports) (last : Nat) :
    (∃ row : Nat → Nat, ∀ n ≤ last, reports n = .ok (row n)) ∨
      ∃ (row : Nat → Nat) (count : Nat) (reason : String), count ≤ last ∧
        (∀ n < count, reports n = .ok (row n)) ∧ reports count = .error reason := by
  induction last with
  | zero =>
    cases hfirst : reports 0 with
    | ok r =>
      refine .inl ⟨fun _ => r, fun n hn => ?_⟩
      rwa [Nat.le_zero.1 hn]
    | error reason =>
      exact .inr ⟨fun _ => 0, 0, reason, Nat.le_refl 0, fun n hn => absurd hn (Nat.not_lt_zero n),
        hfirst⟩
  | succ last ih =>
    rcases ih with ⟨row, hrows⟩ | ⟨row, count, reason, hcount, hrows, hfails⟩
    · cases hlast : reports (last + 1) with
      | ok r =>
        refine .inl ⟨fun n => if n ≤ last then row n else r, fun n hn => ?_⟩
        by_cases hbefore : n ≤ last
        · simpa only [if_pos hbefore] using hrows n hbefore
        · obtain rfl : n = last + 1 := by omega
          simpa only [if_neg hbefore] using hlast
      | error reason =>
        exact .inr ⟨row, last + 1, reason, Nat.le_refl _,
          fun n hn => hrows n (Nat.le_of_lt_succ hn), hlast⟩
    · exact .inr ⟨row, count, reason, Nat.le_succ_of_le hcount, hrows, hfails⟩

/-- **A session answers its lines one by one.**  Whatever comes from the terminal is a script.  If
the terminal reports the rows that it is asked for, the session on the script is its conversation.
Each line that is submitted before one that asks to quit has a response, which depends on the text
of that line alone.  The session stops at the line that asks to quit, or else behind the line that
is never submitted, of which it only draws the editing; what comes then is not read.  If there is a
prompt whose row is not reported, the session is the same up to this prompt and stops there.  A text
that has a value is written in characters before the letters, and is no command with or without the
blanks around it. -/
theorem answers_each_line (reports : Reports) :
    (∀ inputs, ∃ script : Script, script.inputs = inputs) ∧
    (∀ script : Script,
      (∃ row : Nat → Nat, (∀ n ≤ script.answered.length, reports n = .ok (row n)) ∧
        run reports script.inputs = script.conversation banner reports row) ∨
      ∃ (row : Nat → Nat) (count : Nat) (reason : String), count ≤ script.answered.length ∧
        (∀ n < count, reports n = .ok (row n)) ∧ reports count = .error reason ∧
        run reports script.inputs = script.interrupted banner reports row count reason) ∧
    (∀ text v, evaluate (String.ofList text) = .ok v →
      (∀ c ∈ text, c ≤ '9') ∧
      Command.ofLine text = .evaluate text ∧
      Command.ofLine (trim text) = .evaluate (trim text)) := by
  refine ⟨Script.exists_inputs, fun script => ?_, fun text v hvalue => ?_⟩
  · rcases reported_or_fails reports script.answered.length with
      ⟨row, hrows⟩ | ⟨row, count, reason, hcount, hrows, hfails⟩
    · exact .inl ⟨row, hrows, fromPrompt_inputs script hrows banner⟩
    · exact .inr ⟨row, count, reason, hcount, hrows, hfails,
        fromPrompt_interrupted script hcount hrows hfails banner⟩
  · have hnine : ∀ c ∈ text, c ≤ '9' := by
      intro c hc
      refine le_nine_of_isAllowed (isAllowed_of_evaluate hvalue c ?_)
      rwa [String.toList_ofList]
    have htrim : ∀ c ∈ trim text, c ≤ '9' := by
      intro c hc
      refine hnine c ?_
      rw [← leading_trim_trailing text]
      simp [hc]
    exact ⟨hnine, Command.ofLine_of_le_nine hnine, Command.ofLine_of_le_nine htrim⟩

example :
    let reports : Reports := fun n => if n < 2 then .ok (5 + n) else .error "no answer"
    let enter : Input := .key (.char '\n')
    run reports [.key (.char ' '), enter, enter, .key (.char 'q'), enter] =
      ⟨[banner ++ prompt 5, redraw 5 ⟨[' '], 1⟩, "\r\n" ++ prompt 6, "\r\n" ++ promptMark],
        .rowUnknown "no answer", 2⟩ := by
  rfl

end Session

end Calculator.Line
