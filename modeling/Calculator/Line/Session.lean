import Calculator.Evaluate
import Calculator.Line.Buffer
import Calculator.Line.Command

/-!
# The line session

A session is a conversation over a terminal in raw mode: keys come in one by one, and after each key
the program writes what changes on the screen.  Enter submits the line that is being typed; its
reply depends on the submitted text alone, and the next line starts empty.  The session ends with a
quit command, with control-C or control-D, when a key cannot be read and when there are no more
keys.

At each prompt the terminal is asked for the row of its cursor, and the line that is typed there is
drawn in this row.  The rows are whatever the terminal reports, and a report that fails ends the
session.

`Session.step` is what one key does, and `Session.run` is a whole session as a `Transcript`: what
was written before the first key and after each request for a key, how the session ended, and how
many keys were left unread.
-/

namespace Calculator.Line

open Text

/-! ## What is written -/

/-- Moves the terminal's cursor; columns and rows count from one. -/
def goTo (column row : Nat) : String :=
  "\x1b[" ++ toString row ++ ";" ++ toString column ++ "H"

/-- Erases the row of the cursor. -/
def eraseRow : String := "\x1b[2K"

/-- The column of the cursor after `count` characters: they start in column three.  Columns have
16 bits, so from 65533 characters on the sum overflows: it starts again from zero, or ends the
program where overflow is checked. -/
def cursorColumn (count : Nat) : UInt16 := 3 + .ofNat count

/-- **Draws the line again**: the prompt, the text, and the cursor at its place. -/
def redraw (row : Nat) (b : Buffer) : String :=
  goTo 1 row ++ eraseRow ++ "> " ++ String.ofList b.text ++
    goTo (cursorColumn b.before.length).toNat row

/-- What a new line starts with, before its row is known. -/
def promptMark : String := "\r" ++ eraseRow ++ "> "

/-- **Starts a new line** in a row. -/
def prompt (row : Nat) : String := promptMark ++ redraw row .empty

/-- What a session starts with. -/
def banner : String :=
  "SafeCalc\n" ++
  "Supports: + - * / // % ** and parentheses\n" ++
  "Navigation: ←/→, Backspace/Delete, Home/End\n" ++
  "Commands: 'help', 'quit' to exit\n\n"

/-- The answer to the help command. -/
def helpReply : String :=
  "\r\n  Precedence: + -  <  * / // %  <  unary + -  <  **\r\n" ++
  "  Power is right-associative; % and // follow the divisor's sign.\r\n\n"

/-! ## Replies -/

/-- How a submitted line is answered. -/
inductive Reply where
  | text (written : String)
  | farewell (written : String)
deriving DecidableEq

/-- The answer to an expression: the expression and its value or its error. -/
def answer (expression : List Char) : String :=
  let text := String.ofList expression
  "\r\n  " ++ text ++ " = " ++
    (match calculate text with
      | .ok result => result
      | .error e => "Error: " ++ e.message) ++
    "\r\n\n"

/-- **The reply to a submitted line.**  Blanks around it are removed first, and a blank line is
answered by a line break. -/
def reply (line : List Char) : Reply :=
  let trimmed := trim line
  if trimmed.isEmpty then .text "\r\n"
  else match Command.ofLine trimmed with
    | .quit => .farewell "\r\nGoodbye!\r\n"
    | .help => .text helpReply
    | .evaluate expression => .text (answer expression)

/-! ## Sessions -/

/-- How a session ends. -/
inductive Ending where
  /-- As the user wanted, or because there are no more keys. -/
  | closed
  /-- A key could not be read. -/
  | readFailed
  /-- The terminal did not tell the row of its cursor. -/
  | rowUnknown (reason : String)
  /-- The terminal cannot be switched to raw mode. -/
  | notATerminal
deriving DecidableEq

/-- What comes from the terminal when a key is asked for. -/
inductive Input where
  | key (key : Key)
  | failure
deriving DecidableEq

/-- **What was written and what was read.** -/
structure Transcript where
  /-- What was written before the first request for a key and after each one. -/
  output : List String
  ending : Ending
  /-- How many keys were never asked for. -/
  unread : Nat
deriving DecidableEq

/-- A transcript with more written before it. -/
def Transcript.after (t : Transcript) (written : List String) : Transcript :=
  { t with output := written ++ t.output }

/-- **The rows that the terminal reports**, prompt by prompt, or why it does not report one. -/
abbrev Reports := Nat → Except String Nat

/-- **The row of the line that is being typed**, with the reports at the prompts behind it. -/
structure Rows where
  row : Nat
  later : Reports

/-- The row of the next line. -/
def Reports.next (reports : Reports) : Except String Rows :=
  (reports 0).map fun row => ⟨row, fun n => reports (n + 1)⟩

namespace Session

/-- What a key leads to. -/
inductive Step where
  | continue (written : String) (rows : Rows) (line : Buffer)
  | stop (written : String) (ending : Ending)

/-- **Starts a line**, behind what is written before: the terminal is asked for the row of its
cursor, in which the line is drawn. -/
def startLine (reports : Reports) (written : String) : Step :=
  match reports.next with
  | .ok rows => .continue (written ++ prompt rows.row) rows .empty
  | .error reason => .stop (written ++ promptMark) (.rowUnknown reason)

/-- **What one key does.** -/
def step (rows : Rows) (b : Buffer) : Input → Step
  | .failure => .stop "" .readFailed
  | .key (.char '\n') =>
    match reply b.text with
    | .text written => startLine rows.later written
    | .farewell written => .stop written .closed
  | .key (.control 'c') | .key (.control 'd') => .stop "\r\n" .closed
  | .key key => .continue (redraw rows.row (b.edit key)) rows (b.edit key)

/-- What is written after a step, with the session that goes on from it if it does. -/
def Step.followedBy (step : Step) (rest : List Input) (session : Rows → Buffer → Transcript) :
    Transcript :=
  match step with
  | .continue written rows line => (session rows line).after [written]
  | .stop written ending => ⟨[written], ending, rest.length⟩

/-- A session in which the line `b` is being typed. -/
def runFrom (rows : Rows) (b : Buffer) : List Input → Transcript
  | [] => ⟨["\r\n"], .closed, 0⟩
  | input :: rest => (step rows b input).followedBy rest fun rows line => runFrom rows line rest

/-- **A whole session** on a terminal with these reports. -/
def run (reports : Reports) (inputs : List Input) : Transcript :=
  (startLine reports banner).followedBy inputs fun rows line => runFrom rows line inputs

/-- What happens where there is no terminal. -/
def runWithoutTerminal (inputs : List Input) : Transcript :=
  ⟨[banner], .notATerminal, inputs.length⟩

end Session

/-- The text of an ending that is an error. -/
def Ending.message? : Ending → Option String
  | closed => none
  | readFailed => some "read failed"
  | rowUnknown reason => some reason
  | notATerminal => some "Failed to switch the terminal to raw mode: not a terminal"

end Calculator.Line
