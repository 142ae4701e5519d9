import Calculator.CommandLine.Arguments
import Calculator.Evaluate

/-!
# The one-shot command

With an expression the command evaluates it once: the result goes to standard output, and an error,
with the expression as it was given, to standard error.  Without one it would start an interactive
shell; the line shell is not part of this command, and the keypad needs a screen of its own.  The
whole run is a function of the arguments; only writing the answer out is left to the program.
-/

namespace Calculator.CommandLine

/-- **The answer of a run**: its exit code and what is written. -/
structure Answer where
  code : UInt32 := 0
  stdout : String := ""
  stderr : String := ""
deriving DecidableEq

/-- The text that explains the command. -/
def helpText : String :=
  "Evaluate arithmetic expressions: + - * / // % ** and parentheses\n" ++
  "\n" ++
  "Usage: safecalc [OPTIONS] [EXPRESSION]...\n" ++
  "\n" ++
  "Arguments:\n" ++
  "  [EXPRESSION]...  Expression to evaluate once; starts the interactive shell when omitted\n" ++
  "\n" ++
  "Options:\n" ++
  "  -m, --mode <MODE>            Interactive shell [possible values: tui, line]\n" ++
  "  -l, --log-level <LOG_LEVEL>  Log level (default: warn; RUST_LOG takes precedence) " ++
    "[possible values: error, warn, info, debug, trace]\n" ++
  "  -h, --help                   Print help\n" ++
  "  -V, --version                Print version\n"

/-- The text of the version. -/
def versionText : String := "safecalc 0.1.0\n"

/-- An answer that is an error of the run itself. -/
def failure (message : String) : Answer := { code := 1, stderr := "Error: " ++ message ++ "\n" }

/-- **Evaluates an expression given in words.**  The words are joined by blanks; the error shows the
expression without the blanks around it. -/
def evaluateWords (words : List String) : Answer :=
  let text := " ".intercalate words
  match calculate text with
  | .ok result => { stdout := result ++ "\n" }
  | .error e =>
    let shown := String.ofList (Text.trim text.toList)
    failure ("cannot evaluate '" ++ shown ++ "': " ++ e.message)

/-- What comes of starting a shell from the command line. -/
def startShell : Shell → Answer
  | .line => failure "safecalc was built without the \x60line\x60 feature; try --mode tui"
  | .tui => failure "the keypad needs a terminal"

/-- **A run of the command.** -/
def run (arguments : List String) : Answer :=
  match Arguments.read arguments with
  | .help => { stdout := helpText }
  | .version => { stdout := versionText }
  | .unusable e => { code := 2, stderr := e.message }
  | .settings s =>
    if s.words.isEmpty then startShell (s.shell.getD .tui) else evaluateWords s.words

end Calculator.CommandLine
