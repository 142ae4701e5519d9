import Calculator.Text.Printable
import Calculator.Text.Similarity

/-!
# Command-line arguments

The arguments are options followed by the words of an expression.  Options are recognised only in
front of the first word, so that an expression may start with a minus sign and contain anything:
whatever is not one of the known options is a word, and from the first word on everything is.  A
`--` in front of the first word only marks that the expression starts after it.

An option has a long name after two dashes, with a value after an equals sign or in the next
argument, and a letter after one dash.  Letters can be put together, but only letters of options:
the first one counts, and what follows an option that takes a value is its value.

`Arguments.read` goes through the arguments once, from left to right, and stops at the first thing
that decides: a request for help or for the version, an unusable option, or the expression.  A value
in an argument of its own is looked at only when the next option or word has been read.
-/

namespace Calculator.CommandLine

/-! ## What can be asked for -/

/-- The interactive shells. -/
inductive Shell where
  | tui
  | line
deriving DecidableEq

/-- How much is logged. -/
inductive LogLevel where
  | error
  | warn
  | info
  | debug
  | trace
deriving DecidableEq

/-- The options that take a value. -/
inductive OptionName where
  | mode
  | logLevel
deriving DecidableEq

/-- Reads the name of a shell. -/
def Shell.ofName? : String → Option Shell
  | "tui" => some tui
  | "line" => some line
  | _ => none

/-- Reads the name of a log level. -/
def LogLevel.ofName? : String → Option LogLevel
  | "error" => some error
  | "warn" => some warn
  | "info" => some info
  | "debug" => some debug
  | "trace" => some trace
  | _ => none

/-- How an option is named in messages. -/
def OptionName.usage : OptionName → String
  | mode => "--mode <MODE>"
  | logLevel => "--log-level <LOG_LEVEL>"

/-- The values that an option takes. -/
def OptionName.values : OptionName → List String
  | mode => ["tui", "line"]
  | logLevel => ["error", "warn", "info", "debug", "trace"]

/-- The options that take no value. -/
inductive FlagName where
  | help
  | version
deriving DecidableEq

/-- How a flag is named in messages. -/
def FlagName.usage : FlagName → String
  | help => "--help"
  | version => "--version"

/-- **Why an option cannot be used.** -/
inductive UsageError where
  | missingValue (option : OptionName)
  | invalidValue (option : OptionName) (value : String)
  | repeated (option : OptionName)
  /-- A value for a flag; `optionsGiven` says whether options have got their values before. -/
  | unexpectedValue (flag : FlagName) (value : String) (optionsGiven : Bool)
deriving DecidableEq

/-- The list of values in a message. -/
def OptionName.valueList (option : OptionName) : String :=
  "\n  [possible values: " ++ ", ".intercalate option.values ++ "]"

/-- The text of a usage error.  Values are shown without control sequences. -/
def UsageError.message (e : UsageError) : String :=
  let hint := "\n\nFor more information, try '--help'.\n"
  match e with
  | missingValue option =>
    "error: a value is required for '" ++ option.usage ++ "' but none was supplied" ++
      option.valueList ++ hint
  | invalidValue option value =>
    let tip := match Text.closest? value.toList option.values with
      | some similar => "\n\n  tip: a similar value exists: '" ++ similar ++ "'"
      | none => ""
    "error: invalid value '" ++ Text.printable value ++ "' for '" ++ option.usage ++ "'" ++
      option.valueList ++ tip ++ hint
  | repeated option =>
    "error: the argument '" ++ option.usage ++ "' cannot be used multiple times\n\n" ++
      "Usage: safecalc [OPTIONS] [EXPRESSION]..." ++ hint
  | unexpectedValue flag value optionsGiven =>
    let rest :=
      if optionsGiven then "<EXPRESSION|--mode <MODE>|--log-level <LOG_LEVEL>>"
      else "[EXPRESSION]..."
    "error: unexpected value '" ++ Text.printable value ++ "' for '" ++ flag.usage ++
      "' found; no more were expected\n\n" ++
      "Usage: safecalc " ++ flag.usage ++ " " ++ rest ++ hint

/-! ## One argument -/

/-- **What an argument in front of the expression is.** -/
inductive Argument where
  /-- An option; `value` is the part after an equals sign or after a letter. -/
  | option (name : OptionName) (value : Option String)
  /-- A flag; `value` is the part after an equals sign. -/
  | flag (name : FlagName) (value : Option String)
  /-- The mark in front of an expression. -/
  | separator
  /-- A word of the expression. -/
  | word
deriving DecidableEq

/-- A text before its first equals sign, and what comes after the sign. -/
def splitEquals : List Char → List Char × Option (List Char)
  | [] => ([], none)
  | '=' :: rest => ([], some rest)
  | c :: rest =>
    let (name, value) := splitEquals rest
    (c :: name, value)

/-- Reads an argument after its two dashes. -/
def Argument.ofLong (text : List Char) : Argument :=
  let (name, value) := splitEquals text
  let value := value.map String.ofList
  match String.ofList name with
  | "mode" => option .mode value
  | "log-level" => option .logLevel value
  | "help" => flag .help value
  | "version" => flag .version value
  | _ => word

/-- Whether a letter stands for an option or a flag. -/
def isOptionLetter (c : Char) : Bool := c == 'm' || c == 'l' || c == 'h' || c == 'V'

/-- Reads letters after one dash. -/
def Argument.ofLetters (letters : List Char) : Argument :=
  if !letters.all isOptionLetter then word
  else
    match letters with
    | 'm' :: rest => option .mode (if rest.isEmpty then none else some (String.ofList rest))
    | 'l' :: rest => option .logLevel (if rest.isEmpty then none else some (String.ofList rest))
    | 'h' :: _ => flag .help none
    | 'V' :: _ => flag .version none
    | _ => word

/-- Classifies an argument. -/
def Argument.ofText (text : String) : Argument :=
  match text.toList with
  | ['-', '-'] => separator
  | '-' :: '-' :: rest => ofLong rest
  | '-' :: letters => ofLetters letters
  | _ => word

/-! ## All arguments -/

/-- **What the arguments set.** -/
structure Settings where
  shell : Option Shell := none
  logLevel : Option LogLevel := none
  /-- The words of the expression. -/
  words : List String := []
deriving DecidableEq

/-- Whether the arguments can be carried out, and how. -/
inductive Arguments where
  | settings (settings : Settings)
  | help
  | version
  | unusable (e : UsageError)
deriving DecidableEq

/-- What a flag asks for. -/
def Arguments.ofFlag : FlagName → Arguments
  | .help => help
  | .version => version

/-- Takes a value where one was read, and explains why none was where not. -/
def OptionName.require {α : Type} (option : OptionName) (text : String) :
    Option α → Except UsageError α
  | some value => .ok value
  | none => .error (if text.isEmpty then .missingValue option else .invalidValue option text)

namespace Settings

/-- Whether an option has got its value. -/
def hasOptions (s : Settings) : Bool := s.shell.isSome || s.logLevel.isSome

/-- **Gives an option its value.** An option can be given once; that is checked before the value. -/
def assign (s : Settings) (option : OptionName) (text : String) : Except UsageError Settings :=
  match option with
  | .mode => do
    if s.shell.isSome then throw (.repeated option)
    let shell ← option.require text (Shell.ofName? text)
    return { s with shell := some shell }
  | .logLevel => do
    if s.logLevel.isSome then throw (.repeated option)
    let level ← option.require text (LogLevel.ofName? text)
    return { s with logLevel := some level }

end Settings

/-- **An option that was read without a value**, and the argument after it if that is to be its
value. -/
structure Pending where
  option : OptionName
  value : Option String := none
deriving DecidableEq

/-- Gives the pending option its value. -/
def Settings.settle (s : Settings) : Option Pending → Except UsageError Settings
  | none => .ok s
  | some ⟨option, some value⟩ => s.assign option value
  | some ⟨option, none⟩ => .error (.missingValue option)

/-- What is to be carried out, unless an option is unusable. -/
def Arguments.ofResult : Except UsageError Arguments → Arguments
  | .ok arguments => arguments
  | .error e => unusable e

/-- **Reads the arguments** from left to right.  An option without a value takes the next argument,
unless that is itself an option or the mark.  Of two faults the one of the pending option comes
first, but for a value that a flag cannot have. -/
def Arguments.readFrom (s : Settings) (pending : Option Pending) :
    List String → Except UsageError Arguments
  | [] => do return settings (← s.settle pending)
  | first :: rest =>
    match Argument.ofText first with
    | .separator => do return settings { ← s.settle pending with words := rest }
    | .flag name (some value) => .error (.unexpectedValue name value s.hasOptions)
    | .flag name none => do
      let _ ← s.settle pending
      return ofFlag name
    | .option name (some value) => do readFrom (← (← s.settle pending).assign name value) none rest
    | .option name none => do readFrom (← s.settle pending) (some { option := name }) rest
    | .word =>
      match pending with
      | some ⟨option, none⟩ => readFrom s (some ⟨option, some first⟩) rest
      | _ => do return settings { ← s.settle pending with words := first :: rest }

/-- Reads all arguments. -/
def Arguments.read (arguments : List String) : Arguments :=
  ofResult (readFrom {} none arguments)

end Calculator.CommandLine
