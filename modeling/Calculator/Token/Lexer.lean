import Calculator.Text.Blank
import Calculator.Token.Basic

/-!
# Cutting a text into tokens

`Lexeme.scan` never fails: a text is cut into tokens from left to right, each as long as it can be,
and what arithmetic does not know becomes a foreign or an invalid token for the parser to refuse
when it gets there.  Only four characters separate tokens and belong to none.

The work is split in two.  `Token.first` looks at the front of a text and says which token stands
there and how many further characters it takes, and `Lexeme.scan` walks over the text, placing
tokens and passing over what they took.  The walk is by recursion on the text itself, so what holds
of every scan is proved by induction on the text.
-/

namespace Calculator

open Text

/-! ## Character classes -/

/-- **Separators**: space, tab, line feed and carriage return.  Other blanks are no part of any
token language and are refused. -/
def isSeparator (c : Char) : Bool := c == ' ' || c == '\t' || c == '\n' || c == '\r'

theorem isSeparator_iff {c : Char} : isSeparator c = true ↔ c ∈ [' ', '\t', '\n', '\r'] := by
  simp only [isSeparator, Bool.or_eq_true, beq_iff_eq, List.mem_cons, List.not_mem_nil, or_false,
    or_assoc]

/-- A word starts with an ASCII letter or an underscore. -/
def isWordStart (c : Char) : Bool := c.isAlpha || c == '_'

/-- A word goes on with ASCII letters, digits and underscores. -/
def isWordPart (c : Char) : Bool := c.isAlphanum || c == '_'

/-! ## Numbers -/

/-- The digits at the front of a text with the first point among or after them. -/
def numeralRun (text : List Char) : List Char :=
  let whole := text.takeWhile Char.isDigit
  match text.dropWhile Char.isDigit with
  | '.' :: rest => whole ++ '.' :: rest.takeWhile Char.isDigit
  | _ => whole

/-- Whether a run is a whole number other than zero with a zero in front. -/
def hasLeadingZeros (run : List Char) : Bool :=
  !run.contains '.' && run.length > 1 && run.head? == some '0' && run.any (· != '0')

/-- The token of a run of digits and points. -/
def Token.ofRun (run : List Char) : Token :=
  if hasLeadingZeros run then .invalid (.leadingZeros run)
  else match Binary64.ofNumeral? run with
    | some value => .number value
    | none => .invalid (.badNumber run)

/-! ## Words and relations -/

/-- **What a word stands for**: a few words are literals or operators; any other is a function when
an opening parenthesis follows it and a name when none does. -/
def Construct.ofWord (word : List Char) (called : Bool) : Construct :=
  match String.ofList word with
  | "True" | "False" => booleanLiteral
  | "None" => noneLiteral
  | "and" | "or" | "not" => booleanOperator
  | "is" | "in" => comparison
  | _ => if called then functionCall else identifier

/-- Whether the first character of a text that is not blank opens a parenthesis. -/
def opensCall (text : List Char) : Bool := text.find? (!isBlank ·) == some '('

/-- What starts with one of `=`, `!`, `<`, `>`, and how many characters of the text after it belong
to it. -/
def Construct.ofRelation (c : Char) (next : Option Char) : Construct × Nat :=
  if next == some '=' then (comparison, 1)
  else if c == '=' then (assignment, 0)
  else if c == '!' then (booleanOperator, 0)
  else if next == some c then (bitwiseOperator, 1)
  else (comparison, 0)

/-! ## The token at the front of a text -/

/-- **The token that starts with `c`** and how many characters of the text after `c` belong to it. A
quoted text reaches to its closing quote, or to the end if it has none. -/
def Token.first (c : Char) (rest : List Char) : Token × Nat :=
  let next := rest.head?
  if c.isDigit || (c == '.' && next.any Char.isDigit) then
    let run := numeralRun (c :: rest)
    (.ofRun run, run.length - 1)
  else if isWordStart c then
    let more := rest.takeWhile isWordPart
    (.foreign (.ofWord (c :: more) (opensCall (rest.dropWhile isWordPart))), more.length)
  else match c with
    | '.' =>
      if next.any isWordStart then (.foreign .attributeAccess, 0)
      else (.invalid (.unrecognized c), 0)
    | '+' => (.plus, 0)
    | '-' => (.minus, 0)
    | '*' => if next == some '*' then (.doubleStar, 1) else (.star, 0)
    | '/' => if next == some '/' then (.doubleSlash, 1) else (.slash, 0)
    | '%' => (.percent, 0)
    | '(' => (.leftParen, 0)
    | ')' => (.rightParen, 0)
    | '\'' | '"' =>
      (.foreign .stringLiteral, min ((rest.takeWhile (· != c)).length + 1) rest.length)
    | '[' | ']' | '{' | '}' | ',' => (.foreign .collection, 0)
    | ':' => if next == some '=' then (.foreign .assignment, 1) else (.foreign .collection, 0)
    | '=' | '!' | '<' | '>' =>
      let (construct, more) := Construct.ofRelation c next
      (.foreign construct, more)
    | '&' | '|' =>
      if next == some c then (.foreign .booleanOperator, 1) else (.foreign .bitwiseOperator, 0)
    | '^' | '~' => (.foreign .bitwiseOperator, 0)
    | _ => (.invalid (.unrecognized c), 0)

/-! ## The walk over a text -/

namespace Lexeme

/-- Scans a text whose first character is at `position`, after passing over `skip` characters that
belong to the token before. -/
def scanFrom (position : Nat) : Nat → List Char → List Lexeme
  | _, [] => []
  | skip + 1, _ :: rest => scanFrom (position + 1) skip rest
  | 0, c :: rest =>
    if isSeparator c then scanFrom (position + 1) 0 rest
    else
      let (token, more) := Token.first c rest
      ⟨token, position⟩ :: scanFrom (position + 1) more rest

/-- **The tokens of a text**, from left to right. -/
def scan (text : List Char) : List Lexeme := scanFrom 0 0 text

@[simp] theorem scanFrom_nil (position skip : Nat) : scanFrom position skip [] = [] := by
  cases skip <;> rfl

theorem scanFrom_eq_drop (position skip : Nat) (text : List Char) :
    scanFrom position skip text = scanFrom (position + skip) 0 (text.drop skip) := by
  induction skip generalizing position text with
  | zero => rfl
  | succ skip ih =>
    cases text with
    | nil => simp
    | cons c rest =>
      rw [scanFrom, ih, List.drop_succ_cons, Nat.add_assoc, Nat.add_comm 1]

@[simp] theorem scan_nil : scan [] = [] := rfl

end Lexeme

end Calculator
