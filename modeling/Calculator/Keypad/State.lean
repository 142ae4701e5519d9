import Calculator.Evaluate
import Calculator.Keypad.Buttons

/-!
# The state of the keypad calculator

The state is the expression that is being typed, the result or error of the last calculation, and
what the screen shows beside them.  The operations here are what buttons and keys do to it; they
know nothing of a screen.

Typing is filtered: an operator that cannot follow the end of the expression is dropped.  The filter
is a convenience and decides nothing about validity, which is the parser's alone; a token of several
characters passes it as it is.
-/

namespace Calculator.Keypad

open Terminal

/-- **The state of the calculator.** -/
structure State where
  /-- The expression as typed. -/
  input : String := ""
  /-- The last result as shown. -/
  result : String := "0"
  lastError : Option EvalError := none
  /-- A message about the last command. -/
  status : Option String := none
  shouldQuit : Bool := false
  showHelp : Bool := false
  helpScroll : Nat := 0
  /-- Where the buttons were drawn last. -/
  buttonAreas : List (Area × Action) := []
  /-- Whether the screen was too small when it was drawn last. -/
  tooSmall : Bool := false
  /-- The text that was copied last. -/
  copied : Option String := none
deriving DecidableEq

/-! ## The filter -/

/-- The characters that the filter looks at. -/
def isFiltered (c : Char) : Bool :=
  c == '+' || c == '-' || c == '*' || c == '/' || c == '%' || c == '.'

/-- **Whether a filtered character may follow another one.** `typed` is the expression read
backwards. Doubling makes `**` and `//`, but nothing is tripled; a minus sign may follow `*`, `/`
and `%`. -/
def mayFollowFiltered (typed : List Char) (c : Char) : Bool :=
  match c, typed with
  | '*', '*' :: before => before.head? != some '*'
  | '/', '/' :: before => before.head? != some '/'
  | '-', last :: _ => last == '*' || last == '/' || last == '%'
  | _, _ => false

/-- Whether the filter lets a character through; `typed` is the expression read backwards. -/
def accepts (typed : List Char) (c : Char) : Bool :=
  match typed with
  | [] => !isFiltered c || c == '-'
  | last :: _ => !isFiltered c || !isFiltered last || mayFollowFiltered typed c

/-- Whether a token is typed: a single character must pass the filter. -/
def acceptsToken (input token : String) : Bool :=
  match token.toList with
  | [c] => accepts input.toList.reverse c
  | _ => true

/-! ## Operations -/

namespace State

/-- **Types a token**, if the filter lets it through. -/
def press (s : State) (token : String) : State :=
  if acceptsToken s.input token then { s with input := s.input ++ token, status := none } else s

/-- Removes the last character. -/
def backspace (s : State) : State :=
  { s with input := String.ofList s.input.toList.dropLast, status := none }

/-- Starts anew. -/
def clear (s : State) : State :=
  { s with input := "", result := "0", lastError := none, status := none }

/-- **Evaluates the expression.** A value takes the place of the expression in full precision; an
error leaves the expression as typed.  A blank expression is left alone. -/
def calculate (s : State) : State :=
  let expression := Text.trim s.input.toList
  if expression.isEmpty then s
  else match evaluate (String.ofList expression) with
    | .ok value =>
      { s with
        input := toString value
        result := formatResult value
        lastError := none
        status := none }
    | .error e => { s with result := "Error", lastError := some e, status := none }

/-- Carries out an action. -/
def trigger (s : State) : Action → State
  | .insert token => s.press token
  | .clear => s.clear
  | .backspace => s.backspace
  | .calculate => s.calculate

/-- **A click on a cell of the screen** triggers the button that was drawn there, if any. -/
def click (s : State) (x y : Nat) : State :=
  match s.buttonAreas.find? fun (area, _) => area.contains x y with
  | some (_, action) => s.trigger action
  | none => s

end State

end Calculator.Keypad
