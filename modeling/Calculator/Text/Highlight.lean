/-!
# Highlighting an expression

For display an expression is cut into pieces by the **role** of their characters: runs of digits and
points are numbers, the five operator characters stand alone, and so does every other character.
The pieces put together are the text again.  The cut looks at single characters only and never
refuses anything, since it also serves texts that are no expression yet.

Characters are read one by one.  A number may always go on, so it becomes a piece only when another
character comes or the text ends.
-/

namespace Calculator.Text

/-- What a piece of an expression is shown as. -/
inductive Role where
  | number
  | operator
  | plain
deriving DecidableEq

/-- A piece of an expression. -/
structure Piece where
  text : List Char
  role : Role
deriving DecidableEq

/-- Digits and points belong to numbers. -/
def isNumeric (c : Char) : Bool := c.isDigit || c == '.'

/-- The operator characters. -/
def isOperatorChar (c : Char) : Bool :=
  c == '+' || c == '-' || c == '*' || c == '/' || c == '%'

/-- The role of a character. -/
def Role.of (c : Char) : Role :=
  if isNumeric c then number else if isOperatorChar c then operator else plain

/-! ## Cutting -/

/-- The state of the cut. -/
structure Highlighting where
  /-- The pieces that are complete. -/
  complete : List Piece := []
  /-- The number that is being read; nothing if the last character belongs to none. -/
  number : List Char := []

namespace Highlighting

/-- The pieces of what has been read, with the number that is being read as the last one. -/
def finish (h : Highlighting) : List Piece :=
  if h.number.isEmpty then h.complete else h.complete ++ [⟨h.number, .number⟩]

/-- **Reads one character**: a numeric one joins the number that is being read, any other completes
it and is a piece of its own. -/
def step (h : Highlighting) (c : Char) : Highlighting :=
  match Role.of c with
  | .number => { h with number := h.number ++ [c] }
  | role => { complete := h.finish ++ [⟨[c], role⟩] }

end Highlighting

/-- **The pieces of an expression.** -/
def pieces (text : List Char) : List Piece := (text.foldl Highlighting.step {}).finish

@[simp] theorem pieces_nil : pieces [] = [] := rfl

end Calculator.Text
