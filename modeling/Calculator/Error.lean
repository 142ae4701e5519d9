import Calculator.Token.Basic

/-!
# Why an expression has no value

`EvalError` names the causes: there is nothing to evaluate, the text does not follow the grammar, it
contains a construct outside arithmetic, or an operation has no finite real result.  A `Fault` says
what is wrong with the grammar; it and its position are kept apart from their wording, which is
written down once in `EvalError.message`.
-/

namespace Calculator

/-- **What is wrong with a text that does not follow the grammar.** -/
inductive Fault where
  /-- The text ends where an operand is due. -/
  | unexpectedEnd
  /-- The text ends and the parenthesis opened at `position` is still open. -/
  | neverClosed (position : Nat)
  /-- A closing parenthesis stands where none can be closed. -/
  | unmatchedClose
  /-- The expression is nested deeper, or its tree is higher, than is allowed. -/
  | tooDeep
  /-- An arithmetic token stands where it cannot. -/
  | unexpected (token : Token)
  /-- A piece of text is no token. -/
  | defect (defect : Defect)
deriving DecidableEq

/-- The wording of a fault. -/
def Fault.describe : Fault → String
  | unexpectedEnd => "unexpected end of expression"
  | neverClosed position => "'(' at position " ++ toString position ++ " was never closed"
  | unmatchedClose => "unmatched ')'"
  | tooDeep => "expression is too deeply nested"
  | unexpected token => "unexpected " ++ token.describe
  | defect piece => piece.describe

/-- **Why an expression has no value.**  Positions count characters from the start of the text. -/
inductive EvalError where
  /-- The text is blank. -/
  | emptyInput
  /-- The text does not follow the grammar. -/
  | malformed (fault : Fault) (position : Nat)
  /-- The text contains something outside arithmetic. -/
  | disallowed (construct : Construct) (position : Nat)
  | divisionByZero
  /-- The operation has no real result. -/
  | notANumber
  /-- The result is beyond the largest number. -/
  | overflow
deriving DecidableEq

/-- **The text of an error** as it is shown. -/
def EvalError.message : EvalError → String
  | emptyInput => "Empty expression"
  | malformed fault position =>
    "Syntax error at position " ++ toString position ++ ": " ++ fault.describe
  | disallowed construct position =>
    construct.name ++ " is not allowed (position " ++ toString position ++ ")"
  | divisionByZero => "Division by zero"
  | notANumber => "Result is not a number"
  | overflow => "Result is too large"

/-- **The error for a token that cannot stand where it stands.** -/
def Lexeme.refused (lexeme : Lexeme) : EvalError :=
  match lexeme.token with
  | .foreign construct => .disallowed construct lexeme.position
  | .invalid defect => .malformed (.defect defect) lexeme.position
  | .rightParen => .malformed .unmatchedClose lexeme.position
  | token => .malformed (.unexpected token) lexeme.position

end Calculator
