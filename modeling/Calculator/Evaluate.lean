import Calculator.Expr.Eval
import Calculator.Expr.Parser
import Calculator.Number.General
import Calculator.Token.Lexer

/-!
# Evaluating a text

The three questions one can put to a text: what expression it is (`parse`), what its value is
(`evaluate`) and how that value is shown (`calculate`).  Each call stands for itself; nothing is
kept between calls.
-/

namespace Calculator

/-- **The expression that a text stands for.** -/
def parse (text : String) : Except EvalError Expr :=
  let characters := text.toList
  if Text.allBlank characters then .error .emptyInput
  else Parser.parse characters.length (Lexeme.scan characters)

/-- **The value of a text**; a zero is always the positive one. -/
def evaluate (text : String) : Except EvalError Binary64 := do
  let expr ← parse text
  let value ← expr.evaluate
  return value.normalizeZero

/-- A number as a result is shown. -/
def formatResult (value : Binary64) : String := String.ofList value.shown

/-- **The shown value of a text.** -/
def calculate (text : String) : Except EvalError String := do
  return formatResult (← evaluate text)

end Calculator
