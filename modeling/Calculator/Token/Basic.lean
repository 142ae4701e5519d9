import Calculator.Number.Shortest

/-!
# Tokens

A text is cut into tokens before it is parsed.  The tokens of arithmetic are numbers, operators and
parentheses.  Everything else that a text may hold is a token as well, so that it can be refused by
name and at its place: a `Construct` is a piece of some general expression language that arithmetic
does not have, a `Defect` is a piece that belongs to no such language.

`Token.describe` is the wording of a token inside an error message.
-/

namespace Calculator

/-! ## What is refused -/

/-- **Constructs outside arithmetic**, recognised only to be refused. -/
inductive Construct where
  | identifier
  | functionCall
  | attributeAccess
  | stringLiteral
  | booleanLiteral
  | noneLiteral
  | collection
  | comparison
  | booleanOperator
  | bitwiseOperator
  | assignment
deriving DecidableEq

/-- The name of a construct. -/
def Construct.name : Construct → String
  | identifier => "identifier"
  | functionCall => "function call"
  | attributeAccess => "attribute access"
  | stringLiteral => "string literal"
  | booleanLiteral => "boolean literal"
  | noneLiteral => "None literal"
  | collection => "collection"
  | comparison => "comparison"
  | booleanOperator => "boolean operator"
  | bitwiseOperator => "bitwise operator"
  | assignment => "assignment"

/-- **Pieces of text that are no token of any language.** -/
inductive Defect where
  /-- A whole number with zeros in front. -/
  | leadingZeros (text : List Char)
  /-- Digits and points that are no numeral. -/
  | badNumber (text : List Char)
  /-- A character that starts no token. -/
  | unrecognized (c : Char)
deriving DecidableEq

/-- The wording of a defect. -/
def Defect.describe : Defect → String
  | leadingZeros text =>
    "leading zeros are not permitted in '" ++ String.ofList text ++ "'"
  | badNumber text => "invalid number '" ++ String.ofList text ++ "'"
  | unrecognized c => "unrecognized character '" ++ c.toString ++ "'"

/-! ## Tokens -/

/-- **A token.** -/
inductive Token where
  | number (value : Binary64)
  | plus
  | minus
  | star
  | doubleStar
  | slash
  | doubleSlash
  | percent
  | leftParen
  | rightParen
  /-- Part of a general expression language, never of arithmetic. -/
  | foreign (construct : Construct)
  /-- Part of no language. -/
  | invalid (defect : Defect)
deriving DecidableEq

/-- The wording of a token in a message. -/
def Token.describe : Token → String
  | number value => "number " ++ toString value
  | plus => "'+'"
  | minus => "'-'"
  | star => "'*'"
  | doubleStar => "'**'"
  | slash => "'/'"
  | doubleSlash => "'//'"
  | percent => "'%'"
  | leftParen => "'('"
  | rightParen => "')'"
  | foreign construct => construct.name
  | invalid defect => defect.describe

/-- **A token and the place where it starts**, counted in characters from the start of the text. -/
structure Lexeme where
  token : Token
  position : Nat
deriving DecidableEq

end Calculator
