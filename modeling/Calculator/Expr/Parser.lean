import Calculator.Error
import Calculator.Expr.Basic

/-!
# Parsing

The grammar, from the loosest binding to the tightest:

```text
sum     := product (('+' | '-') product)*
product := signed (('*' | '/' | '//' | '%') signed)*
signed  := ('+' | '-') signed | power
power   := primary ('**' signed)?
primary := NUMBER | '(' sum ')'
```

Sums and products group to the left, powers to the right; a sign takes a whole power.

A `Rule` reads a tree from the front of the remaining tokens.  Parentheses, signs and exponents are
the only places where a rule goes into another one of the same or a looser kind, and each of them
uses up one of `maxNesting` levels.  So the rules are not defined by mutual recursion: each takes
the rules of the **next level** as arguments, and `signedAt` ties the knot by recursion on the
number of levels left.  At the last level the inner rules are `tooDeep`, which refuses everything.

Along with each tree its height is kept, which may not exceed the limit `highest`.  Both limits are
arguments of the rules; `parse` sets them to `maxNesting` and `maxHeight`.
-/

namespace Calculator

/-- How many parentheses, signs and exponents may be open at once. -/
def maxNesting : Nat := 200

/-- How high a tree may be. -/
def maxHeight : Nat := 1000

namespace Parser

/-- A tree that has been read, and its height. -/
structure Subtree where
  expr : Expr
  height : Nat
deriving DecidableEq

/-- **A rule** reads a tree from the front of the tokens and hands on the rest. -/
abbrev Rule := List Lexeme → Except EvalError (Subtree × List Lexeme)

variable (highest textEnd : Nat)

/-- Where the next token stands; `textEnd` is the length of the text. -/
def positionOf : List Lexeme → Nat
  | [] => textEnd
  | next :: _ => next.position

/-- The rule for what lies below the last level. -/
def tooDeep : Rule := fun tokens =>
  .error (.malformed .tooDeep (positionOf textEnd tokens))

/-- A tree that is not higher than `highest`; `rest` are the tokens after it. -/
def withinHeight (tree : Subtree) (rest : List Lexeme) : Except EvalError (Subtree × List Lexeme) :=
  if highest < tree.height then .error (.malformed .tooDeep (positionOf textEnd rest))
  else .ok (tree, rest)

/-- Joins two trees by an operator. -/
def join (op : BinaryOp) (left right : Subtree) : Subtree :=
  ⟨.binary op left.expr right.expr, max left.height right.height + 1⟩

/-! ## Operators -/

/-- The operators of a sum. -/
def sumOp? : Token → Option BinaryOp
  | .plus => some .add
  | .minus => some .subtract
  | _ => none

/-- The operators of a product. -/
def productOp? : Token → Option BinaryOp
  | .star => some .multiply
  | .slash => some .divide
  | .doubleSlash => some .floorDivide
  | .percent => some .modulo
  | _ => none

/-- The signs. -/
def sign? : Token → Option UnaryOp
  | .plus => some .identity
  | .minus => some .negate
  | _ => none

/-! ## Rules -/

/-- Goes on with a chain of operands that group to the left.  Each step takes a token, so `steps`
need not be more than there are tokens. -/
def chainFrom (op? : Token → Option BinaryOp) (operand : Rule) : (steps : Nat) → Subtree → Rule
  | 0, left, tokens => .ok (left, tokens)
  | _ + 1, left, [] => .ok (left, [])
  | steps + 1, left, next :: tokens =>
    match op? next.token with
    | none => .ok (left, next :: tokens)
    | some op => do
      let (right, rest) ← operand tokens
      let (tree, rest) ← withinHeight highest textEnd (join op left right) rest
      chainFrom op? operand steps tree rest

/-- **A chain of operands** that group to the left. -/
def chain (op? : Token → Option BinaryOp) (operand : Rule) : Rule
  | tokens => do
    let (left, rest) ← operand tokens
    chainFrom highest textEnd op? operand rest.length left rest

/-- A number or a parenthesised sum; `sum` is the rule of the next level. -/
def primary (sum : Rule) : Rule
  | [] => .error (.malformed .unexpectedEnd textEnd)
  | next :: tokens =>
    match next.token with
    | .number value => .ok (⟨.number value, 1⟩, tokens)
    | .leftParen => do
      let (inner, rest) ← sum tokens
      match rest with
      | [] => .error (.malformed (.neverClosed next.position) textEnd)
      | close :: rest =>
        if close.token = .rightParen then .ok (inner, rest) else .error close.refused
    | _ => .error next.refused

/-- A primary, raised to a signed exponent if `**` follows; `signed` and `sum` are the rules of the
next level. -/
def power (signed sum : Rule) : Rule := fun tokens => do
  let (base, rest) ← primary textEnd sum tokens
  match rest with
  | [] => .ok (base, [])
  | next :: after =>
    if next.token = .doubleStar then do
      let (exponent, rest) ← signed after
      withinHeight highest textEnd (join .power base exponent) rest
    else .ok (base, next :: after)

/-- A sign before something signed, or a power; `signed` and `sum` are the rules of the next level.
-/
def signed (signed sum : Rule) : Rule
  | [] => power highest textEnd signed sum []
  | next :: tokens =>
    match sign? next.token with
    | none => power highest textEnd signed sum (next :: tokens)
    | some op => do
      let (operand, rest) ← signed tokens
      withinHeight highest textEnd ⟨.unary op operand.expr, operand.height + 1⟩ rest

/-- A sum of products of operands that are read by `signed`. -/
def sumOf (signed : Rule) : Rule :=
  chain highest textEnd sumOp? (chain highest textEnd productOp? signed)

/-- **The rule for a signed operand** with a number of levels left. -/
def signedAt : (levels : Nat) → Rule
  | 0 => signed highest textEnd (tooDeep textEnd) (tooDeep textEnd)
  | levels + 1 => signed highest textEnd (signedAt levels) (sumOf highest textEnd (signedAt levels))

/-- The rule for a sum with a number of levels left. -/
def sumAt (levels : Nat) : Rule := sumOf highest textEnd (signedAt highest textEnd levels)

/-! ## Whole expressions -/

/-- **Parses tokens within given limits**; nothing may be left over. -/
def parseWithin (levels : Nat) (tokens : List Lexeme) : Except EvalError Expr := do
  let (tree, rest) ← sumAt highest textEnd levels tokens
  match rest with
  | [] => .ok tree.expr
  | next :: _ => .error next.refused

/-- **Parses the tokens of a text** of `textEnd` characters. -/
def parse (tokens : List Lexeme) : Except EvalError Expr :=
  parseWithin maxHeight textEnd maxNesting tokens

end Parser

end Calculator
