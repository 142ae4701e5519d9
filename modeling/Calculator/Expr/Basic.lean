import Calculator.Number.Shortest

/-!
# Arithmetic expressions

An expression is a tree of numbers, signs and binary operators; nothing else can be represented, so
whatever has been built can be evaluated.  Parentheses leave no node: the tree itself says what
belongs together, and the full text `Expr.text` puts a pair around every operation.
-/

namespace Calculator

/-- **Binary operators.** -/
inductive BinaryOp where
  | add
  | subtract
  | multiply
  | divide
  /-- Division rounded down. -/
  | floorDivide
  /-- The remainder of division rounded down. -/
  | modulo
  | power
deriving DecidableEq

/-- **Signs.** -/
inductive UnaryOp where
  | negate
  | identity
deriving DecidableEq

/-- How a binary operator is written. -/
def BinaryOp.symbol : BinaryOp → List Char
  | add => ['+']
  | subtract => ['-']
  | multiply => ['*']
  | divide => ['/']
  | floorDivide => ['/', '/']
  | modulo => ['%']
  | power => ['*', '*']

/-- How a sign is written. -/
def UnaryOp.symbol : UnaryOp → Char
  | negate => '-'
  | identity => '+'

/-- **An arithmetic expression.** -/
inductive Expr where
  | number (value : Binary64)
  | unary (op : UnaryOp) (operand : Expr)
  | binary (op : BinaryOp) (left right : Expr)
deriving DecidableEq

namespace Expr

instance : Inhabited Expr := ⟨.number .zero⟩

/-- **The height of the tree.**  A number has height one and an operation is one higher than the
higher of its operands. -/
def height : Expr → Nat
  | number _ => 1
  | unary _ operand => operand.height + 1
  | binary _ left right => max left.height right.height + 1

/-- **The full text**: every operation stands in parentheses, so that precedence plays no part. -/
def text : Expr → List Char
  | number value => value.text
  | unary op operand => '(' :: op.symbol :: (operand.text ++ [')'])
  | binary op left right => '(' :: (left.text ++ ' ' :: (op.symbol ++ ' ' :: (right.text ++ [')'])))

instance : ToString Expr := ⟨fun e => String.ofList e.text⟩

theorem height_pos (e : Expr) : 0 < e.height := by
  cases e <;> simp [height]

end Expr

end Calculator
