import Calculator.Expr.Basic
import Calculator.Token.Basic

/-!
# The grammar as a relation

`Derives` says which sequences of tokens are phrases of which kind, what tree a phrase stands for,
and how deeply it is nested.  It is the grammar itself, with one rule for each of its alternatives,
and knows nothing of the parser: a phrase may be taken apart in any way that the rules allow.

**Grouping** is in the rules.  The left operand of a sum is again a sum and its right operand only a
product, so a chain of terms groups to the left; the exponent of a power is signed and so contains
further powers, which groups powers to the right.  Parentheses leave no node.

**Nesting** is counted along the branches: one for each pair of parentheses, for each sign, and for
each exponent.
-/

namespace Calculator

/-! ## The tokens of operators -/

/-- The token of a sign. -/
def UnaryOp.token : UnaryOp → Token
  | negate => .minus
  | identity => .plus

/-- The token of a binary operator. -/
def BinaryOp.token : BinaryOp → Token
  | add => .plus
  | subtract => .minus
  | multiply => .star
  | divide => .slash
  | floorDivide => .doubleSlash
  | modulo => .percent
  | power => .doubleStar

/-- The operators that make sums. -/
def BinaryOp.isAdditive : BinaryOp → Bool
  | add | subtract => true
  | _ => false

/-- The operators that make products. -/
def BinaryOp.isMultiplicative : BinaryOp → Bool
  | multiply | divide | floorDivide | modulo => true
  | _ => false

/-! ## Phrases -/

/-- The kinds of phrases, from the loosest binding to the tightest. -/
inductive Phrase where
  | sum
  | product
  | signed
  | power
  | primary
deriving DecidableEq

/-- **The grammar.** `Derives phrase nesting tokens e` holds when the tokens are a phrase of this
kind that stands for `e` and is nested this deep. -/
inductive Derives : Phrase → Nat → List Token → Expr → Prop where
  | number (value : Binary64) : Derives .primary 0 [.number value] (.number value)
  | parentheses {n : Nat} {tokens : List Token} {e : Expr} :
    Derives .sum n tokens e →
    Derives .primary (n + 1) (.leftParen :: (tokens ++ [.rightParen])) e
  | primary {n : Nat} {tokens : List Token} {e : Expr} :
    Derives .primary n tokens e → Derives .power n tokens e
  | power {m n : Nat} {base exponent : List Token} {l r : Expr} :
    Derives .primary m base l → Derives .signed n exponent r →
    Derives .power (max m (n + 1)) (base ++ .doubleStar :: exponent) (.binary .power l r)
  | unsigned {n : Nat} {tokens : List Token} {e : Expr} :
    Derives .power n tokens e → Derives .signed n tokens e
  | sign (op : UnaryOp) {n : Nat} {tokens : List Token} {e : Expr} :
    Derives .signed n tokens e → Derives .signed (n + 1) (op.token :: tokens) (.unary op e)
  | factor {n : Nat} {tokens : List Token} {e : Expr} :
    Derives .signed n tokens e → Derives .product n tokens e
  | product {op : BinaryOp} {m n : Nat} {left right : List Token} {l r : Expr} :
    op.isMultiplicative = true → Derives .product m left l → Derives .signed n right r →
    Derives .product (max m n) (left ++ op.token :: right) (.binary op l r)
  | term {n : Nat} {tokens : List Token} {e : Expr} :
    Derives .product n tokens e → Derives .sum n tokens e
  | sum {op : BinaryOp} {m n : Nat} {left right : List Token} {l r : Expr} :
    op.isAdditive = true → Derives .sum m left l → Derives .product n right r →
    Derives .sum (max m n) (left ++ op.token :: right) (.binary op l r)

theorem Derives.ne_nil {phrase : Phrase} {n : Nat} {tokens : List Token} {e : Expr}
    (h : Derives phrase n tokens e) : tokens ≠ [] := by
  induction h with
  | number | parentheses | power | sign | product | sum => simp
  | primary _ ih | unsigned _ ih | factor _ ih | term _ ih => exact ih

end Calculator
