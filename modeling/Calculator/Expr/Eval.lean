import Calculator.Error
import Calculator.Expr.Basic
import Calculator.Number.Power

/-!
# The value of an expression

An operator is applied to two numbers by `BinaryOp.apply`: first it is asked whether it divides by
zero, then the operation is carried out, then the result is `checked` to be a finite number.  Signs
need no check, since the opposite of a finite number is finite.  An expression is evaluated from the
left operand to the right one to the operation itself, and the first failure is the failure of the
whole.
-/

namespace Calculator

/-- **Accepts finite numbers only.** -/
def checked : Binary64 → Except EvalError Binary64
  | .nan => .error .notANumber
  | .infinite _ => .error .overflow
  | x => .ok x

/-- Whether the operator has no value at these operands because it would divide by zero. -/
def BinaryOp.dividesByZero (op : BinaryOp) (a b : Binary64) : Bool :=
  match op with
  | divide | floorDivide | modulo => b.isZero
  | power => a.isZero && b.isNegative
  | _ => false

/-- The operation without any check. -/
def BinaryOp.compute : BinaryOp → Binary64 → Binary64 → Binary64
  | add => .add
  | subtract => .sub
  | multiply => .mul
  | divide => .div
  | floorDivide => .floorDiv
  | modulo => .floorMod
  | power => .pow

/-- **Applies a binary operator.** -/
def BinaryOp.apply (op : BinaryOp) (a b : Binary64) : Except EvalError Binary64 :=
  if op.dividesByZero a b then .error .divisionByZero else checked (op.compute a b)

/-- **Applies a sign.** -/
def UnaryOp.apply : UnaryOp → Binary64 → Binary64
  | negate, x => x.neg
  | identity, x => x

/-- **The value of an expression**, or the first failure on the way to it. -/
def Expr.evaluate : Expr → Except EvalError Binary64
  | number value => checked value
  | unary op operand => do return op.apply (← operand.evaluate)
  | binary op left right => do
    let a ← left.evaluate
    let b ← right.evaluate
    op.apply a b

/-! ## How an operation comes to its value -/

namespace Expr

variable {op : BinaryOp} {sign : UnaryOp} {operand left right : Expr} {v : Binary64}
  {err : EvalError}

theorem evaluate_unary_eq_ok_iff :
    (unary sign operand).evaluate = .ok v ↔ ∃ x, operand.evaluate = .ok x ∧ sign.apply x = v := by
  rw [evaluate]
  cases operand.evaluate <;> simp [bind, Except.bind, pure, Except.pure]

theorem evaluate_unary_eq_error_iff :
    (unary sign operand).evaluate = .error err ↔ operand.evaluate = .error err := by
  rw [evaluate]
  cases operand.evaluate <;> simp [bind, Except.bind, pure, Except.pure]

theorem evaluate_binary_eq_ok_iff :
    (binary op left right).evaluate = .ok v ↔
      ∃ a b, left.evaluate = .ok a ∧ right.evaluate = .ok b ∧ op.apply a b = .ok v := by
  rw [evaluate]
  cases left.evaluate <;> cases right.evaluate <;> simp [bind, Except.bind]

/-- **Where an operation can fail**: in the left operand, in the right one when the left one has a
value, or in itself when both have. -/
theorem evaluate_binary_eq_error_iff :
    (binary op left right).evaluate = .error err ↔
      left.evaluate = .error err ∨
        (∃ a, left.evaluate = .ok a ∧ right.evaluate = .error err) ∨
        ∃ a b, left.evaluate = .ok a ∧ right.evaluate = .ok b ∧ op.apply a b = .error err := by
  rw [evaluate]
  cases left.evaluate <;> cases right.evaluate <;> simp [bind, Except.bind]

end Expr

/-! ## Only finite numbers come out -/

theorem checked_eq_ok_iff {x y : Binary64} : checked x = .ok y ↔ x = y ∧ x.isFinite = true := by
  cases x <;> simp [checked, Binary64.isFinite]

theorem UnaryOp.isFinite_apply (op : UnaryOp) (x : Binary64) :
    (op.apply x).isFinite = x.isFinite := by
  cases op <;> simp [apply]

theorem BinaryOp.isFinite_of_apply {op : BinaryOp} {a b x : Binary64} (h : op.apply a b = .ok x) :
    x.isFinite = true := by
  unfold apply at h
  split at h
  · cases h
  · obtain ⟨rfl, hfinite⟩ := checked_eq_ok_iff.1 h
    exact hfinite

end Calculator
