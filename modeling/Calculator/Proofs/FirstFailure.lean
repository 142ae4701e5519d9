import Calculator.Proofs.Value

/-!
# The first failure

The nodes of an expression are evaluated in post-order, and each of them has a check of its own: a
number has to be finite, and an operator has to have a finite value at its operands.  If all the
nodes pass, all of them have finite values, so that nothing infinite or undefined is lost on the
way, not even where an operation would make a finite number of it.  If not, the expression fails for
the reason of the first node that does not pass (`Expr.evaluate_eq_error_iff`).

A sign has no check.  It does not need one, since the operand has been checked before.
-/

namespace Calculator

namespace Expr

variable {e : Expr} {v : Binary64} {err : EvalError}

/-! ## Nodes -/

/-- **The nodes of an expression in post-order**: those of the operands from left to right, and the
operation after them.  Each node is given as the expression that it is the root of. -/
def postOrder : Expr → List Expr
  | number value => [number value]
  | unary op operand => operand.postOrder ++ [unary op operand]
  | binary op left right => left.postOrder ++ (right.postOrder ++ [binary op left right])

/-- **A node that has been passed.** -/
def HasFiniteValue (e : Expr) : Prop := ∃ v, e.evaluate = .ok v ∧ v.isFinite = true

/-- **A node that does not pass**: a number that is not finite, or an operator without a value at
the finite values of its operands. -/
inductive FailsHere : Expr → EvalError → Prop where
  | number {value : Binary64} {err : EvalError} :
    checked value = .error err → FailsHere (number value) err
  | binary {op : BinaryOp} {left right : Expr} {a b : Binary64} {err : EvalError} :
    left.evaluate = .ok a → a.isFinite = true →
    right.evaluate = .ok b → b.isFinite = true →
    op.apply a b = .error err → FailsHere (binary op left right) err

/-- **The first node that does not pass**, and its reason. -/
def FirstFailure (e : Expr) (err : EvalError) : Prop :=
  ∃ before node after, e.postOrder = before ++ node :: after ∧
    (∀ sub ∈ before, sub.HasFiniteValue) ∧ node.FailsHere err

theorem hasFiniteValue_of_evaluate (h : e.evaluate = .ok v) : e.HasFiniteValue :=
  ⟨v, h, e.isFinite_of_evaluate h⟩

theorem FailsHere.evaluate_eq (h : e.FailsHere err) : e.evaluate = .error err := by
  cases h with
  | number hchecked => exact hchecked
  | binary hleft _ hright _ happly =>
    exact evaluate_binary_eq_error_iff.2 (.inr (.inr ⟨_, _, hleft, hright, happly⟩))

theorem FailsHere.not_hasFiniteValue (h : e.FailsHere err) : ¬ e.HasFiniteValue := by
  rintro ⟨v, hvalue, -⟩
  rw [h.evaluate_eq] at hvalue
  cases hvalue

/-! ## Success and failure -/

/-- **An expression with a value has passed all its nodes.** -/
theorem hasFiniteValue_of_mem (h : e.evaluate = .ok v) :
    ∀ sub ∈ e.postOrder, sub.HasFiniteValue := by
  induction e generalizing v with
  | number value =>
    simp only [postOrder, List.forall_mem_singleton]
    exact hasFiniteValue_of_evaluate h
  | unary op operand ih =>
    obtain ⟨x, hoperand, -⟩ := evaluate_unary_eq_ok_iff.1 h
    simp only [postOrder, List.forall_mem_append, List.forall_mem_singleton]
    exact ⟨ih hoperand, hasFiniteValue_of_evaluate h⟩
  | binary op left right ihl ihr =>
    obtain ⟨a, b, hleft, hright, -⟩ := evaluate_binary_eq_ok_iff.1 h
    simp only [postOrder, List.forall_mem_append, List.forall_mem_singleton]
    exact ⟨ihl hleft, ihr hright, hasFiniteValue_of_evaluate h⟩

/-- **An expression without a value has a first node that does not pass**, and fails for its
reason. -/
theorem firstFailure_of_evaluate (h : e.evaluate = .error err) : e.FirstFailure err := by
  induction e with
  | number value => exact ⟨[], _, [], rfl, List.forall_mem_nil _, .number h⟩
  | unary op operand ih =>
    obtain ⟨before, node, after, hnodes, hbefore, hfails⟩ := ih (evaluate_unary_eq_error_iff.1 h)
    refine ⟨before, node, after ++ [unary op operand], ?_, hbefore, hfails⟩
    simp [postOrder, hnodes]
  | binary op left right ihl ihr =>
    obtain hleft | ⟨a, hleft, hright⟩ | ⟨a, b, hleft, hright, happly⟩ :=
      evaluate_binary_eq_error_iff.1 h
    case inl =>
      obtain ⟨before, node, after, hnodes, hbefore, hfails⟩ := ihl hleft
      refine ⟨before, node, after ++ (right.postOrder ++ [binary op left right]), ?_, hbefore,
        hfails⟩
      simp [postOrder, hnodes]
    case inr.inl =>
      obtain ⟨before, node, after, hnodes, hbefore, hfails⟩ := ihr hright
      refine ⟨left.postOrder ++ before, node, after ++ [binary op left right], ?_,
        List.forall_mem_append.2 ⟨hasFiniteValue_of_mem hleft, hbefore⟩, hfails⟩
      simp [postOrder, hnodes]
    case inr.inr =>
      refine ⟨left.postOrder ++ right.postOrder, _, [], by simp [postOrder],
        List.forall_mem_append.2 ⟨hasFiniteValue_of_mem hleft, hasFiniteValue_of_mem hright⟩,
        .binary hleft (left.isFinite_of_evaluate hleft) hright (right.isFinite_of_evaluate hright)
          happly⟩

theorem FirstFailure.unique {err' : EvalError} (h : e.FirstFailure err)
    (h' : e.FirstFailure err') : err = err' := by
  obtain ⟨before, node, after, hnodes, hbefore, hfails⟩ := h
  obtain ⟨before', node', after', hnodes', hbefore', hfails'⟩ := h'
  -- neither of the two nodes is among those that have been passed before the other one
  have hsame : node = node' := by
    have hsplit := hnodes.symm.trans hnodes'
    rcases List.append_eq_append_iff.1 hsplit with ⟨between, hlong, hrest⟩ | ⟨between, hlong, hrest⟩
    · cases between with
      | nil => exact (List.cons.inj hrest).1
      | cons first between =>
        obtain ⟨rfl, -⟩ := List.cons.inj hrest
        exact absurd (hbefore' node (by simp [hlong])) hfails.not_hasFiniteValue
    · cases between with
      | nil => exact (List.cons.inj hrest).1.symm
      | cons first between =>
        obtain ⟨rfl, -⟩ := List.cons.inj hrest
        exact absurd (hbefore node' (by simp [hlong])) hfails'.not_hasFiniteValue
  subst hsame
  have herror := hfails.evaluate_eq.symm.trans hfails'.evaluate_eq
  exact Except.error.inj herror

/-- **An expression fails for the reason of the first node that does not pass.** -/
theorem evaluate_eq_error_iff : e.evaluate = .error err ↔ e.FirstFailure err := by
  refine ⟨firstFailure_of_evaluate, fun hfirst => ?_⟩
  cases hvalue : e.evaluate with
  | error err' => rw [hfirst.unique (firstFailure_of_evaluate hvalue)]
  | ok v =>
    obtain ⟨before, node, after, hnodes, -, hfails⟩ := hfirst
    have hpassed := hasFiniteValue_of_mem hvalue node (by simp [hnodes])
    exact absurd hpassed hfails.not_hasFiniteValue

end Expr

/-- **Finite throughout, or the first failure.**  If an expression has a value, the value and those
of all its parts are finite; if not, it fails for the reason of the first node in post-order that
does not pass.  The value of a text is finite and no negative zero. -/
theorem evaluate_finite_or_first_failure :
    (∀ (e : Expr) (v : Binary64), e.evaluate = .ok v →
      v.isFinite = true ∧ ∀ sub ∈ e.postOrder, sub.HasFiniteValue) ∧
    (∀ (e : Expr) (err : EvalError), e.evaluate = .error err ↔ e.FirstFailure err) ∧
    (∀ (text : String) (v : Binary64), evaluate text = .ok v →
      v.isFinite = true ∧ (v.isZero = true → v.signBit = false)) := by
  refine ⟨fun e v h => ⟨e.isFinite_of_evaluate h, Expr.hasFiniteValue_of_mem h⟩,
    fun e err => Expr.evaluate_eq_error_iff, fun text v h => ?_⟩
  obtain ⟨hfinite, hnormal⟩ := isFinite_of_evaluate h
  refine ⟨hfinite, fun hzero => ?_⟩
  rw [← hnormal, Binary64.normalizeZero_of_isZero hzero]
  rfl

end Calculator
