import Calculator.Evaluate

/-!
# The value of a text

The value of a text is that of the expression it is parsed as.  Whatever the expression, its value
is finite, since every number and every result on the way has been checked; and a value that is zero
is the positive zero.  A value is therefore left alone when the sign of zero is taken off once more.
-/

namespace Calculator

/-- The value of a text is the value of its expression, without the sign of zero. -/
theorem evaluate_of_parse {text : String} {e : Expr} (h : parse text = .ok e) :
    evaluate text = e.evaluate.map Binary64.normalizeZero := by
  rw [evaluate, h]
  cases he : e.evaluate <;> simp [bind, Except.bind, he, Except.map, pure, Except.pure]

theorem evaluate_of_parse_error {text : String} {err : EvalError} (h : parse text = .error err) :
    evaluate text = .error err := by
  rw [evaluate, h]
  rfl

theorem Binary64.pow_of_isZero (x : Binary64) {y : Binary64} (h : y.isZero = true) :
    x.pow y = one :=
  if_pos (by rw [h, Bool.true_or])

theorem BinaryOp.apply_power_of_isZero (x : Binary64) {y : Binary64} (h : y.isZero = true) :
    power.apply x y = .ok .one := by
  have hdefined : power.dividesByZero x y = false := by
    simp [dividesByZero, Binary64.isNegative, h]
  rw [apply, hdefined, compute, x.pow_of_isZero h]
  rfl

/-- **Values are finite.** -/
theorem Expr.isFinite_of_evaluate {e : Expr} {v : Binary64} (h : e.evaluate = .ok v) :
    v.isFinite = true := by
  induction e generalizing v with
  | number value =>
    obtain ⟨rfl, hfinite⟩ := checked_eq_ok_iff.1 h
    exact hfinite
  | unary op operand ih =>
    obtain ⟨x, hoperand, rfl⟩ := evaluate_unary_eq_ok_iff.1 h
    rw [op.isFinite_apply]
    exact ih hoperand
  | binary op left right =>
    obtain ⟨a, b, -, -, happly⟩ := evaluate_binary_eq_ok_iff.1 h
    exact BinaryOp.isFinite_of_apply happly

/-- **The value of a text** is finite and, if zero, has no sign. -/
theorem isFinite_of_evaluate {text : String} {v : Binary64} (h : evaluate text = .ok v) :
    v.isFinite = true ∧ v.normalizeZero = v := by
  cases hparse : parse text with
  | error err =>
    rw [evaluate_of_parse_error hparse] at h
    cases h
  | ok e =>
    rw [evaluate_of_parse hparse] at h
    cases hvalue : e.evaluate with
    | error err =>
      rw [hvalue] at h
      cases h
    | ok x =>
      rw [hvalue] at h
      cases h
      exact ⟨by simpa using e.isFinite_of_evaluate hvalue, Binary64.normalizeZero_normalizeZero x⟩

theorem formatResult_normalizeZero (v : Binary64) :
    formatResult v.normalizeZero = formatResult v := by
  rw [formatResult, formatResult, Binary64.shown, Binary64.shown,
    Binary64.normalizeZero_normalizeZero]

end Calculator
