import Calculator.Proofs.Value
import Calculator.Proofs.Whitelist

/-!
# Why a text has no value

An expression that has been parsed can only fail for a reason of arithmetic
(`Expr.evaluate_eq_error`), so every other reason is the parser's.  The parser calls a text empty
only if it is blank (`allBlank_of_evaluate`), and disallowed only if it is written with characters
outside of arithmetic (`evaluate_ne_disallowed`).
-/

namespace Calculator

variable {err : EvalError}

/-- **The reasons of arithmetic** for having no value. -/
def EvalError.IsArithmetic (err : EvalError) : Prop :=
  err = .divisionByZero ∨ err = .notANumber ∨ err = .overflow

theorem checked_eq_error {x : Binary64} (h : checked x = .error err) : err.IsArithmetic := by
  cases x with
  | finite => cases h
  | infinite =>
    cases h
    exact .inr (.inr rfl)
  | nan =>
    cases h
    exact .inr (.inl rfl)

theorem BinaryOp.apply_eq_error {op : BinaryOp} {a b : Binary64} (h : op.apply a b = .error err) :
    err.IsArithmetic := by
  rw [apply] at h
  split at h
  · cases h
    exact .inl rfl
  · exact checked_eq_error h

/-- **An expression fails for a reason of arithmetic.** -/
theorem Expr.evaluate_eq_error {e : Expr} (h : e.evaluate = .error err) : err.IsArithmetic := by
  induction e with
  | number value => exact checked_eq_error h
  | unary op operand ih => exact ih (evaluate_unary_eq_error_iff.1 h)
  | binary op left right ihl ihr =>
    obtain hleft | ⟨a, -, hright⟩ | ⟨a, b, -, -, happly⟩ := evaluate_binary_eq_error_iff.1 h
    · exact ihl hleft
    · exact ihr hright
    · exact BinaryOp.apply_eq_error happly

/-- **A text fails in the parser or for a reason of arithmetic.** -/
theorem evaluate_eq_error {text : String} (h : evaluate text = .error err) :
    parse text = .error err ∨ err.IsArithmetic := by
  cases hparse : parse text with
  | error err' =>
    rw [evaluate_of_parse_error hparse] at h
    cases h
    exact .inl rfl
  | ok e =>
    rw [evaluate_of_parse hparse] at h
    cases hvalue : e.evaluate with
    | error err' =>
      rw [hvalue] at h
      cases h
      exact .inr (Expr.evaluate_eq_error hvalue)
    | ok x =>
      rw [hvalue] at h
      cases h

theorem Lexeme.refused_ne_emptyInput (next : Lexeme) : next.refused ≠ .emptyInput := by
  rw [refused]
  split <;> simp

/-- **Only a blank text is empty.** -/
theorem allBlank_of_evaluate {text : String} (h : evaluate text = .error .emptyInput) :
    Text.allBlank text.toList = true := by
  rcases evaluate_eq_error h with hparse | hzero | hundefined | hlarge
  case inl =>
    cases hblank : Text.allBlank text.toList with
    | true => rfl
    | false =>
      rw [parse_of_not_blank hblank] at hparse
      have hfails := Parser.parseWithin_fails (by decide) hparse
      generalize hempty : EvalError.emptyInput = err at hfails
      cases hfails with
      | refused front after => exact absurd hempty.symm (Lexeme.refused_ne_emptyInput _)
      | _ => cases hempty
  all_goals contradiction

/-- **Nothing written in the alphabet of arithmetic is disallowed.** -/
theorem evaluate_ne_disallowed {text : String} (hallowed : ∀ c ∈ text.toList, isAllowed c = true)
    (construct : Construct) (position : Nat) :
    evaluate text ≠ .error (.disallowed construct position) := by
  intro h
  rcases evaluate_eq_error h with hparse | hzero | hundefined | hlarge
  case inl =>
    obtain ⟨lexeme, hmem, hforeign⟩ := exists_foreign_of_parse hparse
    exact Lexeme.not_foreign_of_isAllowed hallowed hmem construct hforeign
  all_goals contradiction

/-- **What has a value is written in the alphabet of arithmetic.** -/
theorem isAllowed_of_evaluate {text : String} {v : Binary64} (h : evaluate text = .ok v) :
    ∀ c ∈ text.toList, isAllowed c = true := by
  cases hparse : parse text with
  | error err =>
    rw [evaluate_of_parse_error hparse] at h
    cases h
  | ok e =>
    obtain ⟨-, n, -, hderives, -⟩ := derives_of_parse hparse
    refine Lexeme.isAllowed_of_scan fun lexeme hmem => ?_
    exact hderives.isArithmetic_of_mem _ (List.mem_map_of_mem hmem)

end Calculator
