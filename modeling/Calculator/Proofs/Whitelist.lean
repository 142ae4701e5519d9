import Calculator.Proofs.Parser.FirstProblem

/-!
# Only arithmetic is ever parsed

The expression of a text holds nothing that is not in the text and leaves out nothing but its
parentheses: its numbers and operators, read in order, are those of the text (`Expr.tokens`).  And a
text that has an expression is written in the alphabet of arithmetic throughout, so that no word, no
quoted text and no other symbol gets past the parser (`parse_whitelist`).
-/

namespace Calculator

/-! ## Trees read in order -/

/-- **The numbers and operators of an expression, in order**: a sign before its operand, an operator
between its operands. -/
def Expr.tokens : Expr → List Token
  | number value => [.number value]
  | unary op operand => op.token :: operand.tokens
  | binary op left right => left.tokens ++ op.token :: right.tokens

/-- Whether a token is a parenthesis. -/
def Token.isParenthesis : Token → Bool
  | leftParen | rightParen => true
  | _ => false

@[simp] theorem BinaryOp.isParenthesis_token (op : BinaryOp) : op.token.isParenthesis = false := by
  cases op <;> rfl

@[simp] theorem UnaryOp.isParenthesis_token (op : UnaryOp) : op.token.isParenthesis = false := by
  cases op <;> rfl

@[simp] theorem BinaryOp.isArithmetic_token (op : BinaryOp) : op.token.isArithmetic = true := by
  cases op <;> rfl

@[simp] theorem UnaryOp.isArithmetic_token (op : UnaryOp) : op.token.isArithmetic = true := by
  cases op <;> rfl

namespace Derives

variable {phrase : Phrase} {n : Nat} {tokens : List Token} {e : Expr}

/-- A tree has the tokens of its phrase, without the parentheses. -/
theorem filter_tokens (h : Derives phrase n tokens e) :
    tokens.filter (fun token => !token.isParenthesis) = e.tokens := by
  induction h with
  | number => rfl
  | parentheses _ ih => simpa [Token.isParenthesis] using ih
  | primary _ ih | unsigned _ ih | factor _ ih | term _ ih => exact ih
  | sign op _ ih => simp [Expr.tokens, ih]
  | power _ _ ihl ihr =>
    have hpower : Token.doubleStar.isParenthesis = false := rfl
    simp [Expr.tokens, BinaryOp.token, hpower, ihl, ihr]
  | product _ _ _ ihl ihr | sum _ _ _ ihl ihr => simp [Expr.tokens, ihl, ihr]

theorem isArithmetic_of_mem (h : Derives phrase n tokens e) :
    ∀ token ∈ tokens, token.isArithmetic = true := by
  induction h with
  | number => simp [Token.isArithmetic]
  | parentheses _ ih =>
    simp only [List.forall_mem_cons, List.forall_mem_append]
    exact ⟨rfl, ih, rfl, by simp⟩
  | primary _ ih | unsigned _ ih | factor _ ih | term _ ih => exact ih
  | sign op _ ih => exact List.forall_mem_cons.2 ⟨op.isArithmetic_token, ih⟩
  | power _ _ ihl ihr =>
    exact List.forall_mem_append.2 ⟨ihl, List.forall_mem_cons.2 ⟨rfl, ihr⟩⟩
  | product _ _ _ ihl ihr | sum _ _ _ ihl ihr =>
    have hop := BinaryOp.isArithmetic_token
    exact List.forall_mem_append.2 ⟨ihl, List.forall_mem_cons.2 ⟨hop _, ihr⟩⟩

end Derives

/-! ## Texts -/

theorem derives_of_parse {text : String} {e : Expr} (h : parse text = .ok e) :
    Text.allBlank text.toList = false ∧
      ∃ n ≤ maxNesting, Derives .sum n ((Lexeme.scan text.toList).map Lexeme.token) e ∧
        e.height ≤ maxHeight := by
  cases hblank : Text.allBlank text.toList with
  | true => simp [parse, hblank] at h
  | false =>
    rw [parse_of_not_blank hblank] at h
    exact ⟨rfl, Parser.derives_of_parseWithin (by decide) h⟩

theorem Lexeme.token_of_refused {next : Lexeme} {construct : Construct} {position : Nat}
    (h : next.refused = .disallowed construct position) : next.token = .foreign construct := by
  rw [refused] at h
  split at h
  case h_1 hnext =>
    cases h
    exact hnext
  all_goals cases h

theorem exists_foreign_of_parse {text : String} {construct : Construct} {position : Nat}
    (h : parse text = .error (.disallowed construct position)) :
    ∃ lexeme ∈ Lexeme.scan text.toList, lexeme.token = .foreign construct := by
  cases hblank : Text.allBlank text.toList with
  | true => simp [parse, hblank] at h
  | false =>
    rw [parse_of_not_blank hblank] at h
    have hfails := Parser.parseWithin_fails (by decide) h
    generalize hrefused : EvalError.disallowed construct position = err at hfails
    cases hfails with
    | @refused front next after _ htokens =>
      exact ⟨next, by simp [htokens], Lexeme.token_of_refused hrefused.symm⟩
    | _ => cases hrefused

/-- **The whitelist.**  A text with an expression is written in the alphabet of arithmetic, and its
numbers and operators are those of the expression in the same order; a text over that alphabet is
never refused for a construct outside of arithmetic. -/
theorem parse_whitelist (text : String) :
    (∀ e, parse text = .ok e →
      (∀ c ∈ text.toList, isAllowed c = true) ∧
      ((Lexeme.scan text.toList).map Lexeme.token).filter (fun token => !token.isParenthesis) =
        e.tokens) ∧
    ((∀ c ∈ text.toList, isAllowed c = true) →
      ∀ construct position, parse text ≠ .error (.disallowed construct position)) := by
  constructor
  · intro e h
    obtain ⟨-, n, -, hderives, -⟩ := derives_of_parse h
    refine ⟨Lexeme.isAllowed_of_scan fun lexeme hmem => ?_, hderives.filter_tokens⟩
    exact hderives.isArithmetic_of_mem _ (List.mem_map_of_mem hmem)
  · intro hallowed construct position h
    obtain ⟨lexeme, hmem, hforeign⟩ := exists_foreign_of_parse h
    exact Lexeme.not_foreign_of_isAllowed hallowed hmem construct hforeign

end Calculator
