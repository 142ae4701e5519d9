import Calculator.Proofs.FullText
import Calculator.Proofs.Tokens

/-!
# Expressions put together from parsed texts

A text that has been parsed can be put in parentheses and used as an operand, whatever is in it.
Two things have to be seen.  The scan of the text does not change when a parenthesis is put behind
it: an arithmetic token ends where a digit, a point, a star or a slash would have to follow
(`tokens_append`).  And the tokens of the text between parentheses are a primary, nested one deeper
than the text itself, so that every operator and every sign takes them as they are.

The parser is exact, so there are only two outcomes: the expression that was put together, or the
refusal as too deep, and the second one exactly beyond the limits (`ParsesWithinLimits`).
-/

namespace Calculator

/-! ## Where every token ends -/

/-- **The end of any token of arithmetic**: what follows goes on neither with a number nor with an
operator. -/
def EndsTokens (after : List Char) : Prop :=
  ∀ c ∈ after.head?, c.isDigit = false ∧ c ≠ '.' ∧ c ≠ '*' ∧ c ≠ '/'

variable {after : List Char}

theorem numeralRun_append (hafter : EndsTokens after) (text : List Char) :
    numeralRun (text ++ after) = numeralRun text := by
  have hdigit : ∀ c ∈ after.head?, c.isDigit = false := fun c hc => (hafter c hc).1
  obtain ⟨hwhole, hrest⟩ := span_append hdigit text
  rw [numeralRun, numeralRun, hwhole, hrest]
  cases text.dropWhile Char.isDigit with
  | nil =>
    cases after with
    | nil => rfl
    | cons c after => simp [(hafter c rfl).2.1]
  | cons c rest =>
    by_cases hc : c = '.'
    · subst hc
      simp [(span_append hdigit rest).1]
    · simp [hc]

/-- A star or a slash that is not doubled in the text is not doubled by what follows. -/
theorem head?_append_ne (hafter : EndsTokens after) {c : Char} (hc : c = '*' ∨ c = '/')
    {rest : List Char} (hnext : rest.head? ≠ some c) : (rest ++ after).head? ≠ some c := by
  cases rest with
  | cons d rest => exact hnext
  | nil =>
    intro hhead
    obtain ⟨-, -, hstar, hslash⟩ := hafter c hhead
    exact hc.elim hstar hslash

/-- **The first token of a text stays what it is** when something is put behind the text, if it is
a token of arithmetic; all its characters are characters of the text. -/
theorem Token.first_append (hafter : EndsTokens after) {c : Char} {rest : List Char}
    (harithmetic : (first c rest).1.isArithmetic = true) :
    first c (rest ++ after) = first c rest ∧ (first c rest).2 ≤ rest.length := by
  have hstarts := starts_first c rest
  generalize hfirst : first c rest = front at hstarts harithmetic
  cases hstarts with
  | number hnumber =>
    have hrun : numeralRun (c :: (rest ++ after)) = numeralRun (c :: rest) :=
      numeralRun_append hafter (c :: rest)
    have hnumber' :
        (c.isDigit || (c == '.' && (rest ++ after).head?.any Char.isDigit)) = true := by
      rcases hnumber with hdigit | ⟨rfl, hnext⟩
      · simp [hdigit]
      · cases rest with
        | nil => cases hnext
        | cons d rest => simpa using hnext
    refine ⟨?_, ?_⟩
    · simp only [first, hnumber', if_true, hrun]
    · have hle := (numeralRun_isPrefix (c :: rest)).length_le
      rw [List.length_cons] at hle
      show (numeralRun (c :: rest)).length - 1 ≤ rest.length
      omega
  | @single token hsymbol hnext =>
    refine ⟨first_of_written (.symbol hsymbol) ?_, Nat.zero_le _⟩
    cases token with
    | star =>
      cases hsymbol
      exact head?_append_ne hafter (.inl rfl) (hnext (.inl rfl))
    | slash =>
      cases hsymbol
      exact head?_append_ne hafter (.inr rfl) (hnext (.inr rfl))
    | number => cases hsymbol
    | _ => trivial
  | @double token hsymbol hnext =>
    obtain ⟨behind, rfl⟩ := List.head?_eq_some_iff.1 hnext
    refine ⟨first_of_written (.symbol hsymbol) ?_, by simp⟩
    cases token with
    | star | slash | number => cases hsymbol
    | _ => trivial
  | foreign => cases harithmetic
  | unrecognized => cases harithmetic

/-- **The scan of a text stays what it is** when something is put behind the text. -/
theorem Lexeme.scanFrom_append (hafter : EndsTokens after) {position : Nat} {text : List Char}
    (harithmetic : ∀ lexeme ∈ scanFrom position 0 text, lexeme.token.isArithmetic = true) :
    scanFrom position 0 (text ++ after) =
      scanFrom position 0 text ++ scanFrom (position + text.length) 0 after := by
  induction position, text using scan_induction with
  | nil position => simp
  | separator position c rest hseparator ih =>
    rw [scanFrom_separator hseparator] at harithmetic
    rw [List.cons_append, scanFrom_separator hseparator, scanFrom_separator hseparator,
      ih harithmetic, List.length_cons, Nat.add_assoc, Nat.add_comm 1]
  | token position c rest hseparator ih =>
    rw [scanFrom_token hseparator, List.forall_mem_cons] at harithmetic
    obtain ⟨hfirst, hlength⟩ := Token.first_append hafter harithmetic.1
    have hend : position + 1 + (Token.first c rest).2 +
        (rest.drop (Token.first c rest).2).length = position + (c :: rest).length := by
      rw [List.length_drop, List.length_cons]
      omega
    rw [List.cons_append, scanFrom_token hseparator, scanFrom_token hseparator, hfirst,
      List.drop_append_of_le_length hlength, ih harithmetic.2, hend, List.cons_append]

/-- **Tokens of arithmetic are not changed by what is put behind them.** -/
theorem tokens_append (hafter : EndsTokens after) {text : List Char}
    (harithmetic : ∀ token ∈ tokens text, token.isArithmetic = true) :
    tokens (text ++ after) = tokens text ++ tokens after := by
  have hscan : ∀ lexeme ∈ Lexeme.scanFrom 0 0 text, lexeme.token.isArithmetic = true :=
    fun lexeme hlexeme => harithmetic _ (List.mem_map_of_mem hlexeme)
  rw [tokens, Lexeme.scan, Lexeme.scanFrom_append hafter hscan, List.map_append,
    Lexeme.map_token_scanFrom, Lexeme.map_token_scanFrom]

/-! ## Parentheses -/

theorem tokens_parentheses {text : List Char}
    (harithmetic : ∀ token ∈ tokens text, token.isArithmetic = true) (after : List Char) :
    tokens ('(' :: (text ++ ')' :: after)) =
      .leftParen :: (tokens text ++ [.rightParen]) ++ tokens after := by
  have hclose : EndsTokens (')' :: after) := by simp [EndsTokens]
  have hopening : Token.leftParen.Written ['('] := .symbol rfl
  have hclosing : Token.rightParen.Written [')'] := .symbol rfl
  have hafter : tokens (')' :: after) = .rightParen :: tokens after :=
    tokens_written hclosing trivial
  have hopen : tokens ('(' :: (text ++ ')' :: after)) =
      .leftParen :: tokens (text ++ ')' :: after) :=
    tokens_written hopening trivial
  rw [hopen, tokens_append hclose harithmetic, hafter]
  simp

theorem BinaryOp.endsAt_leftParen (op : BinaryOp) (rest : List Char) :
    op.token.EndsAt ('(' :: rest) := by
  cases op <;> simp [token, Token.EndsAt]

/-! ## Composition -/

/-- **Parsed texts are put together by parentheses.**  Each text has a nesting, and whatever is in
the texts, their parenthesised forms are operands: alone, on both sides of an operator, and behind a
sign.  The result is refused only beyond the limits, where a pair of parentheses, a sign and an
exponent cost one level each. -/
theorem parse_parentheses {s t : String} {a b : Expr} (hs : parse s = .ok a)
    (ht : parse t = .ok b) :
    ∃ m n, Derives .sum m (tokens s.toList) a ∧ Derives .sum n (tokens t.toList) b ∧
      ParsesWithinLimits ("(" ++ s ++ ")") (m + 1) a ∧
      (∀ op : BinaryOp, ParsesWithinLimits
        ("(" ++ s ++ ")" ++ String.ofList op.symbol ++ "(" ++ t ++ ")")
        (op.nesting (m + 1) (n + 1)) (.binary op a b)) ∧
      ∀ op : UnaryOp, ParsesWithinLimits (String.ofList [op.symbol] ++ "(" ++ s ++ ")") (m + 2)
        (.unary op a) := by
  obtain ⟨-, m, -, hm, -⟩ := derives_of_parse hs
  obtain ⟨-, n, -, hn, -⟩ := derives_of_parse ht
  have hleft := tokens_parentheses hm.isArithmetic_of_mem
  have hright := tokens_parentheses hn.isArithmetic_of_mem []
  refine ⟨m, n, hm, hn, ?_, fun op => ?_, fun op => ?_⟩
  · have htext : ("(" ++ s ++ ")").toList = '(' :: (s.toList ++ [')']) := by simp
    refine Derives.parsesWithinLimits ?_
    rw [htext, hleft, tokens_nil, List.append_nil]
    exact .sum_of_primary (.parentheses hm)
  · have htext : ("(" ++ s ++ ")" ++ String.ofList op.symbol ++ "(" ++ t ++ ")").toList =
        '(' :: (s.toList ++ ')' :: (op.symbol ++ '(' :: (t.toList ++ [')']))) := by simp
    refine Derives.parsesWithinLimits ?_
    rw [htext, hleft, tokens_written (.symbol op.symbol?_token) (op.endsAt_leftParen _), hright,
      tokens_nil, List.append_nil]
    exact .binary_of_primary op (.parentheses hm) (.parentheses hn)
  · have htext : (String.ofList [op.symbol] ++ "(" ++ s ++ ")").toList =
        [op.symbol] ++ '(' :: (s.toList ++ [')']) := by simp
    refine Derives.parsesWithinLimits ?_
    rw [htext, tokens_written (.symbol op.symbol?_token) (op.endsAt _), hleft,
      tokens_nil, List.append_nil]
    exact .term (.factor (.sign op (.unsigned (.primary (.parentheses hm)))))

/-- A sum becomes the base and a signed number the exponent, whatever the blanks in them. -/
theorem parse_parentheses_power :
    let sum := Expr.binary .add (.number .one) (.number .one)
    let opposite := Expr.unary .negate (.number .half)
    parse "1 +\t1." = .ok sum ∧ parse " -.5" = .ok opposite ∧
      parse "(1 +\t1.)**( -.5)" = .ok (.binary .power sum opposite) := by
  intro sum opposite
  have hone : Derives .primary 0 [.number .one] (.number .one) := .number .one
  have hhalf : Derives .primary 0 [.number .half] (.number .half) := .number .half
  have hsum : Derives .sum 0 (tokens "1 +\t1.".toList) sum := by
    rw [show tokens "1 +\t1.".toList = [.number .one, .plus, .number .one] by decide +kernel]
    exact .binary_of_primary .add hone hone
  have hopposite : Derives .sum 1 (tokens " -.5".toList) opposite := by
    rw [show tokens " -.5".toList = [.minus, .number .half] by decide +kernel]
    exact .term (.factor (.sign .negate (.unsigned (.primary hhalf))))
  have hs : parse "1 +\t1." = .ok sum := hsum.parsesWithinLimits.parsed (by decide)
  have ht : parse " -.5" = .ok opposite := hopposite.parsesWithinLimits.parsed (by decide)
  obtain ⟨m, n, hm, hn, -, hop, -⟩ := parse_parentheses hs ht
  obtain rfl := hm.nesting_unique hsum
  obtain rfl := hn.nesting_unique hopposite
  exact ⟨hs, ht, (hop .power).parsed (by decide)⟩

end Calculator
