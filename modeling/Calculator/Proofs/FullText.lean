import Calculator.Proofs.Number.ReadBack
import Calculator.Proofs.Parser.FirstProblem
import Calculator.Proofs.Rendering

/-!
# The full text of an expression is parsed as that expression

The full text puts every operation in parentheses, so its tokens are a primary whatever the
operators in it, and how deeply it is nested can be read off the tree (`Expr.fullNesting`).  Three
facts make up `parse_toString`: numbers are written so that they are read back, the text is scanned
as the tokens it was written with, and the grammar derives the tree from them.

Only numbers without a sign of their own are literals: the text of a negative number starts with a
minus sign and is parsed as a sign before a number.
-/

namespace Calculator

/-! ## Numbers -/

namespace Numeral

theorem Plain.hasLeadingZeros_eq_false {text : List Char} {q : Rat} (h : Plain text q) :
    hasLeadingZeros text = false := by
  cases h with
  | whole hwhole =>
    by_cases hzero : text.head? = some '0'
    · rw [hwhole.leadingZero hzero]
      decide
    · simp [hasLeadingZeros, hzero]
  | point => simp [hasLeadingZeros]

/-- **A printed numeral is written as the token of its value.** -/
theorem Plain.written {text : List Char} {q : Rat} {m : Magnitude} (h : Plain text q)
    (hvalue : Binary64.ofRat false q = .finite false m) :
    (Token.number (.finite false m)).Written text := by
  refine .number h.hasLeadingZeros_eq_false ?_
  rw [Binary64.ofNumeral?, read?_eq_some_iff.2 h.reads, Option.map_some, hvalue]

end Numeral

namespace Binary64

/-- How a number without a sign is printed, and that it is read back. -/
theorem text_plain (m : Magnitude) :
    ∃ q, Numeral.Plain (finite false m).text q ∧ ofRat false q = finite false m := by
  by_cases hzero : m.units = 0
  case pos =>
    obtain rfl := Magnitude.units_eq_zero.1 hzero
    have hnatural : (Numeral.natural ['0'] : Rat) = Magnitude.zero.toRat := by
      rw [Magnitude.toRat_zero]
      rfl
    refine ⟨Numeral.natural ['0'], .whole (Numeral.toDigits_isWhole 0), ?_⟩
    rw [hnatural]
    exact ofRat_of_magnitude Magnitude.zero.toRat_nonneg Magnitude.zero.ofRat_toRat
  case neg =>
    have htext : (finite false m).text = m.shortest.positional := by
      simp [text, signed, hzero]
    rw [htext]
    exact ⟨m.shortest.toRat, m.shortest.positional_canonical.plain,
      ofRat_of_magnitude m.shortest.toRat_nonneg m.ofRat_shortest⟩

/-- **A finite number without a sign is written as its full text.** -/
theorem text_written {value : Binary64} (hfinite : value.isFinite = true)
    (hsign : value.signBit = false) : (Token.number value).Written value.text := by
  cases value with
  | finite negative m =>
    obtain rfl : negative = false := hsign
    obtain ⟨q, hplain, hvalue⟩ := text_plain m
    exact hplain.written hvalue
  | infinite => cases hfinite
  | nan => cases hfinite

end Binary64

/-! ## Operators -/

theorem UnaryOp.symbol?_token (op : UnaryOp) : op.token.symbol? = some [op.symbol] := by
  cases op <;> rfl

theorem BinaryOp.symbol?_token (op : BinaryOp) : op.token.symbol? = some op.symbol := by
  cases op <;> rfl

theorem UnaryOp.endsAt (op : UnaryOp) (rest : List Char) : op.token.EndsAt rest := by
  cases op <;> trivial

theorem BinaryOp.endsAt_space (op : BinaryOp) (rest : List Char) :
    op.token.EndsAt (' ' :: rest) := by
  cases op <;> simp [token, Token.EndsAt]

/-! ## Trees -/

namespace Expr

/-- The numbers of an expression, from left to right. -/
def literals : Expr → List Binary64
  | number value => [value]
  | unary _ operand => operand.literals
  | binary _ left right => left.literals ++ right.literals

/-- The tokens of the full text. -/
def fullTokens : Expr → List Token
  | number value => [.number value]
  | unary op operand => .leftParen :: op.token :: (operand.fullTokens ++ [.rightParen])
  | binary op left right =>
    .leftParen :: (left.fullTokens ++ op.token :: right.fullTokens ++ [.rightParen])

/-- **How deeply the full text is nested.**  Each operation costs its parentheses; a sign and the
exponent of a power cost one more. -/
def fullNesting : Expr → Nat
  | number _ => 0
  | unary _ operand => 2 + operand.fullNesting
  | binary .power left right => max (1 + left.fullNesting) (2 + right.fullNesting)
  | binary _ left right => 1 + max left.fullNesting right.fullNesting

/-- **The tokens of the full text are a primary**, with the tree that was written. -/
theorem derives_fullTokens (e : Expr) : Derives .primary e.fullNesting e.fullTokens e := by
  induction e with
  | number value => exact .number value
  | unary op operand ih =>
    have hsigned : Derives .signed operand.fullNesting operand.fullTokens operand :=
      .unsigned (.primary ih)
    have hnesting : 2 + operand.fullNesting = operand.fullNesting + 1 + 1 := by omega
    rw [fullNesting, hnesting]
    exact .parentheses (.term (.factor (.sign op hsigned)))
  | binary op left right ihl ihr =>
    have hnesting : (binary op left right).fullNesting =
        op.nesting left.fullNesting right.fullNesting + 1 := by
      cases op <;> simp only [fullNesting, BinaryOp.nesting] <;> omega
    rw [hnesting]
    exact .parentheses (.binary_of_primary op ihl ihr)

theorem fullTokens_ne_nil (e : Expr) : e.fullTokens ≠ [] := by
  cases e <;> simp [fullTokens]

/-- **The full text writes down its tokens**, in front of whatever does not go on with a number. -/
theorem text_renders {e : Expr}
    (hliterals : ∀ value ∈ e.literals, value.isFinite = true ∧ value.signBit = false)
    {position textEnd : Nat} {after : List Lexeme} {rest : List Char}
    (hends : ∀ c ∈ rest.head?, c.isDigit = false ∧ c ≠ '.')
    (htextEnd : position + e.text.length = textEnd) (hafter : Renders textEnd after rest) :
    ∃ front, front.map Lexeme.token = e.fullTokens ∧
      Renders position (front ++ after) (e.text ++ rest) := by
  induction e generalizing position textEnd after rest with
  | number value =>
    obtain ⟨hfinite, hsign⟩ := hliterals value (List.mem_singleton.2 rfl)
    subst htextEnd
    exact ⟨[⟨.number value, position⟩], rfl,
      .token (Binary64.text_written hfinite hsign) hends hafter⟩
  | unary op operand ih =>
    generalize hclose : position + 1 + 1 + operand.text.length = close
    have hend : close + 1 = textEnd := by
      simp only [text, List.length_cons, List.length_append, List.length_nil] at htextEnd
      omega
    subst hend
    have hparen : Renders close (⟨.rightParen, close⟩ :: after) (')' :: rest) :=
      .symbol rfl trivial hafter
    obtain ⟨front, hfront, hoperand⟩ := ih hliterals (by simp) hclose hparen
    have hsign := Renders.symbol op.symbol?_token (op.endsAt _) hoperand
    have hopen : Renders position (⟨.leftParen, position⟩ :: _) ('(' :: _) :=
      .symbol rfl trivial hsign
    refine ⟨⟨.leftParen, position⟩ :: ⟨op.token, position + 1⟩ ::
      (front ++ [⟨.rightParen, close⟩]), ?_, ?_⟩
    · simp [fullTokens, hfront]
    · simpa [text] using hopen
  | binary op left right ihl ihr =>
    have hliteralsl : ∀ value ∈ left.literals, value.isFinite = true ∧ value.signBit = false :=
      fun value hvalue => hliterals value (List.mem_append_left _ hvalue)
    have hliteralsr : ∀ value ∈ right.literals, value.isFinite = true ∧ value.signBit = false :=
      fun value hvalue => hliterals value (List.mem_append_right _ hvalue)
    generalize hspace : position + 1 + left.text.length = space
    generalize hclose : space + 1 + op.symbol.length + 1 + right.text.length = close
    have hend : close + 1 = textEnd := by
      simp only [text, List.length_cons, List.length_append, List.length_nil] at htextEnd
      omega
    subst hend
    -- from the closing parenthesis back to the opening one
    have hparen : Renders close (⟨.rightParen, close⟩ :: after) (')' :: rest) :=
      .symbol rfl trivial hafter
    obtain ⟨behind, hbehind, hright⟩ := ihr hliteralsr (by simp) hclose hparen
    have hop : Renders (space + 1) (⟨op.token, space + 1⟩ :: _) (op.symbol ++ ' ' :: _) :=
      .token (.symbol op.symbol?_token) (op.endsAt_space _) (.separator rfl hright)
    have hbefore : Renders space (⟨op.token, space + 1⟩ :: _) (' ' :: _) := .separator rfl hop
    obtain ⟨front, hfront, hleft⟩ := ihl hliteralsl (by simp) hspace hbefore
    have hopen : Renders position (⟨.leftParen, position⟩ :: _) ('(' :: _) :=
      .symbol rfl trivial hleft
    refine ⟨⟨.leftParen, position⟩ :: (front ++ ⟨op.token, space + 1⟩ :: behind ++
      [⟨.rightParen, close⟩]), ?_, ?_⟩
    · simp [fullTokens, hfront, hbehind]
    · simpa [text] using hopen

theorem scan_text {e : Expr}
    (hliterals : ∀ value ∈ e.literals, value.isFinite = true ∧ value.signBit = false) :
    (Lexeme.scan e.text).map Lexeme.token = e.fullTokens ∧ Text.allBlank e.text = false := by
  have hnil : Renders (0 + e.text.length) [] [] := .nil
  obtain ⟨front, hfront, hrenders⟩ := text_renders hliterals (by simp) rfl hnil
  rw [List.append_nil, List.append_nil] at hrenders
  have hne : front ≠ [] := by
    rintro rfl
    exact e.fullTokens_ne_nil hfront.symm
  exact ⟨by rw [Lexeme.scan, Lexeme.scanFrom_of_renders hrenders, hfront],
    hrenders.allBlank_eq_false hne⟩

end Expr

/-! ## Printing and parsing -/

/-- **Printing and then parsing changes nothing.**  The full text of an expression of unsigned
numbers, within the limit of height, is parsed as that expression if it is not nested beyond the
limit, and is refused as too deep if it is. -/
theorem parse_toString {e : Expr}
    (hliterals : ∀ value ∈ e.literals, value.isFinite = true ∧ value.signBit = false)
    (hheight : e.height ≤ 1000) :
    (e.fullNesting ≤ 200 → parse (toString e) = .ok e) ∧
      (200 < e.fullNesting →
        ∃ position, parse (toString e) = .error (.malformed .tooDeep position)) := by
  obtain ⟨htokens, hblank⟩ := Expr.scan_text hliterals
  have htext : (toString e).toList = e.text := String.toList_ofList
  have hderives : Derives .sum e.fullNesting
      ((Lexeme.scan (toString e).toList).map Lexeme.token) e := by
    rw [htext, htokens]
    exact .sum_of_primary e.derives_fullTokens
  rw [parse_of_not_blank (htext ▸ hblank)]
  constructor
  · intro hnesting
    exact Parser.parseWithin_of_derives _ (by decide) hderives hnesting hheight
  · intro hnesting
    exact Parser.parseWithin_of_exceeds _ (by decide) hderives fun hfits =>
      Nat.not_le_of_lt hnesting hfits.1

/-- A power with a signed exponent is parsed back, and under another 99 signs it is too deep. -/
theorem parse_toString_signed_exponent :
    (let e := Expr.binary .power (.number .half) (.unary .negate (.number .one))
     parse (toString e) = .ok e ∧
      ∃ position, parse (toString (Nat.repeat (.unary .negate) 99 e)) =
        .error (.malformed .tooDeep position)) :=
  ⟨(parse_toString (by decide) (by decide)).1 (by decide),
    (parse_toString (by decide) (by decide)).2 (by decide)⟩

end Calculator
