import Calculator.Proofs.FullText
import Calculator.Proofs.Tokens
import Calculator.Proofs.Value

/-!
# Numerals with a sign in front

Numbers are printed with a minus sign in front if they are negative, but a literal has no sign: the
minus sign is read as an operator, and the number comes back as the opposite of a literal.
`Expr.ofSigned` is that expression, `signedTokens` are its tokens, and `evaluate_signed` says that
the sign makes the number that it was printed for.

Numerals are scanned with any text behind them (`scan_signed`), since printed numbers are also put
in front of other texts.
-/

namespace Calculator

open Binary64 (signed)

variable {negative : Bool} {m : Magnitude} {text : List Char} {q : Rat}

/-- **The expression of a signed numeral.** -/
def Expr.ofSigned (negative : Bool) (m : Magnitude) : Expr :=
  if negative then .unary .negate (.number (.finite false m)) else .number (.finite false m)

/-- The tokens of a signed numeral. -/
def signedTokens (negative : Bool) (m : Magnitude) : List Token :=
  if negative then [.minus, .number (.finite false m)] else [.number (.finite false m)]

@[simp] theorem Expr.evaluate_ofSigned (negative : Bool) (m : Magnitude) :
    (ofSigned negative m).evaluate = .ok (.finite negative m) := by
  cases negative <;> rfl

theorem Expr.height_ofSigned_le (negative : Bool) (m : Magnitude) :
    (ofSigned negative m).height ≤ 1000 := by
  cases negative <;> simp [ofSigned, height]

/-- A signed numeral binds like a sign, and a numeral without a sign like a literal. -/
theorem Derives.ofSigned (negative : Bool) (m : Magnitude) :
    Derives .signed negative.toNat (signedTokens negative m) (Expr.ofSigned negative m) := by
  have hliteral : Derives .signed 0 [.number (.finite false m)] (.number (.finite false m)) :=
    .unsigned (.primary (.number _))
  cases negative with
  | false => exact hliteral
  | true => exact .sign .negate hliteral

theorem Numeral.Plain.of_mem_signed (hplain : Plain text q) (negative : Bool) {c : Char}
    (hc : c ∈ signed negative text) : c.isDigit = true ∨ c = '.' ∨ c = '-' := by
  have hnumeral : c ∈ text → c.isDigit = true ∨ c = '.' ∨ c = '-' := fun hmem =>
    (hplain.isDigit_or_point c hmem).imp_right .inl
  cases negative with
  | false => exact hnumeral hc
  | true =>
    rcases List.mem_cons.1 hc with hminus | hmem
    · exact .inr (.inr hminus)
    · exact hnumeral hmem

/-! ## Scanning -/

/-- **A signed numeral is scanned** as its tokens, and what follows it as it stands. -/
theorem scan_signed (negative : Bool) (hplain : Numeral.Plain text q)
    (hvalue : Binary64.ofRat false q = .finite false m) {rest : List Char}
    (hrest : ∀ c ∈ rest.head?, c.isDigit = false ∧ c ≠ '.') :
    ∃ front : List Lexeme, front.map Lexeme.token = signedTokens negative m ∧
      Lexeme.scan (signed negative text ++ rest) =
        front ++ Lexeme.scanFrom (signed negative text).length 0 rest := by
  have hwritten := hplain.written hvalue
  cases negative with
  | false =>
    refine ⟨[⟨.number (.finite false m), 0⟩], rfl, ?_⟩
    rw [signed, if_neg Bool.false_ne_true, Lexeme.scan, Lexeme.scanFrom_written hwritten hrest,
      Nat.zero_add]
    rfl
  | true =>
    refine ⟨[⟨.minus, 0⟩, ⟨.number (.finite false m), 1⟩], rfl, ?_⟩
    have hminus : Token.minus.Written ['-'] := .symbol rfl
    have hscan : Lexeme.scanFrom 0 0 ('-' :: (text ++ rest)) =
        ⟨.minus, 0⟩ :: Lexeme.scanFrom 1 0 (text ++ rest) :=
      Lexeme.scanFrom_written hminus trivial
    rw [signed, if_pos rfl, Lexeme.scan, List.cons_append, hscan,
      Lexeme.scanFrom_written hwritten hrest, List.length_cons, Nat.add_comm 1]
    rfl

theorem tokens_signed (negative : Bool) (hplain : Numeral.Plain text q)
    (hvalue : Binary64.ofRat false q = .finite false m) {rest : List Char}
    (hrest : ∀ c ∈ rest.head?, c.isDigit = false ∧ c ≠ '.') :
    tokens (signed negative text ++ rest) = signedTokens negative m ++ tokens rest := by
  obtain ⟨front, hfront, hscan⟩ := scan_signed negative hplain hvalue hrest
  rw [tokens, hscan, List.map_append, hfront, Lexeme.map_token_scanFrom]

/-! ## Values -/

/-- **A signed numeral is evaluated to the number of its sign and size.** -/
theorem evaluate_signed (negative : Bool) (hplain : Numeral.Plain text q)
    (hvalue : Binary64.ofRat false q = .finite false m) :
    evaluate (String.ofList (signed negative text)) =
      .ok (Binary64.finite negative m).normalizeZero := by
  have hnothing : ∀ c ∈ ([] : List Char).head?, c.isDigit = false ∧ c ≠ '.' := by simp
  have htokens : tokens (signed negative text) = signedTokens negative m := by
    simpa using tokens_signed negative hplain hvalue hnothing
  have hderives : Derives .sum negative.toNat
      (tokens (String.ofList (signed negative text)).toList) (Expr.ofSigned negative m) := by
    rw [String.toList_ofList, htokens]
    exact .term (.factor (.ofSigned negative m))
  have hnesting : negative.toNat ≤ 200 := Nat.le_trans negative.toNat_le (by decide)
  have hfits := And.intro hnesting (Expr.height_ofSigned_le negative m)
  rw [evaluate_of_parse (hderives.parsesWithinLimits.parsed hfits), Expr.evaluate_ofSigned]
  rfl

theorem Binary64.text_finite (negative : Bool) (m : Magnitude) :
    (finite negative m).text = signed negative (finite false m).text := by
  simp only [text, signed, Bool.false_eq_true, if_false]

/-- **What a finite number is printed as**: a literal of its size behind its sign. -/
theorem Binary64.exists_signed {v : Binary64} (hfinite : v.isFinite = true) :
    ∃ negative m text q, v = finite negative m ∧ (toString v).toList = signed negative text ∧
      Numeral.Plain text q ∧ Binary64.ofRat false q = finite false m := by
  cases v with
  | finite negative m =>
    obtain ⟨q, hplain, hvalue⟩ := Binary64.text_plain m
    refine ⟨negative, m, _, q, rfl, ?_, hplain, hvalue⟩
    rw [← text_finite]
    exact String.toList_ofList
  | infinite => cases hfinite
  | nan => cases hfinite

/-- **The full text of a finite number is evaluated to that number**, but for the sign of zero. -/
theorem evaluate_toString {v : Binary64} (hfinite : v.isFinite = true) :
    evaluate (toString v) = .ok v.normalizeZero := by
  obtain ⟨negative, m, text, q, rfl, htext, hplain, hvalue⟩ := Binary64.exists_signed hfinite
  rw [← String.ofList_toList (s := toString (Binary64.finite negative m)), htext]
  exact evaluate_signed negative hplain hvalue

end Calculator
