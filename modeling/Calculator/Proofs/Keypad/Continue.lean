import Calculator.Proofs.Keypad.Calculate
import Calculator.Proofs.Keypad.Typing

/-!
# Going on from a result

A value stands in the expression as its text, so an operator and a literal that are typed behind it
make an operation on the value.  The filter lets every key of them through, since a printed number
ends with a digit.

The text of a negative value is a sign and a literal, and `**` binds tighter than the sign: going on
from `-2` with `** 2` gives `-4`, the opposite of a power of the size.  With every other operator
the sign binds tighter, and the operation is the one on the value.
-/

namespace Calculator

open Binary64 (signed)

/-! ## A value in front of an operator -/

theorem tokens_operation {op : BinaryOp} {negative : Bool} {m m' : Magnitude}
    {text literal : List Char} {q q' : Rat} (hplain : Numeral.Plain text q)
    (hvalue : Binary64.ofRat false q = .finite false m) (hplain' : Numeral.Plain literal q')
    (hvalue' : Binary64.ofRat false q' = .finite false m') :
    tokens (signed negative text ++ (op.symbol ++ literal)) =
      signedTokens negative m ++ [op.token, .number (.finite false m')] := by
  obtain ⟨first, rest, hfirst, hdigit⟩ := hplain'.exists_first
  have hsymbol : ∀ c ∈ (op.symbol ++ literal).head?, c.isDigit = false ∧ c ≠ '.' := by
    cases op <;> simp [BinaryOp.symbol]
  have hends : op.token.EndsAt literal := by
    have hstar : first ≠ '*' := by rintro rfl; cases hdigit
    have hslash : first ≠ '/' := by rintro rfl; cases hdigit
    cases op <;> simp [BinaryOp.token, Token.EndsAt, hfirst, hstar, hslash]
  have hnothing : (Token.number (.finite false m')).EndsAt [] := by simp [Token.EndsAt]
  have hliteral : tokens literal = [.number (.finite false m')] := by
    simpa using tokens_written (hplain'.written hvalue') hnothing
  rw [tokens_signed negative hplain hvalue hsymbol, tokens_written (.symbol op.symbol?_token) hends,
    hliteral]

section

variable {m m' : Magnitude} {text literal : List Char} {q q' : Rat}

/-- **The sign of a number binds tighter** than any operator but `**`. -/
theorem evaluate_operation {op : BinaryOp} {negative : Bool}
    (hop : op ≠ .power ∨ negative = false) (hplain : Numeral.Plain text q)
    (hvalue : Binary64.ofRat false q = .finite false m) (hplain' : Numeral.Plain literal q')
    (hvalue' : Binary64.ofRat false q' = .finite false m') :
    evaluate (String.ofList (signed negative text ++ (op.symbol ++ literal))) =
      (op.apply (.finite negative m) (.finite false m')).map Binary64.normalizeZero := by
  have hliteral : Derives .primary 0 [.number (.finite false m')] (.number (.finite false m')) :=
    .number _
  have hderives : ∃ n ≤ 1, Derives .sum n
      (signedTokens negative m ++ [op.token, .number (.finite false m')])
      (.binary op (Expr.ofSigned negative m) (.number (.finite false m'))) := by
    by_cases hpower : op = .power
    · obtain rfl := hop.resolve_left (not_not_intro hpower)
      have hnumber : Derives .primary 0 [.number (.finite false m)] (.number (.finite false m)) :=
        .number _
      refine ⟨op.nesting 0 0, ?_, .binary_of_primary op hnumber hliteral⟩
      rw [hpower]
      decide
    · refine ⟨max negative.toNat 0, ?_, .binary_of_signed hpower (.ofSigned negative m)
        (.unsigned (.primary hliteral))⟩
      cases negative <;> decide
  obtain ⟨n, hn, hderives⟩ := hderives
  rw [← tokens_operation hplain hvalue hplain' hvalue'] at hderives
  have hheight : (Expr.binary op (Expr.ofSigned negative m) (.number (.finite false m'))).height ≤
      1000 := by
    cases negative <;> simp [Expr.ofSigned, Expr.height]
  have hparse := (Derives.parsesWithinLimits (by rwa [String.toList_ofList])).parsed
    ⟨Nat.le_trans hn (by decide), hheight⟩
  rw [evaluate_of_parse hparse, Expr.evaluate, Expr.evaluate_ofSigned]
  rfl

/-- **The sign of a number binds looser than `**`.** -/
theorem evaluate_power_behind_sign (hplain : Numeral.Plain text q)
    (hvalue : Binary64.ofRat false q = .finite false m) (hplain' : Numeral.Plain literal q')
    (hvalue' : Binary64.ofRat false q' = .finite false m') :
    evaluate (String.ofList (signed true text ++ (BinaryOp.power.symbol ++ literal))) =
      ((BinaryOp.power.apply (.finite false m) (.finite false m')).map Binary64.neg).map
        Binary64.normalizeZero := by
  have hbase : Derives .primary 0 [.number (.finite false m)] (.number (.finite false m)) :=
    .number _
  have hexponent : Derives .signed 0 [.number (.finite false m')] (.number (.finite false m')) :=
    .unsigned (.primary (.number _))
  have hderives : Derives .sum 2
      (signedTokens true m ++ [BinaryOp.power.token, .number (.finite false m')])
      (.unary .negate (.binary .power (.number (.finite false m)) (.number (.finite false m')))) :=
    .term (.factor (.sign .negate (.unsigned (.power hbase hexponent))))
  rw [← tokens_operation hplain hvalue hplain' hvalue'] at hderives
  have hparse := (Derives.parsesWithinLimits (by rwa [String.toList_ofList])).parsed
    ⟨by decide, by simp [Expr.height]⟩
  have hpower :
      (Expr.binary .power (.number (.finite false m)) (.number (.finite false m'))).evaluate =
        BinaryOp.power.apply (.finite false m) (.finite false m') := rfl
  rw [evaluate_of_parse hparse, Expr.evaluate, hpower]
  cases BinaryOp.power.apply (.finite false m) (.finite false m') <;> rfl

end

theorem Numeral.Plain.exists_magnitude {literal : List Char} {q : Rat} (h : Plain literal q)
    (hfinite : (Binary64.ofRat false q).isFinite = true) :
    ∃ m, Binary64.ofRat false q = .finite false m := by
  cases hread : Magnitude.ofRat q with
  | some m => exact ⟨m, Binary64.ofRat_of_magnitude h.nonneg hread⟩
  | none =>
    rw [Binary64.ofRat, hread] at hfinite
    cases hfinite

theorem Numeral.plain_zero :
    Plain ['0'] 0 ∧ (Binary64.ofRat false 0).isFinite = true ∧
      (Binary64.ofRat false 0).isZero = true :=
  ⟨.whole (toDigits_isWhole 0), by decide +kernel, by decide +kernel⟩

/-! ## Typing on -/

namespace Keypad.State

/-- **What the keypad shows of an outcome**: the value, or that there is an error, and which. -/
inductive Shows (s : State) : Except EvalError Binary64 → Prop
  | value {value : Binary64} : s.result = formatResult value → s.lastError = none →
    Shows s (.ok value)
  | error {err : EvalError} : s.result = "Error" → s.lastError = some err → Shows s (.error err)

variable {s : State} {v : Binary64} {literal : List Char} {q : Rat}

/-- A calculation shows the outcome of the expression; the sign of zero makes no difference. -/
theorem shows_calculate {outcome : Except EvalError Binary64}
    (hblank : Text.allBlank s.input.toList = false)
    (h : s.outcome = outcome.map Binary64.normalizeZero) : s.calculate.Shows outcome := by
  cases outcome with
  | ok value =>
    rw [calculate_of_ok h]
    exact .value (formatResult_normalizeZero value) rfl
  | error err =>
    rw [calculate_of_error hblank h]
    exact .error rfl rfl

theorem outcome_of_no_blanks {text : List Char} (hinput : s.input.toList = text) (hne : text ≠ [])
    (h : ∀ c ∈ text, Text.isBlank c = false) :
    Text.allBlank s.input.toList = false ∧ s.outcome = evaluate (String.ofList text) := by
  have htrim : Text.trim s.input.toList = text := by rw [hinput, Text.trim_eq_self h]
  refine ⟨Bool.eq_false_iff.2 fun hblank => hne ?_, by rw [outcome, htrim]⟩
  rw [← htrim, Text.trim_eq_nil_iff.2 hblank]

/-- **A value as it stands in the expression**: a sign if it is below zero, and a literal. -/
theorem exists_text_of_outcome (h : s.outcome = .ok v) :
    ∃ m text q, v = .finite v.isNegative m ∧ v.text = signed v.isNegative text ∧
      Numeral.Plain text q ∧ Binary64.ofRat false q = .finite false m := by
  obtain ⟨hfinite, hnormal⟩ := isFinite_of_evaluate h
  cases v with
  | infinite => cases hfinite
  | nan => cases hfinite
  | finite negative m =>
    obtain ⟨q, hplain, hvalue⟩ := Binary64.text_plain m
    have hnegative : (Binary64.finite negative m).isNegative = negative := by
      cases hzero : (Binary64.finite negative m).isZero with
      | false => simp [Binary64.isNegative, Binary64.signBit, hzero]
      | true =>
        rw [Binary64.normalizeZero_of_isZero hzero] at hnormal
        cases hnormal
        rfl
    rw [hnegative]
    exact ⟨m, _, q, rfl, Binary64.text_finite negative m, hplain, hvalue⟩

/-- **What is typed behind a value** is let through by the filter and appended to the text of the
value. -/
theorem input_typeText_behind (h : s.outcome = .ok v) (op : BinaryOp)
    (hliteral : Numeral.Plain literal q) :
    ((s.calculate.typeText op.symbol).typeText literal).input.toList =
      v.text ++ (op.symbol ++ literal) := by
  have hinput : s.calculate.input.toList = v.text := by
    rw [calculate_of_ok h]
    exact String.toList_ofList
  obtain ⟨m, text, q', -, htext, hplain, -⟩ := exists_text_of_outcome h
  obtain ⟨front, last, hlast, hdigit⟩ := hplain.exists_last
  have hbehind : v.text = signed v.isNegative front ++ [last] := by
    rw [htext, hlast]
    cases v.isNegative <;> rfl
  have hsymbol : acceptsAll s.calculate.input.toList.reverse op.symbol = true := by
    rw [hinput, hbehind, List.reverse_concat]
    exact acceptsAll_symbol op hdigit
  rw [input_typeText (acceptsAll_plain hliteral), input_typeText hsymbol, hinput, List.append_assoc]

/-- **What is typed behind a value is evaluated** as it was typed. -/
theorem outcome_typeText_behind (h : s.outcome = .ok v) (op : BinaryOp)
    (hliteral : Numeral.Plain literal q) :
    Text.allBlank ((s.calculate.typeText op.symbol).typeText literal).input.toList = false ∧
      ((s.calculate.typeText op.symbol).typeText literal).outcome =
        evaluate (String.ofList (v.text ++ (op.symbol ++ literal))) := by
  obtain ⟨m, text, q', -, htext, hplain, -⟩ := exists_text_of_outcome h
  obtain ⟨first, rest, hfirst, -⟩ := hliteral.exists_first
  have hsymbol : ∀ c ∈ op.symbol, Text.isBlank c = false := by
    cases op <;> simp [BinaryOp.symbol, Text.isBlank]
  have hblank : ∀ c ∈ v.text ++ (op.symbol ++ literal), Text.isBlank c = false := by
    rw [htext]
    simp only [List.forall_mem_append]
    exact ⟨hplain.isBlank_eq_false _, hsymbol, hliteral.isBlank_eq_false false⟩
  exact outcome_of_no_blanks (input_typeText_behind h op hliteral) (by simp [hfirst]) hblank

/-- An operation on a value that is not below zero, or with another operator than `**`. -/
theorem shows_operation (h : s.outcome = .ok v) {op : BinaryOp}
    (hop : op ≠ .power ∨ v.isNegative = false) (hliteral : Numeral.Plain literal q)
    (hfinite : (Binary64.ofRat false q).isFinite = true) :
    ((s.calculate.typeText op.symbol).typeText literal).calculate.Shows
      (op.apply v (Binary64.ofRat false q)) := by
  obtain ⟨m, text, q', hv, htext, hplain, hvalue⟩ := exists_text_of_outcome h
  obtain ⟨m', hvalue'⟩ := hliteral.exists_magnitude hfinite
  obtain ⟨hblank, houtcome⟩ := outcome_typeText_behind h op hliteral
  refine shows_calculate hblank ?_
  rw [houtcome, htext, evaluate_operation hop hplain hvalue hliteral hvalue', ← hv, hvalue']

/-- A power of a value below zero is the opposite of the power of its size. -/
theorem shows_power (h : s.outcome = .ok v) (hnegative : v.isNegative = true)
    (hliteral : Numeral.Plain literal q) (hfinite : (Binary64.ofRat false q).isFinite = true) :
    ((s.calculate.typeText BinaryOp.power.symbol).typeText literal).calculate.Shows
      ((BinaryOp.power.apply v.neg (Binary64.ofRat false q)).map Binary64.neg) := by
  obtain ⟨m, text, q', hv, htext, hplain, hvalue⟩ := exists_text_of_outcome h
  obtain ⟨m', hvalue'⟩ := hliteral.exists_magnitude hfinite
  obtain ⟨hblank, houtcome⟩ := outcome_typeText_behind h .power hliteral
  have hsize : v.neg = .finite false m := by
    rw [hv, hnegative]
    rfl
  refine shows_calculate hblank ?_
  rw [houtcome, htext, hnegative, evaluate_power_behind_sign hplain hvalue hliteral hvalue', hsize,
    hvalue']

theorem outcome_minus_one : outcome { input := "-1" } = .ok Binary64.one.neg := by
  have htext : toString Binary64.one.neg = "-1" := by decide +kernel
  have hnormal : Binary64.one.neg.normalizeZero = Binary64.one.neg := by decide +kernel
  simp only [outcome]
  rw [← htext, Binary64.trim_toString rfl, evaluate_toString rfl, hnormal]

theorem isNegative_minus_one : Binary64.one.neg.isNegative = true := by decide +kernel

/-- **The sign of the value stays outside of a power.**  A value of `-1` with `**0` typed behind it
gives `-1`, and the zeroth power of `-1` is `1`. -/
theorem not_shows_power_of_negative :
    let s : State := { input := "-1" }
    let v := Binary64.one.neg
    let w := Binary64.ofRat false 0
    s.outcome = .ok v ∧ Numeral.Plain ['0'] 0 ∧ w.isFinite = true ∧
      ¬ ((s.calculate.typeText BinaryOp.power.symbol).typeText ['0']).calculate.Shows
        (BinaryOp.power.apply v w) := by
  obtain ⟨hzero, hfinite, hw⟩ := Numeral.plain_zero
  refine ⟨outcome_minus_one, hzero, hfinite, fun hshows => ?_⟩
  have htyped := shows_power outcome_minus_one isNegative_minus_one hzero hfinite
  rw [BinaryOp.apply_power_of_isZero _ hw] at hshows htyped
  obtain ⟨hone, -⟩ := hshows
  obtain ⟨hopposite, -⟩ := htyped
  have hsame : formatResult .one = formatResult (Binary64.neg .one) := hone.symm.trans hopposite
  have hdiffer : formatResult .one ≠ formatResult (Binary64.neg .one) := by decide +kernel
  exact hdiffer hsame

/-- **Going on from a result.**  An operator and a literal typed behind a value show the outcome of
the operation on the value; only that `**` leaves the sign of a value below zero outside. -/
theorem shows_continued {s : State} {v : Binary64} (h : s.outcome = .ok v) (op : BinaryOp)
    {literal : List Char} {q : Rat} (hliteral : Numeral.Plain literal q)
    (hfinite : (Binary64.ofRat false q).isFinite = true) :
    (op ≠ .power ∨ v.isNegative = false →
      ((s.calculate.typeText op.symbol).typeText literal).calculate.Shows
        (op.apply v (Binary64.ofRat false q))) ∧
    (op = .power ∧ v.isNegative = true →
      ((s.calculate.typeText op.symbol).typeText literal).calculate.Shows
        ((op.apply v.neg (Binary64.ofRat false q)).map Binary64.neg)) := by
  refine ⟨fun hop => shows_operation h hop hliteral hfinite, ?_⟩
  rintro ⟨rfl, hnegative⟩
  exact shows_power h hnegative hliteral hfinite

/-- Behind the value `-1`, division keeps the sign with the value and `**` does not. -/
theorem shows_continued_negative :
    let s : State := { input := "-1" }
    let v := Binary64.one.neg
    s.outcome = .ok v ∧ Numeral.Plain ['0'] 0 ∧ (Binary64.ofRat false 0).isFinite = true ∧
      ((s.calculate.typeText BinaryOp.divide.symbol).typeText ['0']).calculate.Shows
        (.error .divisionByZero) ∧
      ((s.calculate.typeText BinaryOp.power.symbol).typeText ['0']).calculate.Shows
        (.ok v) := by
  obtain ⟨hzero, hfinite, hw⟩ := Numeral.plain_zero
  have hdivide := (shows_continued outcome_minus_one .divide hzero hfinite).1 (.inl (by decide))
  have hpower := (shows_continued outcome_minus_one .power hzero hfinite).2
    ⟨rfl, isNegative_minus_one⟩
  have hundefined : BinaryOp.divide.apply Binary64.one.neg (Binary64.ofRat false 0) =
      .error .divisionByZero := by
    rw [BinaryOp.apply, BinaryOp.dividesByZero, hw]
    rfl
  rw [hundefined] at hdivide
  rw [BinaryOp.apply_power_of_isZero _ hw] at hpower
  exact ⟨outcome_minus_one, hzero, hfinite, hdivide, hpower⟩

end Keypad.State

end Calculator
