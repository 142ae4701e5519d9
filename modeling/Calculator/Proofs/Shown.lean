import Calculator.Proofs.Number.General
import Calculator.Proofs.SignedNumeral

/-!
# What becomes of a shown result that is evaluated again

A result is shown with ten digits, so it does not tell the number that it was computed as.
Evaluated again it gives the number nearest to what is shown, and that number is shown in the same
way (`evaluate_formatResult`): the text is stable although the number is not.

Very large and very small results are shown with an exponent, which is no part of the arithmetic
that is parsed.  Such a text is refused at the letter `e`, and is never taken for another number.
-/

namespace Calculator

open Binary64 (signed)

attribute [local instance (2000)] instPowNat

variable {negative : Bool} {text : List Char} {q : ℚ}

/-! ## The number that is shown -/

/-- **The number that a shown text stands for**: a numeral, with a minus sign in front of it or
not. -/
def Numeral.readSigned? : List Char → Option ℚ
  | '-' :: text => (read? text).map Neg.neg
  | text => read? text

/-- A rational with a sign in front of it. -/
def signedRat (negative : Bool) (q : ℚ) : ℚ := if negative then -q else q

theorem Numeral.Plain.readSigned? (hplain : Plain text q) (negative : Bool) :
    readSigned? (signed negative text) = some (signedRat negative q) := by
  have hread : read? text = some q := read?_eq_some_iff.2 hplain.reads
  cases negative with
  | true => simp [signed, Numeral.readSigned?, hread, signedRat]
  | false =>
    have hminus : text.head? ≠ some '-' := fun hhead => by
      rcases hplain.isDigit_or_point '-' (List.mem_of_mem_head? hhead) with h | h
      · cases h
      · cases h
    rw [signed, if_neg Bool.false_ne_true, signedRat, if_neg Bool.false_ne_true, ← hread]
    unfold Numeral.readSigned?
    split
    · exact absurd rfl hminus
    · rfl

/-- Sizes are as near as the numbers are that have them. -/
theorem Binary64.IsNearest.abs_toRat_sub_le {m : Magnitude}
    (h : (finite negative m).IsNearest (signedRat negative q)) (other : Magnitude) :
    |m.toRat - q| ≤ |other.toRat - q| := by
  have hle := h.2 (finite negative other) rfl
  cases negative with
  | false => simpa [toRat, signedRat] using hle
  | true => simpa [toRat, signedRat, neg_add_eq_sub, abs_sub_comm] using hle

/-! ## The letter of the exponent -/

/-- The letter of an exponent is a word of its own, since a sign follows it. -/
theorem Token.first_exponent {sign : Char} (hsign : sign = '-' ∨ sign = '+') (rest : List Char) :
    first 'e' (sign :: rest) = (.foreign .identifier, 0) := by
  rcases hsign with rfl | rfl <;> rfl

theorem Lexeme.scanFrom_exponentText (position : Nat) (exponent : Int) :
    ∃ after, scanFrom position 0 (exponentText exponent) =
      ⟨.foreign .identifier, position⟩ :: after := by
  have hsign : (if exponent < 0 then '-' else '+') = '-' ∨
      (if exponent < 0 then '-' else '+') = '+' := by
    split
    · exact .inl rfl
    · exact .inr rfl
  rw [exponentText, scanFrom_token (by decide), Token.first_exponent hsign]
  exact ⟨_, rfl⟩

theorem Numeral.Plain.letter_not_mem (hplain : Plain text q) (negative : Bool) :
    'e' ∉ signed negative text := by
  intro hmem
  rcases hplain.of_mem_signed negative hmem with h | h | h <;> cases h

/-- **A numeral with an exponent is refused** at the letter of the exponent. -/
theorem evaluate_exponentText {m : Magnitude} (negative : Bool) (hplain : Numeral.Plain text q)
    (hvalue : Binary64.ofRat false q = .finite false m) (exponent : Int) :
    evaluate (String.ofList (signed negative text ++ exponentText exponent)) =
      .error (.disallowed .identifier (signed negative text).length) := by
  have hletter : ∀ c ∈ (exponentText exponent).head?, c.isDigit = false ∧ c ≠ '.' := by
    simp [exponentText]
  obtain ⟨front, hfront, hscan⟩ := scan_signed negative hplain hvalue hletter
  obtain ⟨after, hafter⟩ :=
    Lexeme.scanFrom_exponentText (signed negative text).length exponent
  rw [hafter] at hscan
  have hderives : Derives .sum negative.toNat (front.map Lexeme.token)
      (Expr.ofSigned negative m) := by
    rw [hfront]
    exact .term (.factor (.ofSigned negative m))
  have hnesting : negative.toNat ≤ 200 := Nat.le_trans negative.toNat_le (by decide)
  have hblank : Text.allBlank (signed negative text ++ exponentText exponent) = false := by
    refine Bool.eq_false_iff.2 fun hall => ?_
    have := List.all_eq_true.1 hall 'e' (List.mem_append_right _ List.mem_cons_self)
    cases this
  have hnext : ∀ op : BinaryOp, Token.foreign .identifier ≠ op.token := fun op => by
    cases op <;> simp [BinaryOp.token]
  have hparse : parse (String.ofList (signed negative text ++ exponentText exponent)) =
      .error (.disallowed .identifier (signed negative text).length) := by
    rw [parse_of_not_blank (by rwa [String.toList_ofList]), String.toList_ofList, hscan]
    exact Parser.parseWithin_refused _ (by decide) hderives hnesting
      (Expr.height_ofSigned_le negative m) hnext after
  exact evaluate_of_parse_error hparse

/-! ## The text of a result -/

theorem Binary64.shown_finite {m : Magnitude} (hpositive : 0 < m.toRat) (negative : Bool) :
    (finite negative m).normalizeZero = finite negative m ∧
      (finite negative m).shown = signed negative (generalText m.toRat 10) := by
  have hunits : m.units ≠ 0 := Magnitude.toRat_pos.1 hpositive
  have hmantissa : m.mantissa ≠ 0 := fun hzero =>
    hunits (by rw [Magnitude.units, hzero, Nat.zero_mul])
  have hnormal : (finite negative m).normalizeZero = finite negative m := by
    simp [normalizeZero, isZero, hmantissa]
  refine ⟨hnormal, ?_⟩
  rw [shown, hnormal, general, if_neg hunits]
  rfl

/-- **A result in positional notation** is evaluated to the number nearest to what is shown. -/
theorem evaluate_positional {m : Magnitude} (hpositive : 0 < m.toRat) (negative : Bool)
    {d : Decimal} (hd : Decimal.rounded m.toRat 10 = d) (hsmall : -13 ≤ d.exponent)
    (hlarge : d.exponent ≤ 0) (htext : d.general 10 = d.positional) :
    'e' ∉ (formatResult (.finite negative m)).toList ∧
    ∃ w q, evaluate (formatResult (.finite negative m)) = .ok w ∧
      formatResult w = formatResult (.finite negative m) ∧
      Numeral.readSigned? (formatResult (.finite negative m)).toList = some q ∧
      ((Binary64.finite negative m).IsNearest q →
        w = (Binary64.finite negative m).normalizeZero) := by
  obtain ⟨hlow, hhigh, -⟩ := Decimal.rounded_spec hpositive 9
  rw [hd] at hlow hhigh
  obtain ⟨m', hm', hpositive', hagain⟩ := Decimal.general_of_ofRat hlow hhigh hsmall hlarge
  have hvalue : Binary64.ofRat false d.toRat = .finite false m' :=
    Binary64.ofRat_of_magnitude d.toRat_nonneg hm'
  have hplain : Numeral.Plain d.positional d.toRat := d.positional_canonical.plain
  have hshown : formatResult (.finite negative m) =
      String.ofList (signed negative d.positional) := by
    rw [formatResult, (Binary64.shown_finite hpositive negative).2,
      Decimal.generalText_eq hpositive 9, hd, htext]
  have hshown' : formatResult (.finite negative m') =
      String.ofList (signed negative d.positional) := by
    rw [formatResult, (Binary64.shown_finite hpositive' negative).2, hagain, htext]
  rw [hshown, String.toList_ofList]
  refine ⟨hplain.letter_not_mem negative, .finite negative m', signedRat negative d.toRat, ?_,
    hshown', hplain.readSigned? negative, fun hnearest => ?_⟩
  · rw [evaluate_signed negative hplain hvalue, (Binary64.shown_finite hpositive' negative).1]
  · have hfew : d.coefficient < 2 * leadingBit := lt_trans hhigh (by decide)
    have hm := hnearest.abs_toRat_sub_le
    have hm'' := Magnitude.abs_toRat_sub_le d.toRat_nonneg hm'
    rw [Decimal.toRat_eq_div hlarge] at hm hm''
    rw [(Binary64.shown_finite hpositive negative).1,
      Magnitude.nearest_unique hfew (by omega) hm hm'']

/-- **A result with an exponent** is refused at the letter of the exponent. -/
theorem evaluate_scientific {m : Magnitude} (hpositive : 0 < m.toRat) (negative : Bool)
    {d : Decimal} (hd : Decimal.rounded m.toRat 10 = d) {exponent : Int}
    (htext : d.general 10 =
      Numeral.trimFraction (Numeral.fixed d.coefficient 9) ++ exponentText exponent) :
    'e' ∈ (formatResult (.finite negative m)).toList ∧
    evaluate (formatResult (.finite negative m)) =
      .error (.disallowed .identifier ((formatResult (.finite negative m)).toList.idxOf 'e')) := by
  obtain ⟨-, hhigh, -⟩ := Decimal.rounded_spec hpositive 9
  rw [hd] at hhigh
  have hplain := (Numeral.fixed_plain d.coefficient 9).canonical_trimFraction.plain
  generalize Numeral.trimFraction (Numeral.fixed d.coefficient 9) = mantissa at hplain htext
  obtain ⟨m', hvalue⟩ := Magnitude.exists_ofRat_div (lt_trans hhigh (by decide)) 9
  have hshown : formatResult (.finite negative m) =
      String.ofList (signed negative mantissa ++ exponentText exponent) := by
    have hsign : signed negative (mantissa ++ exponentText exponent) =
        signed negative mantissa ++ exponentText exponent := by
      cases negative <;> rfl
    rw [formatResult, (Binary64.shown_finite hpositive negative).2,
      Decimal.generalText_eq hpositive 9, hd, htext, hsign]
  rw [hshown, evaluate_exponentText negative hplain hvalue,
    String.toList_ofList, List.idxOf_append_of_notMem (hplain.letter_not_mem negative)]
  refine ⟨List.mem_append_right _ List.mem_cons_self, ?_⟩
  simp [exponentText]

theorem formatResult_of_isZero {v : Binary64} (hzero : v.isZero = true) :
    formatResult v = String.ofList (signed false (Binary64.finite false .zero).text) := by
  rw [formatResult, Binary64.shown, Binary64.normalizeZero_of_isZero hzero]
  rfl

/-- **A result starts with a digit or a minus sign.** -/
theorem exists_first_of_formatResult {v : Binary64} (hfinite : v.isFinite = true) :
    ∃ c rest, (formatResult v).toList = c :: rest ∧ (c.isDigit = true ∨ c = '-') := by
  -- whatever the notation, the text is that of a numeral, with a sign or not, and what follows it
  have hsigned : ∀ (negative : Bool) {text : List Char} {q : ℚ}, Numeral.Plain text q →
      ∀ behind, ∃ c rest, signed negative (text ++ behind) = c :: rest ∧
        (c.isDigit = true ∨ c = '-') := by
    intro negative text q hplain behind
    obtain ⟨first, rest, rfl, hdigit⟩ := hplain.exists_first
    cases negative with
    | false => exact ⟨first, rest ++ behind, rfl, .inl hdigit⟩
    | true => exact ⟨'-', _, rfl, .inr rfl⟩
  cases hv : v with
  | infinite => rw [hv] at hfinite; cases hfinite
  | nan => rw [hv] at hfinite; cases hfinite
  | finite negative m =>
    rcases m.toRat_nonneg.lt_or_eq with hpositive | hzero
    case inl =>
      rw [formatResult, (Binary64.shown_finite hpositive negative).2, String.toList_ofList,
        Decimal.generalText_eq hpositive 9]
      rcases (Decimal.rounded m.toRat 10).general_cases 9 with ⟨-, -, htext⟩ | htext
      · rw [htext, ← List.append_nil (Decimal.positional _)]
        exact hsigned negative (Decimal.positional_canonical _).plain []
      · rw [htext]
        exact hsigned negative (Numeral.fixed_plain _ 9).canonical_trimFraction.plain _
    case inr =>
      have hisZero : (Binary64.finite negative m).isZero = true := by
        rw [← Magnitude.toRat_zero, Magnitude.toRat_inj] at hzero
        rw [← hzero]
        rfl
      obtain ⟨q, hplain, -⟩ := Binary64.text_plain .zero
      rw [formatResult_of_isZero hisZero, String.toList_ofList, ← List.append_nil (Binary64.text _)]
      exact hsigned false hplain []

/-- **Showing and evaluating again.**  A finite result that is shown without an exponent is
evaluated to a number that is shown in the same way, and to the result itself if that is nearest to
what is shown.  A result that is shown with an exponent is refused at the letter of the exponent. -/
theorem evaluate_formatResult {v : Binary64} (hfinite : v.isFinite = true) :
    ('e' ∉ (formatResult v).toList → ∃ w q, evaluate (formatResult v) = .ok w ∧
      formatResult w = formatResult v ∧ Numeral.readSigned? (formatResult v).toList = some q ∧
      (v.IsNearest q → w = v.normalizeZero)) ∧
    ('e' ∈ (formatResult v).toList → evaluate (formatResult v) =
      .error (.disallowed .identifier ((formatResult v).toList.idxOf 'e'))) := by
  cases hv : v with
  | infinite => rw [hv] at hfinite; cases hfinite
  | nan => rw [hv] at hfinite; cases hfinite
  | finite negative m =>
    rcases m.toRat_nonneg.lt_or_eq with hpositive | hzero
    case inl =>
      rcases (Decimal.rounded m.toRat 10).general_cases 9 with ⟨hsmall, hlarge, htext⟩ | htext
      · obtain ⟨hletter, hevaluates⟩ :=
          evaluate_positional hpositive negative rfl hsmall hlarge htext
        exact ⟨fun _ => hevaluates, fun hmem => absurd hmem hletter⟩
      · obtain ⟨hletter, hrefused⟩ := evaluate_scientific hpositive negative rfl htext
        exact ⟨fun hmem => absurd hletter hmem, fun _ => hrefused⟩
    case inr =>
      have hisZero : (Binary64.finite negative m).isZero = true := by
        rw [← Magnitude.toRat_zero, Magnitude.toRat_inj] at hzero
        rw [← hzero]
        rfl
      obtain ⟨q, hplain, hvalue⟩ := Binary64.text_plain .zero
      have hnormal := Binary64.normalizeZero_of_isZero hisZero
      rw [formatResult_of_isZero hisZero, String.toList_ofList]
      refine ⟨fun _ => ⟨.zero, q, evaluate_signed false hplain hvalue,
        formatResult_of_isZero Binary64.isZero_zero, hplain.readSigned? false,
        fun _ => hnormal.symm⟩, fun hmem => absurd hmem (hplain.letter_not_mem false)⟩

/-- One half is shown without an exponent, and the negative number next to zero with one. -/
theorem evaluate_formatResult_half :
    let least := Binary64.finite true ⟨1, 0, by decide, by decide, .inl rfl⟩
    Binary64.half.isFinite = true ∧ formatResult .half = "0.5" ∧
      (∃ w q, evaluate "0.5" = .ok w ∧ formatResult w = "0.5" ∧
        Numeral.readSigned? "0.5".toList = some q ∧ (Binary64.half.IsNearest q → w = .half)) ∧
      formatResult least = "-4.940656458e-324" ∧
      evaluate "-4.940656458e-324" = .error (.disallowed .identifier 12) := by
  intro least
  have hhalf : formatResult .half = "0.5" := by decide +kernel
  have hleast : formatResult least = "-4.940656458e-324" := by decide +kernel
  have hpositional := (evaluate_formatResult (v := .half) rfl).1
  have hscientific := (evaluate_formatResult (v := least) rfl).2
  rw [hhalf] at hpositional
  rw [hleast] at hscientific
  exact ⟨rfl, hhalf, hpositional (by decide), hleast, hscientific (by decide)⟩

end Calculator
