import Calculator.Proofs.Number.Canonical
import Calculator.Proofs.Number.General

/-!
# What general notation says

A number in general notation is its rounding to a count of significant digits, written in one of two
forms; the exponent of the rounded number decides which.  `SignificantRounding`, `HasExponent` and
`GeneralForm` say this without computing anything, and each of them has exactly one solution.  The
text that is computed is this solution (`Binary64.general_canonical`).

The positional form is computed by rounding the number once more, to the decimals that the exponent
of the first rounding leaves.  Nines that are rounded up move the first digit, so that the second
rounding may be coarser than the first; it still gives the same decimal.
-/

namespace Calculator

attribute [local instance (2000)] instPowNat

variable {q r : ℚ} {e X : Int} {p : Nat}

/-! ## The rounded number -/

/-- **The decimal exponent of a number**: where its first significant digit stands. -/
def HasExponent (q : ℚ) (e : Int) : Prop := 10 ^ e ≤ q ∧ q < 10 ^ (e + 1)

theorem HasExponent.eq {e' : Int} (h : HasExponent q e) (h' : HasExponent q e') : e = e' :=
  zpow_exponent_unique h.1 h.2 h'.1 h'.2

/-- **Rounding to significant digits**: the nearest number on the grid on which `q` has so many
digits, and the one with an even last digit half-way between two. -/
inductive SignificantRounding (digits : Nat) (q : ℚ) : ℚ → Prop where
  | mk {e : Int} {n : Nat} : HasExponent q e → NearestEven (q / 10 ^ (e + 1 - digits)) n →
    SignificantRounding digits q (n * 10 ^ (e + 1 - digits))

/-- **There is one rounding**, and it is the rounded decimal. -/
theorem significantRounding_iff (hq : 0 < q) (p : Nat) :
    SignificantRounding (p + 1) q r ↔ r = (Decimal.rounded q (p + 1)).toRat := by
  have hfirst : HasExponent q (decimalExponent q) := decimalExponent_bounds hq
  have hgrid : decimalExponent q + 1 - ((p + 1 : Nat) : Int) = decimalExponent q - p := by
    push_cast
    ring
  rw [Decimal.toRat_rounded hq, ← hgrid]
  constructor
  · rintro ⟨hexponent, hnearest⟩
    obtain rfl := hexponent.eq hfirst
    rw [(nearestEven_iff (by positivity)).1 hnearest]
  · rintro rfl
    exact .mk hfirst ((nearestEven_iff (by positivity)).2 rfl)

theorem Decimal.hasExponent {d : Decimal} (hlow : 10 ^ p ≤ d.coefficient)
    (hhigh : d.coefficient < 10 ^ (p + 1)) : HasExponent d.toRat (d.exponent + p) := by
  have hgrid : (0 : ℚ) < 10 ^ d.exponent := by positivity
  have hlow' : (10 : ℚ) ^ p ≤ d.coefficient := by exact_mod_cast hlow
  have hhigh' : (d.coefficient : ℚ) < 10 ^ (p + 1) := by exact_mod_cast hhigh
  have hpower : ∀ k : Nat, (10 : ℚ) ^ (d.exponent + k) = 10 ^ k * 10 ^ d.exponent := by
    intro k
    rw [zpow_add₀ (by norm_num), zpow_natCast, mul_comm]
  constructor
  · rw [hpower, toRat]
    exact mul_le_mul_of_nonneg_right hlow' hgrid.le
  · rw [add_assoc, ← Nat.cast_succ, hpower, toRat]
    exact mul_lt_mul_of_pos_right hhigh' hgrid

/-! ## The two forms -/

/-- **An exponent as it is written** behind a mantissa: its sign, whatever it is, and at least two
digits. -/
inductive IsExponentText (X : Int) : List Char → Prop where
  | mk {digits : List Char} : Numeral.Padded 2 digits → Numeral.natural digits = X.natAbs →
    IsExponentText X ('e' :: (if X < 0 then '-' else '+') :: digits)

theorem isExponentText_iff {text : List Char} : IsExponentText X text ↔ text = exponentText X := by
  have hpadded : Numeral.Padded 2 ((Nat.toDigits 10 X.natAbs).leftpad 2 '0') :=
    Numeral.padded_leftpad _ (by decide)
  have hnatural := Numeral.natural_leftpad X.natAbs 2
  constructor
  · rintro ⟨hdigits, hvalue⟩
    rw [exponentText, hdigits.eq hpadded (hvalue.trans hnatural.symm)]
  · rintro rfl
    exact .mk hpadded hnatural

/-- **General notation of a rounded number** `r` with the exponent `X`.  It is positional for
exponents from `-4` up to one less than the count of digits.  Otherwise it has a mantissa, with one
digit before the point, and an exponent. -/
inductive GeneralForm (digits : Nat) (r : ℚ) (X : Int) : List Char → Prop where
  | positional {text : List Char} : -4 ≤ X → X < digits → Numeral.Canonical text r →
    GeneralForm digits r X text
  | scientific {first : Char} {behind exponent : List Char} : X < -4 ∨ (digits : Int) ≤ X →
    Numeral.Canonical (first :: behind) (r / 10 ^ X) → (∀ c ∈ behind.head?, c = '.') →
    IsExponentText X exponent → GeneralForm digits r X (first :: behind ++ exponent)

/-- **There is one such text.** -/
theorem GeneralForm.eq {text text' : List Char} (h : GeneralForm p r X text)
    (h' : GeneralForm p r X text') : text = text' := by
  cases h with
  | positional hsmall hlarge hcanonical =>
    cases h' with
    | positional _ _ hcanonical' => exact hcanonical.eq hcanonical'
    | scientific hextreme => omega
  | scientific hextreme hcanonical _ hexponent =>
    cases h' with
    | positional hsmall hlarge => omega
    | scientific _ hcanonical' _ hexponent' =>
      rw [hcanonical.eq hcanonical', isExponentText_iff.1 hexponent,
        isExponentText_iff.1 hexponent']

/-- **A decimal of so many digits is written in general notation.** -/
theorem Decimal.generalForm {d : Decimal} (hhigh : d.coefficient < 10 ^ (p + 1)) :
    GeneralForm (p + 1) d.toRat (d.exponent + p) (d.general (p + 1)) := by
  by_cases hordinary : -4 - (p : Int) ≤ d.exponent ∧ d.exponent ≤ 0
  case pos =>
    rw [general_eq_positional hordinary.1 hordinary.2]
    exact .positional (by omega) (by push_cast; omega) d.positional_canonical
  case neg =>
    rw [general_eq_scientific (by omega)]
    have hmantissa : d.toRat / 10 ^ (d.exponent + p) = d.coefficient / 10 ^ (p : Int) := by
      rw [toRat, zpow_add₀ (by norm_num)]
      field_simp
    have hcanonical := (Numeral.fixed_plain d.coefficient p).canonical_trimFraction
    have hten : (d.coefficient : ℚ) / 10 ^ (p : Int) < 10 := by
      rw [div_lt_iff₀ (by positivity), zpow_natCast, ← pow_succ']
      exact_mod_cast hhigh
    obtain ⟨first, behind, htext, hpoint⟩ := hcanonical.one_digit hten
    rw [htext] at hcanonical ⊢
    rw [← hmantissa] at hcanonical
    exact .scientific (by push_cast; omega) hcanonical hpoint (isExponentText_iff.2 rfl)

/-! ## The text of a number -/

theorem Binary64.exists_magnitude {v : Binary64} (hfinite : v.isFinite = true)
    (hnonzero : v.isZero = false) :
    ∃ m : Magnitude, 0 < m.toRat ∧ |v.toRat| = m.toRat ∧
      ∀ digits, 1 ≤ digits →
        v.general digits = signed (decide (v.toRat < 0)) (generalText m.toRat digits) := by
  cases v with
  | infinite | nan => cases hfinite
  | finite negative m =>
    have hunits : m.units ≠ 0 := fun hzero => by
      rw [Magnitude.units_eq_zero.1 hzero] at hnonzero
      cases hnonzero
    have hpositive : 0 < m.toRat := Magnitude.toRat_pos.2 hunits
    refine ⟨m, hpositive, ?_, ?_⟩
    · cases negative <;> simp [toRat, abs_of_pos hpositive]
    · intro digits hdigits
      have hsign : decide ((finite negative m).toRat < 0) = negative := by
        cases negative <;> simp [toRat, hpositive, hpositive.le]
      rw [general, if_neg hunits, Nat.max_eq_left hdigits, hsign]

/-- **General notation is the canonical text of the rounded number.**  The number `r`, its exponent
`X` and the text are each the only one there is; the number in general notation is the text with the
sign of the number.  Where the text is positional, rounding the number to the decimals that the
exponent leaves gives `r` again. -/
theorem Binary64.general_canonical {v : Binary64} (hfinite : v.isFinite = true)
    (hnonzero : v.isZero = false) (hp : 1 ≤ p) :
    ∃ (r : ℚ) (X : Int) (text : List Char),
      (∀ r', SignificantRounding p |v.toRat| r' ↔ r' = r) ∧
      (∀ X', HasExponent r X' ↔ X' = X) ∧
      (∀ text', GeneralForm p r X text' ↔ text' = text) ∧
      v.general p = signed (decide (v.toRat < 0)) text ∧
      (-4 ≤ X → X < p →
        (roundNearest (|v.toRat| * 10 ^ (p - 1 - X)) : ℚ) / 10 ^ (p - 1 - X) = r) := by
  obtain ⟨m, hpositive, hsize, htext⟩ := exists_magnitude hfinite hnonzero
  obtain ⟨k, rfl⟩ : ∃ k, p = k + 1 := ⟨p - 1, by omega⟩
  obtain ⟨hlow, hhigh, hagain⟩ := Decimal.rounded_spec hpositive k
  have hrounding : ∀ r', SignificantRounding (k + 1) m.toRat r' ↔
      r' = (Decimal.rounded m.toRat (k + 1)).toRat := fun _ => significantRounding_iff hpositive k
  rw [htext (k + 1) hp, Decimal.generalText_eq hpositive, hsize]
  generalize Decimal.rounded m.toRat (k + 1) = d at hlow hhigh hagain hrounding ⊢
  have hexponent := Decimal.hasExponent hlow hhigh
  have hform := Decimal.generalForm hhigh
  refine ⟨d.toRat, d.exponent + k, d.general (k + 1), hrounding, ?_, ?_, rfl, fun _ _ => ?_⟩
  · exact fun X' => ⟨fun h => h.eq hexponent, fun h => h ▸ hexponent⟩
  · exact fun text' => ⟨fun h => h.eq hform, fun h => h ▸ hform⟩
  · have hplaces : ((k + 1 : Nat) : Int) - 1 - (d.exponent + k) = -d.exponent := by
      push_cast
      ring
    rw [hplaces, zpow_neg, ← div_eq_mul_inv, hagain, div_inv_eq_mul, Decimal.toRat]

/-- To one digit, nine and a half lies half-way between nine and ten and is rounded to ten, which
has two digits before the point. -/
theorem Binary64.general_canonical_carry :
    let v := ofRat false (-19 / 2)
    v.isFinite = true ∧ v.isZero = false ∧ |v.toRat| = 19 / 2 ∧
      SignificantRounding 1 (19 / 2) 10 ∧ v.general 1 = "-1e+01".toList ∧
      ∀ text, GeneralForm 1 10 1 text ↔ text = "1e+01".toList := by
  intro v
  have hfinite : v.isFinite = true := by decide +kernel
  have hnonzero : v.isZero = false := by decide +kernel
  have hvalue : v.toRat = -19 / 2 := by decide +kernel
  have htext : v.general 1 = '-' :: "1e+01".toList := by decide +kernel
  have hsize : |v.toRat| = 19 / 2 := by
    rw [hvalue]
    norm_num [abs_div]
  have hten : SignificantRounding 1 (19 / 2) 10 := by
    have hexponent : HasExponent (19 / 2) 0 := by
      constructor <;> norm_num
    have hnearest : NearestEven (19 / 2 / 10 ^ ((0 : Int) + 1 - (1 : Nat))) 10 := by
      constructor
      · norm_num [abs_div]
      · exact fun _ => by decide
    simpa using SignificantRounding.mk hexponent hnearest
  obtain ⟨r, X, text, hrounding, hexponent, hform, hgeneral, -⟩ :=
    general_canonical hfinite hnonzero (le_refl 1)
  rw [hsize] at hrounding
  obtain rfl : 10 = r := (hrounding 10).1 hten
  obtain rfl : 1 = X := (hexponent 1).1 (by constructor <;> norm_num)
  have hnegative : decide (v.toRat < 0) = true := by decide +kernel
  rw [htext, hnegative] at hgeneral
  obtain rfl : "1e+01".toList = text := List.tail_eq_of_cons_eq hgeneral
  exact ⟨hfinite, hnonzero, hsize, hten, htext, hform⟩

end Calculator
