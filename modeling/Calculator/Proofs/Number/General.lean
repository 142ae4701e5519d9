import Calculator.Number.General
import Calculator.Proofs.Number.Numeral
import Calculator.Proofs.Number.Rounded

/-!
# General notation and the numbers it stands for

A number in general notation is a decimal of ten digits written out, with or without an exponent.
The decimal is rounded once (`Decimal.generalText_eq`), so it is all that the text depends on, and
what has to be seen is what becomes of it when it is read.

* `Decimal.general_of_ofRat`: the number that is read is rounded to the same decimal again, since
  ten digits are far fewer than the format has.  The number may lie below a power of ten that the
  decimal is not below; rounding then carries back.
* `Magnitude.nearest_unique`: no decimal of so few digits lies half-way between two numbers, so the
  number that is read is the only one that is nearest to the decimal.
-/

namespace Calculator

attribute [local instance (2000)] instPowNat

/-! ## The text of a rounded decimal -/

namespace Decimal

/-- **A decimal of so many digits in general notation.** -/
def general (d : Decimal) (digits : Nat) : List Char :=
  let exponent := d.exponent + digits - 1
  if exponent < -4 || (digits : Int) ≤ exponent then
    Numeral.trimFraction (Numeral.fixed d.coefficient (digits - 1)) ++ exponentText exponent
  else d.positional

/-- **General notation rounds once.**  The positional form rounds the number at the place of the
last digit, and that gives the rounded decimal again. -/
theorem generalText_eq {q : ℚ} (hq : 0 < q) (p : Nat) :
    generalText q (p + 1) = (rounded q (p + 1)).general (p + 1) := by
  obtain ⟨-, -, hagain⟩ := rounded_spec hq p
  simp only [generalText, general]
  split
  case isTrue => rfl
  case isFalse hordinary =>
    simp only [Bool.or_eq_true, decide_eq_true_eq, not_or] at hordinary
    generalize hd : rounded q (p + 1) = d at hordinary hagain ⊢
    have hx : d.exponent ≤ 0 := by
      have := hordinary.2
      push_cast at this
      omega
    have hplaces : (((p + 1 : Nat) : Int) - 1 - (d.exponent + ((p + 1 : Nat) : Int) - 1)).toNat
        = (-d.exponent).toNat := by
      congr 1
      ring
    have hpower : q * 10 ^ ((-d.exponent).toNat : Int) = q / 10 ^ d.exponent := by
      rw [Int.toNat_of_nonneg (by omega), zpow_neg, div_eq_mul_inv]
    have hnone : d.exponent.toNat = 0 := by omega
    rw [hplaces, hpower, hagain, positional, hnone, Nat.pow_zero, Nat.mul_one]

section Notations

variable {d : Decimal} {p : Nat}

/-- The first digit of a decimal with `p + 1` digits stands `p` places before the last. -/
theorem exponent_add_succ (x : Int) (p : Nat) : x + ((p + 1 : Nat) : Int) - 1 = x + p := by
  push_cast
  ring

theorem general_eq_positional (hsmall : -4 - (p : Int) ≤ d.exponent) (hlarge : d.exponent ≤ 0) :
    d.general (p + 1) = d.positional := by
  refine if_neg ?_
  simp only [exponent_add_succ, Bool.or_eq_true, decide_eq_true_eq, not_or]
  push_cast
  omega

/-- A very small or very large decimal is written as a mantissa with one digit before the point and
an exponent. -/
theorem general_eq_scientific (h : d.exponent < -4 - (p : Int) ∨ 0 < d.exponent) :
    d.general (p + 1) = Numeral.trimFraction (Numeral.fixed d.coefficient p) ++
      exponentText (d.exponent + p) := by
  simp only [general, exponent_add_succ, Nat.add_sub_cancel]
  refine if_pos ?_
  simp only [Bool.or_eq_true, decide_eq_true_eq]
  push_cast
  omega

end Notations

/-- **The two notations** are all there is. -/
theorem general_cases (d : Decimal) (p : Nat) :
    (-4 - (p : Int) ≤ d.exponent ∧ d.exponent ≤ 0 ∧ d.general (p + 1) = d.positional) ∨
      d.general (p + 1) = Numeral.trimFraction (Numeral.fixed d.coefficient p) ++
        exponentText (d.exponent + p) := by
  by_cases h : -4 - (p : Int) ≤ d.exponent ∧ d.exponent ≤ 0
  case pos => exact .inl ⟨h.1, h.2, general_eq_positional h.1 h.2⟩
  case neg => exact .inr (general_eq_scientific (by omega))

/-! ## Short decimals in the format -/

/-- **Fourteen digits survive the format.**  A number that is read from a decimal with a limited
count of digits is rounded to the same decimal again. -/
theorem rounded_of_ofRat {d : Decimal} {p : Nat} {m : Magnitude} (hlow : 10 ^ p ≤ d.coefficient)
    (hhigh : d.coefficient < 10 ^ (p + 1)) (hcount : 20 * 10 ^ (p + 1) ≤ 2 ^ (53 : Nat))
    (hnormal : 2 ^ (-1022 : Int) ≤ d.toRat) (hm : Magnitude.ofRat d.toRat = some m) :
    rounded m.toRat (p + 1) = d := by
  have herror := Magnitude.abs_toRat_sub_le_div hnormal hm
  have hgrid : (0 : ℚ) < 10 ^ d.exponent := by positivity
  have hscaled : (d.coefficient : ℚ) - m.toRat / 10 ^ d.exponent =
      (d.toRat - m.toRat) / 10 ^ d.exponent := by
    rw [toRat]
    field_simp
  refine rounded_eq_of_abs_lt hlow hhigh ?_
  rw [hscaled, abs_div, abs_of_pos hgrid, abs_sub_comm, div_lt_iff₀ hgrid]
  have hsmall : (d.coefficient : ℚ) / 2 ^ (53 : Nat) < 1 / 20 := by
    rw [div_lt_iff₀ (by positivity)]
    have : (20 * d.coefficient : ℚ) < 2 ^ (53 : Nat) := by
      exact_mod_cast lt_of_lt_of_le (Nat.mul_lt_mul_of_pos_left hhigh (by decide)) hcount
    linarith
  calc |m.toRat - d.toRat| ≤ d.toRat / 2 ^ (53 : Nat) := herror
    _ = d.coefficient / 2 ^ (53 : Nat) * 10 ^ d.exponent := by rw [toRat, mul_div_right_comm]
    _ < 1 / 20 * 10 ^ d.exponent := mul_lt_mul_of_pos_right hsmall hgrid

theorem toRat_eq_div {d : Decimal} (h : d.exponent ≤ 0) :
    d.toRat = d.coefficient / 10 ^ (-d.exponent).toNat := by
  rw [← zpow_natCast, Int.toNat_of_nonneg (by omega), zpow_neg, div_inv_eq_mul, toRat]

/-- **A decimal that is written without an exponent can be read**, and the number that is read is
positive and has the same text again. -/
theorem general_of_ofRat {d : Decimal} (hlow : 10 ^ 9 ≤ d.coefficient)
    (hhigh : d.coefficient < 10 ^ 10) (hsmall : -13 ≤ d.exponent) (hlarge : d.exponent ≤ 0) :
    ∃ m, Magnitude.ofRat d.toRat = some m ∧ 0 < m.toRat ∧
      generalText m.toRat 10 = d.general 10 := by
  have hgrid : (0 : ℚ) < 10 ^ d.exponent := by positivity
  have hnonneg : 0 ≤ d.toRat := d.toRat_nonneg
  have hnormal : 2 ^ (-1022 : Int) ≤ d.toRat := by
    calc (2 : ℚ) ^ (-1022 : Int) ≤ 2 ^ (-14 : Int) :=
          zpow_le_zpow_right₀ (by norm_num) (by norm_num)
      _ ≤ 10 ^ 9 * 10 ^ (-13 : Int) := by norm_num
      _ ≤ d.coefficient * 10 ^ d.exponent :=
        mul_le_mul (by exact_mod_cast hlow) (zpow_le_zpow_right₀ (by norm_num) hsmall)
          (by positivity) (by positivity)
  have hfits : d.toRat ≤ d.coefficient :=
    mul_le_of_le_one_right (by positivity) (zpow_le_one_of_nonpos₀ (by norm_num) hlarge)
  obtain ⟨m, hm⟩ := Magnitude.exists_ofRat_of_le hnonneg (lt_trans hhigh (by decide)) hfits
  have hrounded : rounded m.toRat 10 = d := rounded_of_ofRat hlow hhigh (by norm_num) hnormal hm
  have hpositive : 0 < m.toRat := by
    refine lt_of_le_of_ne m.toRat_nonneg fun hzero => ?_
    rw [← hzero] at hrounded
    have hcoefficient : d.coefficient = 0 := by
      rw [← hrounded]
      simp [rounded, roundNearest]
    omega
  exact ⟨m, hm, hpositive, by rw [generalText_eq hpositive 9, hrounded]⟩

end Decimal

/-- **A whole number of at most 53 bits can be read** with the point at any of its digits. -/
theorem Magnitude.exists_ofRat_div {c : Nat} (hc : c < 2 * leadingBit) (places : Nat) :
    ∃ m, Binary64.ofRat false (c / 10 ^ (places : Int)) = .finite false m := by
  have hnonneg : (0 : ℚ) ≤ c / 10 ^ (places : Int) := by positivity
  have hpower : (1 : ℚ) ≤ 10 ^ (places : Int) := one_le_zpow₀ (by norm_num) (by positivity)
  obtain ⟨m, hm⟩ := exists_ofRat_of_le hnonneg hc (div_le_self (by positivity) hpower)
  exact ⟨m, Binary64.ofRat_of_magnitude hnonneg hm⟩

/-- What is a decimal and a binary fraction at once has fives enough to cancel those of the tens. -/
theorem five_pow_dvd {u c k : Nat} (h : u * 10 ^ k = c * (unitsPerOne * 2)) : 5 ^ k ∣ c := by
  have hten : (10 : Nat) ^ k = 5 ^ k * 2 ^ k := by rw [← Nat.mul_pow]
  have hdvd : 5 ^ k ∣ c * (unitsPerOne * 2) := by
    rw [← h, hten]
    exact Dvd.dvd.mul_left (Nat.dvd_mul_right _ _) u
  have htwos : ∀ n : Nat, Nat.Coprime 5 (2 ^ n * 2) := fun n =>
    (Nat.Coprime.pow_right n (by decide)).mul_right (by decide)
  have hone : Nat.Coprime 5 (unitsPerOne * 2) := by
    rw [unitsPerOne]
    exact htwos 1074
  exact (hone.pow_left k).dvd_of_dvd_mul_right hdvd

/-- **No short decimal lies half-way** between two magnitudes, so the nearest one is the only one
that is as near.  A decimal half-way is a binary fraction, and a binary fraction with so few digits
belongs to the format itself. -/
theorem Magnitude.nearest_unique {c k : Nat} (hc : c < 2 * leadingBit) (hk : k ≤ 1074)
    {m m' : Magnitude}
    (hm : ∀ other : Magnitude, |m.toRat - c / 10 ^ k| ≤ |other.toRat - c / 10 ^ k|)
    (hm' : ∀ other : Magnitude, |m'.toRat - c / 10 ^ k| ≤ |other.toRat - c / 10 ^ k|) : m = m' := by
  by_contra hne
  have hdistinct : m.toRat ≠ m'.toRat := fun h => hne (toRat_inj.1 h)
  have hmiddle : m.toRat + m'.toRat = 2 * (c / 10 ^ k) := by
    have hequal : |m.toRat - c / 10 ^ k| = |m'.toRat - c / 10 ^ k| := le_antisymm (hm m') (hm' m)
    rcases abs_eq_abs.1 hequal with hsame | hopposite
    · exact absurd (sub_left_injective hsame) hdistinct
    · linarith
  have hunits : (m.units + m'.units) * 10 ^ k = c * (unitsPerOne * 2) := by
    have hone : (unitsPerOne : ℚ) ≠ 0 := by exact_mod_cast unitsPerOne_pos.ne'
    rw [toRat_eq, toRat_eq] at hmiddle
    field_simp at hmiddle
    have : ((m.units : ℚ) + m'.units) * 10 ^ k = c * (unitsPerOne * 2) := by linarith
    exact_mod_cast this
  obtain ⟨n, rfl⟩ := five_pow_dvd hunits
  have hbinary : ((5 ^ k * n : Nat) : ℚ) / 10 ^ k = n / 2 ^ k := by
    have hten : (10 : ℚ) ^ k = 5 ^ k * 2 ^ k := by rw [← mul_pow]; norm_num
    rw [hten]
    push_cast
    field_simp
  have hn : n < 2 * leadingBit := by
    have : n ≤ 5 ^ k * n := Nat.le_mul_of_pos_left n (by positivity)
    omega
  obtain ⟨exact, hexact⟩ := exists_toRat_eq hn hk
  rw [hbinary] at hm hm'
  have hzero : ∀ {near : Magnitude},
      (∀ other : Magnitude, |near.toRat - n / 2 ^ k| ≤ |other.toRat - n / 2 ^ k|) →
      near.toRat = n / 2 ^ k := by
    intro near hnear
    have hle := hnear exact
    rw [hexact, sub_self, abs_zero] at hle
    exact sub_eq_zero.1 (abs_nonpos_iff.1 hle)
  exact hdistinct ((hzero hm).trans (hzero hm').symm)

end Calculator
