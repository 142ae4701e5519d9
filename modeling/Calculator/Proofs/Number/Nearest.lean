import Calculator.Number.Decimal
import Calculator.Proofs.Number.ReadBack
import Mathlib.Algebra.Order.Field.Power
import Mathlib.Data.Nat.Log
import Mathlib.Data.Rat.Floor
import Mathlib.Tactic.FieldSimp
import Mathlib.Tactic.Linarith
import Mathlib.Tactic.Positivity

/-!
# Rounding is rounding to the nearest

`roundQuotient` and `Magnitude.nearest` are computed by division with remainder; this module says
what they compute in terms of distances.

* `nearestEven_iff`: a rounded rational is the nearest whole number, and the even one of two.  So it
  is within a half, and whatever whole number is nearer than a half is the rounded one
  (`roundNearest_eq_of_abs_lt`).
* `Magnitude.abs_toRat_sub_le`: nothing in the format is nearer than what a rational is read as.  On
  the grid of the scale this is the fact about whole numbers; what is not on that grid lies on the
  far side of the leading bit.
  Of two that are as near it is the even one (`Magnitude.even_mantissa_of_toRat_equal`).
* `Magnitude.abs_toRat_sub_le_div`: the error is at most one part in `2 ^ 53`.
* `Magnitude.exists_toRat_eq` and `Magnitude.exists_ofRat`: which values belong to the format, and
  which can be read at all.
-/

namespace Calculator

attribute [local instance (2000)] instPowNat

/-! ## Whole numbers -/

/-- **The whole number nearest to a rational**, and the even one half-way between two. -/
structure NearestEven (q : ℚ) (n : Nat) : Prop where
  within_half : |(n : ℚ) - q| ≤ 1 / 2
  even_of_tie : |(n : ℚ) - q| = 1 / 2 → Even n

theorem NearestEven.of_abs_lt {q : ℚ} {n : Nat} (h : |(n : ℚ) - q| < 1 / 2) : NearestEven q n :=
  ⟨h.le, fun htie => absurd htie h.ne⟩

theorem one_le_abs_sub {n k : Nat} (hne : n ≠ k) : (1 : ℚ) ≤ |(n : ℚ) - k| := by
  exact_mod_cast Int.one_le_abs (show (n : Int) - k ≠ 0 by omega)

/-- **There is only one nearest whole number**, since of two neighbours one is odd. -/
theorem NearestEven.eq {q : ℚ} {n k : Nat} (hn : NearestEven q n) (hk : NearestEven q k) :
    n = k := by
  by_contra hne
  have hstep := one_le_abs_sub hne
  have htriangle := abs_sub_le (n : ℚ) q k
  have hleft := hn.within_half
  have hright := hk.within_half
  rw [abs_sub_comm q] at htriangle
  -- both are a half away, and one apart
  obtain ⟨i, hi⟩ := hn.even_of_tie (by linarith)
  obtain ⟨j, hj⟩ := hk.even_of_tie (by linarith)
  have hapart : |(n : ℚ) - k| ≤ 1 := by linarith
  have hapart' : |(n : Int) - k| ≤ 1 := by exact_mod_cast hapart
  rw [abs_le] at hapart'
  omega

theorem NearestEven.even_of_equal {q : ℚ} {n k : Nat} (hn : NearestEven q n) (hne : n ≠ k)
    (hequal : |(n : ℚ) - q| = |(k : ℚ) - q|) : Even n := by
  have hstep := one_le_abs_sub hne
  have htriangle := abs_sub_le (n : ℚ) q k
  rw [abs_sub_comm q, ← hequal] at htriangle
  exact hn.even_of_tie (le_antisymm hn.within_half (by linarith))

/-- **The rounded quotient is nearest to the quotient.** -/
theorem nearestEven_roundQuotient (num : Nat) {den : Nat} (hden : 0 < den) :
    NearestEven (num / den) (roundQuotient num den) := by
  have hpos : (0 : ℚ) < den := by exact_mod_cast hden
  have hsplit : (num : ℚ) = den * (num / den : Nat) + (num % den : Nat) := by
    exact_mod_cast (Nat.div_add_mod num den).symm
  have hquotient : (num : ℚ) / den = (num / den : Nat) + ((num % den : Nat) : ℚ) / den := by
    field_simp
    exact hsplit
  have hrest : (0 : ℚ) ≤ ((num % den : Nat) : ℚ) / den := by positivity
  rw [hquotient]
  simp only [roundQuotient]
  split
  case isTrue hlow =>
    have hhalf : ((num % den : Nat) : ℚ) / den < 1 / 2 := by
      rw [div_lt_iff₀ hpos]
      have : (2 * (num % den : Nat) : ℚ) < den := by exact_mod_cast hlow
      linarith
    refine .of_abs_lt (abs_lt.2 ?_)
    constructor <;> linarith
  case isFalse hlow =>
    split
    case isTrue hhigh =>
      have hhalf : 1 / 2 < ((num % den : Nat) : ℚ) / den := by
        rw [lt_div_iff₀ hpos]
        have : (den : ℚ) < 2 * (num % den : Nat) := by exact_mod_cast hhigh
        linarith
      have hone : ((num % den : Nat) : ℚ) / den < 1 := by
        rw [div_lt_one hpos]
        exact_mod_cast Nat.mod_lt num hden
      refine .of_abs_lt (abs_lt.2 ?_)
      push_cast
      constructor <;> linarith
    case isFalse hhigh =>
      have hhalf : ((num % den : Nat) : ℚ) / den = 1 / 2 := by
        rw [div_eq_iff hpos.ne']
        have : (2 * (num % den : Nat) : ℚ) = den := by
          exact_mod_cast (by omega : 2 * (num % den) = den)
        linarith
      have hparity : (0 : ℚ) ≤ (num / den % 2 : Nat) ∧ ((num / den % 2 : Nat) : ℚ) ≤ 1 := by
        constructor
        · positivity
        · exact_mod_cast Nat.lt_succ_iff.1 (Nat.mod_lt (num / den) (by decide))
      refine ⟨abs_le.2 ?_, fun _ => Nat.even_iff.2 (by omega)⟩
      rw [Nat.cast_add, hhalf]
      constructor <;> linarith

/-- **The rounded quotient is within a half of the quotient.** -/
theorem abs_roundQuotient_sub_le (num : Nat) {den : Nat} (hden : 0 < den) :
    |(roundQuotient num den : ℚ) - num / den| ≤ 1 / 2 :=
  (nearestEven_roundQuotient num hden).within_half

/-- A whole number within a half is nearest among the whole numbers. -/
theorem abs_sub_le_of_le_half {n : Nat} {q : ℚ} (hn : |(n : ℚ) - q| ≤ 1 / 2) (k : Nat) :
    |(n : ℚ) - q| ≤ |(k : ℚ) - q| := by
  rcases eq_or_ne n k with rfl | hne
  · exact le_rfl
  · have hstep := one_le_abs_sub hne
    have htriangle := abs_sub_le (n : ℚ) q k
    rw [abs_sub_comm q] at htriangle
    linarith

theorem natAbs_num_div_den {q : ℚ} (hq : 0 ≤ q) : ((q.num.natAbs : Nat) : ℚ) / q.den = q := by
  rw [Nat.cast_natAbs, abs_of_nonneg (Rat.num_nonneg.2 hq), Rat.num_div_den]

/-- **Rounding a rational gives the nearest whole number**, and no other number is nearest. -/
theorem nearestEven_iff {q : ℚ} (hq : 0 ≤ q) {n : Nat} : NearestEven q n ↔ n = roundNearest q := by
  have hround : NearestEven q (roundNearest q) := by
    have hquotient := nearestEven_roundQuotient q.num.natAbs q.den_pos
    rwa [natAbs_num_div_den hq] at hquotient
  exact ⟨fun h => h.eq hround, fun h => h ▸ hround⟩

/-- **Rounding a rational is within a half of it.** -/
theorem abs_roundNearest_sub_le {q : ℚ} (hq : 0 ≤ q) : |(roundNearest q : ℚ) - q| ≤ 1 / 2 :=
  ((nearestEven_iff hq).2 rfl).within_half

theorem roundNearest_eq_of_abs_lt {n : Nat} {q : ℚ} (hq : 0 ≤ q) (h : |(n : ℚ) - q| < 1 / 2) :
    roundNearest q = n :=
  ((nearestEven_iff hq).1 (.of_abs_lt h)).symm

/-! ## The format -/

namespace Magnitude

variable {num den : Nat} {hden : 0 < den} {m : Magnitude} {q : ℚ}

theorem toRat_eq (m : Magnitude) : m.toRat = m.units / unitsPerOne := by
  rw [toRat, Rat.mkRat_eq_div]
  rfl

theorem toRat_inj {m m' : Magnitude} : m.toRat = m'.toRat ↔ m = m' := by
  refine ⟨fun h => ?_, fun h => h ▸ rfl⟩
  have hread := m.ofRat_toRat
  rw [h, m'.ofRat_toRat] at hread
  exact (Option.some.inj hread).symm

/-- **What rounding gives**: the rounded quotient at its scale, or, when it is carried, the leading
bit at the next scale. -/
theorem nearest_cases (h : nearest num den hden = some m) :
    m.mantissa = roundQuotient num (den * 2 ^ scaleOf num den) ∧ m.scale = scaleOf num den ∨
      2 * leadingBit = roundQuotient num (den * 2 ^ scaleOf num den) ∧
        m.mantissa = leadingBit ∧ m.scale = scaleOf num den + 1 := by
  have hle : roundQuotient num (den * 2 ^ scaleOf num den) ≤ 2 * leadingBit :=
    roundQuotient_le (Nat.mul_pos hden (Nat.two_pow_pos _)) (le_of_scaleOf num den hden)
  simp only [nearest] at h
  split at h
  case isTrue hmantissa =>
    split at h
    case isTrue =>
      cases h
      exact .inl ⟨rfl, rfl⟩
    case isFalse => cases h
  case isFalse hmantissa =>
    split at h
    case isTrue =>
      cases h
      exact .inr ⟨by omega, rfl, rfl⟩
    case isFalse => cases h

/-- A rounded magnitude has as many units as the rounded quotient, times the step of the grid at its
scale.  A carry into the next scale changes the mantissa and not the value. -/
theorem units_of_nearest (h : nearest num den hden = some m) :
    m.units = roundQuotient num (den * 2 ^ scaleOf num den) * 2 ^ scaleOf num den := by
  obtain ⟨hmantissa, hscale⟩ | ⟨hcarry, hmantissa, hscale⟩ := nearest_cases h
  · rw [units, hmantissa, hscale]
  · rw [units, hmantissa, hscale, ← hcarry, Nat.pow_succ]
    ring

/-- Distances on a grid are distances of whole numbers, times the step of the grid. -/
theorem abs_grid_sub (k scale num : Nat) (hden : 0 < den) :
    |((k * 2 ^ scale : Nat) : ℚ) - num / den| =
      2 ^ scale * |(k : ℚ) - num / (den * 2 ^ scale : Nat)| := by
  have hstep : (0 : ℚ) < 2 ^ scale := by positivity
  have hpos : (0 : ℚ) < den := by exact_mod_cast hden
  have hscaled : ((k * 2 ^ scale : Nat) : ℚ) - num / den =
      2 ^ scale * ((k : ℚ) - num / (den * 2 ^ scale : Nat)) := by
    push_cast
    field_simp
  rw [hscaled, abs_mul, abs_of_pos hstep]

/-- **The error of rounding to the format**: at most half a step of the grid. -/
theorem abs_units_sub_le_half (h : nearest num den hden = some m) :
    |(m.units : ℚ) - num / den| ≤ 2 ^ scaleOf num den / 2 := by
  have hhalf := abs_roundQuotient_sub_le num (Nat.mul_pos hden (Nat.two_pow_pos (scaleOf num den)))
  have hstep : (0 : ℚ) < 2 ^ scaleOf num den := by positivity
  rw [units_of_nearest h, abs_grid_sub _ _ _ hden]
  linarith [mul_le_mul_of_nonneg_left hhalf hstep.le]

/-- Nothing on the grid of the scale is nearer. -/
theorem abs_units_sub_le_grid (h : nearest num den hden = some m) (k : Nat) :
    |(m.units : ℚ) - num / den| ≤ |((k * 2 ^ scaleOf num den : Nat) : ℚ) - num / den| := by
  have hhalf := abs_roundQuotient_sub_le num (Nat.mul_pos hden (Nat.two_pow_pos (scaleOf num den)))
  rw [units_of_nearest h, abs_grid_sub _ _ _ hden, abs_grid_sub _ _ _ hden]
  exact mul_le_mul_of_nonneg_left (abs_sub_le_of_le_half hhalf k) (by positivity)

/-- **A magnitude and a grid**: it lies on the grid, or it is finer and then lies below the leading
bit of the grid. -/
theorem on_grid_or_below (m : Magnitude) (scale : Nat) :
    (∃ k, m.units = k * 2 ^ scale) ∨
      m.scale < scale ∧ m.units < leadingBit * 2 ^ scale := by
  rcases Nat.lt_or_ge m.scale scale with hfine | hcoarse
  case inr =>
    refine .inl ⟨m.mantissa * 2 ^ (m.scale - scale), ?_⟩
    rw [Nat.mul_assoc, ← Nat.pow_add, Nat.sub_add_cancel hcoarse, units]
  case inl =>
    refine .inr ⟨hfine, ?_⟩
    calc m.units < 2 * leadingBit * 2 ^ m.scale :=
          Nat.mul_lt_mul_of_pos_right m.mantissa_lt (Nat.two_pow_pos _)
      _ = leadingBit * 2 ^ (m.scale + 1) := by rw [Nat.pow_succ]; ring
      _ ≤ leadingBit * 2 ^ scale :=
          Nat.mul_le_mul_left _ (Nat.pow_le_pow_right (by decide) hfine)

/-- What lies below the leading bit of the scale is farther away than the leading bit, since the
quotient is above it. -/
theorem abs_leadingBit_sub_lt {below : Nat} (hden : 0 < den) (hscale : scaleOf num den ≠ 0)
    (hbelow : below < leadingBit * 2 ^ scaleOf num den) :
    |((leadingBit * 2 ^ scaleOf num den : Nat) : ℚ) - num / den| < |(below : ℚ) - num / den| := by
  have hpos : (0 : ℚ) < den := by exact_mod_cast hden
  have habove : ((leadingBit * 2 ^ scaleOf num den : Nat) : ℚ) ≤ num / den := by
    rw [le_div_iff₀ hpos]
    have hge := ge_of_scaleOf num den hden hscale
    rw [Nat.mul_comm den, ← Nat.mul_assoc] at hge
    exact_mod_cast hge
  have hbelow' : (below : ℚ) < (leadingBit * 2 ^ scaleOf num den : Nat) := by exact_mod_cast hbelow
  rw [abs_of_nonpos (by linarith), abs_of_nonpos (by linarith)]
  linarith

/-- **Nothing in the format is nearer.**  What is not on the grid of the scale lies below the
leading bit of the scale, and that is on the grid. -/
theorem abs_units_sub_le (h : nearest num den hden = some m) (m' : Magnitude) :
    |(m.units : ℚ) - num / den| ≤ |(m'.units : ℚ) - num / den| := by
  obtain ⟨k, hgrid⟩ | ⟨hfine, hbelow⟩ := m'.on_grid_or_below (scaleOf num den)
  · rw [hgrid]
    exact abs_units_sub_le_grid h k
  · exact (abs_units_sub_le_grid h leadingBit).trans
      (abs_leadingBit_sub_lt hden (by omega) hbelow).le

/-- **Of two magnitudes that are as near the even one is chosen.** -/
theorem even_mantissa_of_equal (h : nearest num den hden = some m) {m' : Magnitude} (hne : m ≠ m')
    (hequal : |(m.units : ℚ) - num / den| = |(m'.units : ℚ) - num / den|) : Even m.mantissa := by
  obtain ⟨hmantissa, -⟩ | ⟨-, hmantissa, -⟩ := nearest_cases h
  case inr =>
    rw [hmantissa]
    decide
  case inl =>
    obtain ⟨k, hgrid⟩ | ⟨hfine, hbelow⟩ := m'.on_grid_or_below (scaleOf num den)
    case inr =>
      -- the leading bit would be nearer still
      have hfar := abs_leadingBit_sub_lt hden (by omega) hbelow
      rw [← hequal] at hfar
      exact absurd (abs_units_sub_le_grid h leadingBit) hfar.not_ge
    case inl =>
      have hstep : (0 : ℚ) < 2 ^ scaleOf num den := by positivity
      have hapart : roundQuotient num (den * 2 ^ scaleOf num den) ≠ k := fun hsame =>
        hne (toRat_inj.1 (by rw [toRat_eq, toRat_eq, hgrid, units_of_nearest h, hsame]))
      rw [units_of_nearest h, hgrid, abs_grid_sub _ _ _ hden, abs_grid_sub _ _ _ hden] at hequal
      have hnearest := nearestEven_roundQuotient num
        (Nat.mul_pos hden (Nat.two_pow_pos (scaleOf num den)))
      rw [hmantissa]
      exact hnearest.even_of_equal hapart (mul_left_cancel₀ hstep.ne' hequal)

/-- **Whatever is not above the largest magnitude can be rounded.** -/
theorem exists_nearest (hden : 0 < den) (h : num ≤ m.units * den) :
    ∃ m', nearest num den hden = some m' := by
  have hscale : scaleOf num den ≤ m.scale := by
    have hunits := scaleOf_units m Nat.one_pos
    rw [Nat.mul_one, scaleOf, Nat.div_one] at hunits
    have hle : num / den ≤ m.units := Nat.div_le_of_le_mul (by rwa [Nat.mul_comm])
    have hlog : (num / den).log2 ≤ m.units.log2 := by
      rw [Nat.log2_eq_log_two, Nat.log2_eq_log_two]
      exact Nat.log_mono_right hle
    rw [scaleOf]
    omega
  have hlimit := m.scale_le
  simp only [nearest]
  split
  case isTrue hmantissa => simp [Nat.le_trans hscale hlimit]
  case isFalse hmantissa =>
    split
    case isTrue => simp
    case isFalse hlarge =>
      refine absurd ?_ hmantissa
      have hlast : scaleOf num den = m.scale := by omega
      refine Nat.lt_of_le_of_lt (roundQuotient_le (Nat.mul_pos hden (Nat.two_pow_pos _)) ?_)
        m.mantissa_lt
      rwa [units, Nat.mul_assoc, Nat.mul_comm (2 ^ m.scale), ← hlast] at h

/-! ### Rationals -/

theorem units_div_den (hq : 0 ≤ q) :
    ((q.num.natAbs * unitsPerOne : Nat) : ℚ) / q.den = q * unitsPerOne := by
  rw [Nat.cast_mul, mul_div_right_comm, natAbs_num_div_den hq]

theorem abs_toRat_sub (m : Magnitude) (hq : 0 ≤ q) :
    |m.toRat - q| =
      |(m.units : ℚ) - (q.num.natAbs * unitsPerOne : Nat) / q.den| / unitsPerOne := by
  have hone : (0 : ℚ) < unitsPerOne := by exact_mod_cast unitsPerOne_pos
  have hdifference : m.toRat - q = ((m.units : ℚ) - q * unitsPerOne) / unitsPerOne := by
    rw [toRat_eq, sub_div, mul_div_cancel_right₀ _ hone.ne']
  rw [units_div_den hq, hdifference, abs_div, abs_of_pos hone]

/-- **Reading a rational as a magnitude gives the nearest one.** -/
theorem abs_toRat_sub_le (hq : 0 ≤ q) (h : ofRat q = some m) (m' : Magnitude) :
    |m.toRat - q| ≤ |m'.toRat - q| := by
  rw [abs_toRat_sub m hq, abs_toRat_sub m' hq]
  exact div_le_div_of_nonneg_right (abs_units_sub_le h m') (by positivity)

/-- **Of two magnitudes that are as near to a rational the even one is read.** -/
theorem even_mantissa_of_toRat_equal (hq : 0 ≤ q) (h : ofRat q = some m) {m' : Magnitude}
    (hne : m ≠ m') (hequal : |m.toRat - q| = |m'.toRat - q|) : Even m.mantissa := by
  have hone : (unitsPerOne : ℚ) ≠ 0 := by exact_mod_cast unitsPerOne_pos.ne'
  rw [abs_toRat_sub m hq, abs_toRat_sub m' hq] at hequal
  exact even_mantissa_of_equal h hne ((div_left_inj' hone).1 hequal)

theorem leadingBit_eq_mul : ((leadingBit : Nat) : ℚ) = 2 ^ (-1022 : Int) * unitsPerOne := by
  have hcast : ∀ n : Nat, ((2 ^ n : Nat) : ℚ) = 2 ^ (n : Int) := fun n => by
    rw [zpow_natCast]
    push_cast
    rfl
  rw [unitsPerOne, hcast 1074, ← zpow_add₀ (by norm_num)]
  norm_num

/-- **The relative error**: one part in `2 ^ 53`, for what is not below the normal magnitudes. -/
theorem abs_toRat_sub_le_div (hq : 2 ^ (-1022 : Int) ≤ q) (h : ofRat q = some m) :
    |m.toRat - q| ≤ q / 2 ^ (53 : Nat) := by
  have hone : (0 : ℚ) < unitsPerOne := by exact_mod_cast unitsPerOne_pos
  have hpositive : (0 : ℚ) ≤ q := le_trans (by positivity) hq
  have hden : (0 : ℚ) < q.den := by exact_mod_cast q.den_pos
  set num := q.num.natAbs * unitsPerOne with hnum
  have hvalue : (num : ℚ) / q.den = q * unitsPerOne := units_div_den hpositive
  -- the quotient is not below the leading bit of its scale, also at the lowest scale
  have hleading : ((leadingBit : Nat) : ℚ) * 2 ^ scaleOf num q.den ≤ num / q.den := by
    by_cases hscale : scaleOf num q.den = 0
    case pos =>
      rw [hscale, hvalue, pow_zero, mul_one]
      calc ((leadingBit : Nat) : ℚ) = 2 ^ (-1022 : Int) * unitsPerOne := leadingBit_eq_mul
        _ ≤ q * unitsPerOne := mul_le_mul_of_nonneg_right hq hone.le
    case neg =>
      rw [le_div_iff₀ hden]
      have hge := ge_of_scaleOf num q.den q.den_pos hscale
      rw [Nat.mul_comm q.den, ← Nat.mul_assoc] at hge
      exact_mod_cast hge
  rw [abs_toRat_sub m hpositive, div_le_iff₀ hone]
  calc |(m.units : ℚ) - num / q.den| ≤ 2 ^ scaleOf num q.den / 2 := abs_units_sub_le_half h
    _ = ((leadingBit : Nat) : ℚ) * 2 ^ scaleOf num q.den / 2 ^ (53 : Nat) := by
      norm_num
      ring
    _ ≤ num / q.den / 2 ^ (53 : Nat) := div_le_div_of_nonneg_right hleading (by positivity)
    _ = q / 2 ^ (53 : Nat) * unitsPerOne := by rw [hvalue, mul_div_right_comm]

/-- **What belongs to the format**: every whole number of at most 53 bits, at every scale. -/
theorem exists_units_eq {n scale : Nat} (hn : n < 2 * leadingBit) (hscale : scale ≤ 2045) :
    ∃ m : Magnitude, m.units = n * 2 ^ scale := by
  induction scale generalizing n with
  | zero => exact ⟨⟨n, 0, hn, by decide, .inl rfl⟩, rfl⟩
  | succ scale ih =>
    rcases Nat.lt_or_ge n leadingBit with hlow | hhigh
    case inr => exact ⟨⟨n, scale + 1, hn, hscale, .inr hhigh⟩, rfl⟩
    case inl =>
      -- the leading bit is not set, so the next lower scale has room
      obtain ⟨m, hm⟩ := ih (n := 2 * n) (by omega) (by omega)
      refine ⟨m, ?_⟩
      rw [hm, Nat.pow_succ]
      ring

/-- A whole number of at most 53 bits over a power of two belongs to the format. -/
theorem exists_toRat_eq {n places : Nat} (hn : n < 2 * leadingBit) (hplaces : places ≤ 1074) :
    ∃ m : Magnitude, m.toRat = n / 2 ^ places := by
  have hscale : 1074 - places ≤ 2045 := by omega
  obtain ⟨m, hm⟩ := exists_units_eq hn hscale
  refine ⟨m, ?_⟩
  have hone : unitsPerOne = 2 ^ (1074 - places) * 2 ^ places := by
    rw [← Nat.pow_add, Nat.sub_add_cancel hplaces, unitsPerOne]
  have hstep : (0 : ℚ) < 2 ^ (1074 - places) := by positivity
  rw [toRat_eq, hm, hone]
  push_cast
  field_simp

theorem exists_toRat_eq_mul {n places : Nat} (hn : n < 2 * leadingBit) (hplaces : places ≤ 971) :
    ∃ m : Magnitude, m.toRat = n * 2 ^ places := by
  have hscale : places + 1074 ≤ 2045 := by omega
  obtain ⟨m, hm⟩ := exists_units_eq hn hscale
  have hone : (unitsPerOne : ℚ) ≠ 0 := by exact_mod_cast unitsPerOne_pos.ne'
  refine ⟨m, ?_⟩
  rw [toRat_eq, hm, Nat.pow_add, ← unitsPerOne, ← Nat.mul_assoc, Nat.cast_mul,
    mul_div_cancel_right₀ _ hone]
  push_cast
  rfl

/-- **Whole numbers** of at most 53 bits belong to the format, and so does the next one. -/
theorem exists_toRat_eq_natCast {n : Nat} (hn : n ≤ 2 * leadingBit) :
    ∃ m : Magnitude, m.toRat = n := by
  rcases Nat.lt_or_eq_of_le hn with hlt | rfl
  case inl =>
    obtain ⟨m, hm⟩ := exists_toRat_eq_mul hlt (Nat.zero_le 971)
    exact ⟨m, by rw [hm, pow_zero, mul_one]⟩
  case inr =>
    have hlt : leadingBit < 2 * leadingBit := by decide
    obtain ⟨m, hm⟩ := exists_toRat_eq_mul hlt (Nat.one_le_ofNat : 1 ≤ 971)
    refine ⟨m, ?_⟩
    rw [hm]
    norm_num

/-- **The relative error on the grid of units**: also below the normal magnitudes, since there the
whole numbers of units belong to the format. -/
theorem abs_toRat_sub_le_div_of_units {k : Nat} (hk : q * unitsPerOne = k) (h : ofRat q = some m) :
    |m.toRat - q| ≤ q / 2 ^ (53 : Nat) := by
  have hone : (0 : ℚ) < unitsPerOne := by exact_mod_cast unitsPerOne_pos
  have hq : q = k / unitsPerOne := by rw [← hk, mul_div_cancel_right₀ _ hone.ne']
  rcases Nat.lt_or_ge k leadingBit with hsmall | hlarge
  case inl =>
    obtain ⟨m', hm'⟩ := exists_units_eq (n := k) (Nat.lt_of_lt_of_le hsmall (by decide))
      (Nat.zero_le 2045)
    have hexact : m'.toRat = q := by rw [toRat_eq, hm', pow_zero, Nat.mul_one, hq]
    rw [← hexact, ofRat_toRat] at h
    rw [← Option.some.inj h, hexact, sub_self, abs_zero, ← hexact]
    exact div_nonneg m'.toRat_nonneg (by positivity)
  case inr =>
    refine abs_toRat_sub_le_div ?_ h
    rw [hq, le_div_iff₀ hone, ← leadingBit_eq_mul]
    exact_mod_cast hlarge

theorem exists_ofRat (hq : 0 ≤ q) (h : q ≤ m.toRat) : ∃ m', ofRat q = some m' := by
  refine exists_nearest q.den_pos (m := m) ?_
  have hone : (0 : ℚ) < unitsPerOne := by exact_mod_cast unitsPerOne_pos
  have hden : (0 : ℚ) < q.den := by exact_mod_cast q.den_pos
  have hunits : ((q.num.natAbs * unitsPerOne : Nat) : ℚ) / q.den ≤ m.units := by
    rw [units_div_den hq, ← le_div_iff₀ hone, ← toRat_eq]
    exact h
  rw [div_le_iff₀ hden] at hunits
  exact_mod_cast hunits

/-- Whatever is not above a whole number of at most 53 bits can be read. -/
theorem exists_ofRat_of_le {n : Nat} (hq : 0 ≤ q) (hn : n < 2 * leadingBit) (h : q ≤ n) :
    ∃ m, ofRat q = some m := by
  obtain ⟨m, hm⟩ := exists_toRat_eq hn (Nat.zero_le 1074)
  rw [pow_zero, div_one] at hm
  exact exists_ofRat hq (h.trans_eq hm.symm)

theorem toRat_pos : 0 < m.toRat ↔ m.units ≠ 0 := by
  rw [m.toRat_nonneg.lt_iff_ne, ne_comm, Ne, Ne, ← toRat_zero, toRat_inj, units_eq_zero]

end Magnitude

/-! ## Numbers -/

/-- **The numbers nearest to a rational**, of which there are two if it lies half-way. -/
def Binary64.IsNearest (v : Binary64) (q : ℚ) : Prop :=
  v.isFinite = true ∧ ∀ other : Binary64, other.isFinite = true →
    |v.toRat - q| ≤ |other.toRat - q|

end Calculator
