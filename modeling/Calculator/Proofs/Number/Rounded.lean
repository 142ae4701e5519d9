import Calculator.Proofs.Number.Nearest

/-!
# Significant digits

Rounding to a count of significant digits first finds out where the first digit stands.
`decimalExponent_bounds` says what it finds, and from it come the two facts about rounding that
everything else rests on.

* `Decimal.rounded_spec`: the rounded decimal has exactly the asked count of digits, also when nines
  are rounded up and the first digit moves.
* `Decimal.rounded_eq_of_abs_lt`: what is very near to a decimal of that many digits is rounded to
  it, also when it lies just below a power of ten, where the digits of the two differ in every
  place.
-/

namespace Calculator

attribute [local instance (2000)] instPowNat

/-! ## Counting digits -/

/-- A number has `k + 1` digits between two powers of ten. -/
theorem Numeral.digitCount_eq_succ_iff {n k : Nat} (hn : 0 < n) :
    digitCount n = k + 1 ↔ 10 ^ k ≤ n ∧ n < 10 ^ (k + 1) := by
  have habove : digitCount n ≤ k + 1 ↔ n < 10 ^ (k + 1) :=
    Nat.length_toDigits_le_iff (by decide) (Nat.succ_pos k)
  have hbelow : k < digitCount n ↔ 10 ^ k ≤ n := by
    cases k with
    | zero =>
      have hpositive : 0 < digitCount n := Nat.length_toDigits_pos
      simpa [hpositive, Nat.one_le_iff_ne_zero, Nat.pos_iff_ne_zero] using hn
    | succ k =>
      have hdigits : digitCount n ≤ k + 1 ↔ n < 10 ^ (k + 1) :=
        Nat.length_toDigits_le_iff (by decide) (Nat.succ_pos k)
      rw [← Nat.not_le, hdigits, Nat.not_lt]
  rw [← habove, ← hbelow]
  omega

theorem Numeral.exists_digitCount {n : Nat} (hn : 0 < n) :
    ∃ k, digitCount n = k + 1 ∧ (10 : ℚ) ^ (k : Int) ≤ n ∧ (n : ℚ) + 1 ≤ 10 ^ ((k : Int) + 1) := by
  have hpositive : 0 < digitCount n := Nat.length_toDigits_pos
  obtain ⟨k, hk⟩ : ∃ k, digitCount n = k + 1 := ⟨digitCount n - 1, by omega⟩
  obtain ⟨hbelow, habove⟩ := (digitCount_eq_succ_iff hn).1 hk
  refine ⟨k, hk, ?_, ?_⟩
  · rw [zpow_natCast]
    exact_mod_cast hbelow
  · rw [show (k : Int) + 1 = ((k + 1 : Nat) : Int) by push_cast; rfl, zpow_natCast]
    exact_mod_cast habove

/-! ## The first digit -/

variable {q : ℚ} {e : Int}

/-- Two powers of ten that follow each other enclose a number only once. -/
theorem zpow_exponent_unique {e e' : Int} (hlow : 10 ^ e ≤ q) (hhigh : q < 10 ^ (e + 1))
    (hlow' : 10 ^ e' ≤ q) (hhigh' : q < 10 ^ (e' + 1)) : e = e' := by
  have hle : e < e' + 1 := (zpow_lt_zpow_iff_right₀ (by norm_num)).1 (lt_of_le_of_lt hlow hhigh')
  have hge : e' < e + 1 := (zpow_lt_zpow_iff_right₀ (by norm_num)).1 (lt_of_le_of_lt hlow' hhigh)
  omega

/-- **The first digit stands** where the power of ten is not above the number and the next power
is. -/
theorem decimalExponent_bounds (hq : 0 < q) :
    10 ^ decimalExponent q ≤ q ∧ q < 10 ^ (decimalExponent q + 1) := by
  rw [decimalExponent]
  split
  case isTrue hone =>
    have hfloor : 1 ≤ q.floor := Rat.le_floor_iff.2 (by exact_mod_cast hone)
    have hwhole : ((q.floor.toNat : Nat) : ℚ) = q.floor := by
      exact_mod_cast Int.toNat_of_nonneg (by omega : 0 ≤ q.floor)
    obtain ⟨k, hk, hbelow, habove⟩ := Numeral.exists_digitCount (n := q.floor.toNat) (by omega)
    rw [hwhole] at hbelow habove
    rw [hk]
    push_cast
    rw [add_sub_cancel_right]
    have hnext : q < q.floor + 1 := by exact_mod_cast Rat.lt_floor_add_one q
    exact ⟨le_trans hbelow (Rat.floor_le q), lt_of_lt_of_le hnext habove⟩
  case isFalse hone =>
    -- the reciprocal is above one and lies between a whole number and the next one
    have hinverse : 1 < q⁻¹ := (one_lt_inv₀ hq).2 (not_le.1 hone)
    have hceil : 1 < q⁻¹.ceil := by
      have : (1 : ℚ) < q⁻¹.ceil := lt_of_lt_of_le hinverse Rat.le_ceil
      exact_mod_cast this
    have hwhole : ((q⁻¹.ceil.toNat - 1 : Nat) : ℚ) + 1 = q⁻¹.ceil := by
      have : ((q⁻¹.ceil.toNat - 1 : Nat) : Int) + 1 = q⁻¹.ceil := by omega
      exact_mod_cast this
    obtain ⟨k, hk, hbelow, habove⟩ := Numeral.exists_digitCount (n := q⁻¹.ceil.toNat - 1) (by omega)
    have hlow : (10 : ℚ) ^ (k : Int) < q⁻¹ := by
      have := Rat.ceil_lt (x := q⁻¹)
      linarith
    have hhigh : q⁻¹ ≤ 10 ^ ((k : Int) + 1) := by
      rw [hwhole] at habove
      exact le_trans Rat.le_ceil habove
    rw [hk]
    push_cast
    constructor
    · rw [zpow_neg]
      exact inv_le_of_inv_le₀ hq hhigh
    · rw [neg_add, neg_add_cancel_right, zpow_neg]
      exact lt_inv_of_lt_inv₀ (by positivity) hlow

theorem decimalExponent_eq (hlow : 10 ^ e ≤ q) (hhigh : q < 10 ^ (e + 1)) :
    decimalExponent q = e := by
  have hq : 0 < q := lt_of_lt_of_le (by positivity) hlow
  obtain ⟨hlow', hhigh'⟩ := decimalExponent_bounds hq
  exact zpow_exponent_unique hlow' hhigh' hlow hhigh

/-! ## Rounding to significant digits -/

namespace Decimal

variable {p : Nat}

theorem scaled_bounds (hlow : 10 ^ e ≤ q) (hhigh : q < 10 ^ (e + 1)) (p : Nat) :
    (10 : ℚ) ^ p ≤ q / 10 ^ (e - p) ∧ q / 10 ^ (e - p) < 10 ^ (p + 1) := by
  have hgrid : (0 : ℚ) < 10 ^ (e - p) := by positivity
  have hfirst : (10 : ℚ) ^ p * 10 ^ (e - p) = 10 ^ e := by
    rw [← zpow_natCast, ← zpow_add₀ (by norm_num), add_sub_cancel]
  rw [le_div_iff₀ hgrid, div_lt_iff₀ hgrid, pow_succ, mul_right_comm, hfirst]
  refine ⟨hlow, lt_of_lt_of_eq hhigh ?_⟩
  rw [zpow_add₀ (by norm_num), zpow_one]

/-- **The two ways of rounding**: the nearest point of the grid has the right count of digits, or
nines were rounded up and it is the next power of ten. -/
theorem rounded_cases (hq : 0 < q) (p : Nat) :
    ∃ x : Int, x = decimalExponent q - p ∧
      |(roundNearest (q / 10 ^ x) : ℚ) - q / 10 ^ x| ≤ 1 / 2 ∧
      (10 ^ p ≤ roundNearest (q / 10 ^ x) ∧ roundNearest (q / 10 ^ x) < 10 ^ (p + 1) ∧
          rounded q (p + 1) = ⟨roundNearest (q / 10 ^ x), x⟩ ∨
        roundNearest (q / 10 ^ x) = 10 ^ (p + 1) ∧ rounded q (p + 1) = ⟨10 ^ p, x + 1⟩) := by
  have hexponent : decimalExponent q + 1 - ((p + 1 : Nat) : Int) = decimalExponent q - p := by
    push_cast
    ring
  obtain ⟨hlow, hhigh⟩ := decimalExponent_bounds hq
  obtain ⟨hlow, hhigh⟩ := scaled_bounds hlow hhigh p
  simp only [rounded, hexponent, Nat.add_sub_cancel]
  generalize decimalExponent q - p = x at hlow hhigh ⊢
  have hhalf : |(roundNearest (q / 10 ^ x) : ℚ) - q / 10 ^ x| ≤ 1 / 2 :=
    abs_roundNearest_sub_le (by positivity)
  obtain ⟨hbelow, habove⟩ := abs_le.1 hhalf
  refine ⟨x, rfl, hhalf, ?_⟩
  have hge : 10 ^ p ≤ roundNearest (q / 10 ^ x) := by
    have : ((10 ^ p : Nat) : ℚ) < roundNearest (q / 10 ^ x) + 1 := by
      push_cast
      linarith
    exact Nat.lt_succ_iff.1 (by exact_mod_cast this)
  have hle : roundNearest (q / 10 ^ x) ≤ 10 ^ (p + 1) := by
    have : (roundNearest (q / 10 ^ x) : ℚ) < (10 ^ (p + 1) : Nat) + 1 := by
      push_cast
      linarith
    exact Nat.lt_succ_iff.1 (by exact_mod_cast this)
  rcases Nat.lt_or_eq_of_le hle with hlt | heq
  · exact .inl ⟨hge, hlt, if_pos hlt⟩
  · exact .inr ⟨heq, if_neg (by omega)⟩

/-- **The value of the rounded decimal** is the nearest point of the grid; a carry changes its
digits only. -/
theorem toRat_rounded (hq : 0 < q) (p : Nat) :
    (rounded q (p + 1)).toRat =
      roundNearest (q / 10 ^ (decimalExponent q - p)) * 10 ^ (decimalExponent q - p) := by
  obtain ⟨x, rfl, -, ⟨-, -, hrounded⟩ | ⟨hcarry, hrounded⟩⟩ := rounded_cases hq p
  · rw [hrounded, toRat]
  · rw [hrounded, toRat, hcarry, zpow_add_one₀ (by norm_num), pow_succ]
    push_cast
    ring

theorem div_zpow_succ (q : ℚ) (x : Int) : q / 10 ^ (x + 1) = q / 10 ^ x / 10 := by
  rw [zpow_add₀ (by norm_num), zpow_one, div_div]

/-- **A rounded decimal** has the asked count of digits, and rounding the number once more at the
place of its last digit changes nothing. -/
theorem rounded_spec (hq : 0 < q) (p : Nat) :
    10 ^ p ≤ (rounded q (p + 1)).coefficient ∧ (rounded q (p + 1)).coefficient < 10 ^ (p + 1) ∧
      roundNearest (q / 10 ^ (rounded q (p + 1)).exponent) = (rounded q (p + 1)).coefficient := by
  obtain ⟨x, -, hhalf, ⟨hge, hlt, hrounded⟩ | ⟨hcarry, hrounded⟩⟩ := rounded_cases hq p
  · rw [hrounded]
    exact ⟨hge, hlt, rfl⟩
  · rw [hrounded]
    refine ⟨le_rfl, Nat.pow_lt_pow_right (by decide) (Nat.lt_succ_self p), ?_⟩
    -- a half of the finer grid is a twentieth of the coarser one
    refine roundNearest_eq_of_abs_lt (by positivity) ?_
    rw [hcarry, pow_succ] at hhalf
    push_cast at hhalf ⊢
    rw [div_zpow_succ, abs_lt]
    obtain ⟨hbelow, habove⟩ := abs_le.1 hhalf
    constructor <;> linarith

/-- **Rounding is stable.**  A number that is nearer than a twentieth of a step to a decimal with
the asked count of digits is rounded to this decimal. -/
theorem rounded_eq_of_abs_lt {d : Decimal} (hlow : 10 ^ p ≤ d.coefficient)
    (hhigh : d.coefficient < 10 ^ (p + 1))
    (hnear : |d.coefficient - q / 10 ^ d.exponent| < 1 / 20) :
    rounded q (p + 1) = d := by
  obtain ⟨c, x⟩ := d
  simp only at hlow hhigh hnear
  obtain ⟨hbelow, habove⟩ := abs_lt.1 hnear
  have hgrid : (0 : ℚ) < 10 ^ x := by positivity
  have hpow : (1 : ℚ) ≤ 10 ^ p := one_le_pow₀ (by norm_num)
  have hlow' : (10 : ℚ) ^ p ≤ c := by exact_mod_cast hlow
  have hhigh' : (c : ℚ) + 1 ≤ 10 ^ (p + 1) := by exact_mod_cast hhigh
  have hscale : ∀ {e : Int}, e - p = x → (10 : ℚ) ^ e = 10 ^ p * 10 ^ x := by
    rintro e rfl
    rw [← zpow_natCast, ← zpow_add₀ (by norm_num), add_sub_cancel]
  have hexponent : ∀ e : Int, e + 1 - ((p + 1 : Nat) : Int) = e - p := fun e => by
    push_cast
    ring
  simp only [rounded, hexponent, Nat.add_sub_cancel]
  rcases le_or_gt (10 ^ p) (q / 10 ^ x) with hsame | hless
  case inl =>
    -- the first digit stands where that of the decimal stands
    have hfirst : decimalExponent q = x + p := by
      refine decimalExponent_eq ?_ ?_
      · rw [hscale (by ring), ← le_div_iff₀ hgrid]
        exact hsame
      · rw [zpow_add₀ (by norm_num), zpow_one, hscale (by ring), mul_right_comm, ← pow_succ,
          ← div_lt_iff₀ hgrid]
        linarith
    have hround : roundNearest (q / 10 ^ x) = c :=
      roundNearest_eq_of_abs_lt (by linarith) (by linarith)
    rw [hfirst, add_sub_cancel_right, hround, if_pos hhigh]
  case inr =>
    -- the number lies just below the least decimal of its length
    have hleast : c = 10 ^ p := by
      have : (c : ℚ) < (10 ^ p : Nat) + 1 := by
        push_cast
        linarith
      exact le_antisymm (Nat.lt_succ_iff.1 (by exact_mod_cast this)) hlow
    subst hleast
    push_cast at hnear hbelow habove
    have hfirst : decimalExponent q = x + p - 1 := by
      refine decimalExponent_eq ?_ ?_
      · rw [zpow_sub_one₀ (by norm_num), hscale (by ring), mul_right_comm, ← le_div_iff₀ hgrid]
        linarith
      · rw [sub_add_cancel, hscale (by ring), ← div_lt_iff₀ hgrid]
        exact hless
    have hfiner : q / 10 ^ (x - 1) = q / 10 ^ x * 10 := by
      rw [← sub_add_cancel x 1, div_zpow_succ, add_sub_cancel_right]
      ring
    have hround : roundNearest (q / 10 ^ (x - 1)) = 10 ^ (p + 1) := by
      rw [hfiner]
      refine roundNearest_eq_of_abs_lt (by linarith) ?_
      push_cast
      rw [pow_succ, abs_lt]
      constructor <;> linarith
    rw [hfirst, sub_right_comm, add_sub_cancel_right, hround, if_neg (lt_irrefl _), sub_add_cancel]

end Decimal

end Calculator
