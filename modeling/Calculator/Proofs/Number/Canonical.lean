import Calculator.Proofs.Number.Numeral
import Mathlib.Algebra.Order.Field.Power
import Mathlib.Tactic.Positivity
import Mathlib.Tactic.Ring

/-!
# One text for one number

A number has many numerals: zeros may be put in front of it and, behind a point, at its end.  A
printed numeral without zeros at the end of its fraction, and without a point at its end, is
`Canonical`, and a number has one canonical numeral only (`Canonical.eq`).

Runs of digits that are filled up with zeros to a least width (`Padded`) are treated first.  The
whole part of a printed numeral is such a run of width one, an exponent one of width two; each is
determined by its number (`Padded.eq`).
-/

namespace Calculator.Numeral

attribute [local instance (2000)] instPowNat

variable {digits digits' text text' : List Char} {width : Nat} {q : Rat}

/-! ## Runs of digits -/

theorem natural_concat (digits : List Char) (c : Char) :
    natural (digits ++ [c]) = 10 * natural digits + (c.toNat - '0'.toNat) := by
  rw [natural, Nat.ofDigitChars_append, Nat.ofDigitChars_cons, Nat.ofDigitChars_nil, natural]

theorem natural_cons (c : Char) (digits : List Char) :
    natural (c :: digits) = 10 ^ digits.length * (c.toNat - '0'.toNat) + natural digits := by
  rw [natural, Nat.ofDigitChars_cons, Nat.ofDigitChars_eq_ofDigitChars_zero, Nat.mul_zero,
    Nat.zero_add, natural]

theorem digit_bounds {c : Char} (h : c.isDigit = true) : 48 ≤ c.toNat ∧ c.toNat ≤ 57 :=
  Char.isDigit_iff_toNat.1 h

theorem natural_lt (h : ∀ c ∈ digits, c.isDigit = true) : natural digits < 10 ^ digits.length := by
  induction digits using List.reverseRecOn with
  | nil => exact Nat.one_pos
  | append_singleton digits c ih =>
    have hfront := ih fun d hd => h d (List.mem_append_left _ hd)
    have hlast := digit_bounds (h c (by simp))
    have hzero : '0'.toNat = 48 := rfl
    rw [natural_concat, List.length_append, List.length_singleton, Nat.pow_succ]
    omega

/-- A run that does not start with a zero has a number of as many digits. -/
theorem le_natural {c : Char} (h : c.isDigit = true) (hc : c ≠ '0') (digits : List Char) :
    10 ^ digits.length ≤ natural (c :: digits) := by
  have hdigit := digit_bounds h
  have hne : c.toNat ≠ 48 := fun heq => hc (Char.toNat_inj.1 heq)
  have hzero : '0'.toNat = 48 := rfl
  rw [natural_cons]
  exact Nat.le_add_right_of_le (Nat.le_mul_of_pos_right _ (by omega))

/-- **A run of digits of a given length is determined by its number.** -/
theorem eq_of_natural_eq (h : ∀ c ∈ digits, c.isDigit = true)
    (h' : ∀ c ∈ digits', c.isDigit = true) (hlength : digits.length = digits'.length)
    (hnatural : natural digits = natural digits') : digits = digits' := by
  induction digits using List.reverseRecOn generalizing digits' with
  | nil => exact (List.length_eq_zero_iff.1 hlength.symm).symm
  | append_singleton digits c ih =>
    obtain rfl | ⟨front, d, rfl⟩ := List.eq_nil_or_concat' digits'
    · simp at hlength
    · have hc := digit_bounds (h c (by simp))
      have hd := digit_bounds (h' d (by simp))
      have hzero : '0'.toNat = 48 := rfl
      rw [natural_concat, natural_concat] at hnatural
      have hlast : c = d := Char.toNat_inj.1 (by omega)
      have hfront : digits = front :=
        ih (fun a ha => h a (List.mem_append_left _ ha))
          (fun a ha => h' a (List.mem_append_left _ ha)) (by simpa using hlength) (by omega)
      rw [hlast, hfront]

/-- **A run of digits with zeros in front only up to a least width.** -/
structure Padded (width : Nat) (digits : List Char) : Prop where
  isDigit : ∀ c ∈ digits, c.isDigit = true
  width_le : width ≤ digits.length
  head_ne : width < digits.length → digits.head? ≠ some '0'

theorem Padded.length_le (h : Padded width digits) (h' : Padded width digits')
    (hnatural : natural digits = natural digits') : digits.length ≤ digits'.length := by
  by_contra hlong
  cases digits with
  | nil => simp at hlong
  | cons c rest =>
    have hhead := h.head_ne (Nat.lt_of_le_of_lt h'.width_le (Nat.not_le.1 hlong))
    have hc : c ≠ '0' := fun heq => hhead (congrArg some heq)
    have hlow := le_natural (h.isDigit c List.mem_cons_self) hc rest
    have hhigh := natural_lt h'.isDigit
    have hpow : 10 ^ digits'.length ≤ 10 ^ rest.length :=
      Nat.pow_le_pow_right (by decide) (Nat.le_of_lt_succ (Nat.not_le.1 hlong))
    omega

/-- **A padded run is determined by its number.** -/
theorem Padded.eq (h : Padded width digits) (h' : Padded width digits')
    (hnatural : natural digits = natural digits') : digits = digits' :=
  eq_of_natural_eq h.isDigit h'.isDigit
    (Nat.le_antisymm (h.length_le h' hnatural) (h'.length_le h hnatural.symm)) hnatural

theorem IsWhole.padded (h : IsWhole digits) : Padded 1 digits where
  isDigit := h.isDigit
  width_le := List.length_pos_iff.2 h.ne_nil
  head_ne hlong hzero := by
    rw [h.leadingZero hzero] at hlong
    exact absurd hlong (by decide)

/-- **Filling up with zeros** gives a padded run of the same number. -/
theorem padded_leftpad (n : Nat) (hwidth : 1 ≤ width) :
    Padded width ((Nat.toDigits 10 n).leftpad width '0') where
  isDigit _ hc := isDigit_of_mem_leftpad hc
  width_le := by
    rw [List.length_leftpad]
    exact Nat.le_max_left _ _
  head_ne hlong := by
    rw [List.length_leftpad] at hlong
    have hpad : width - (Nat.toDigits 10 n).length = 0 := by omega
    rw [List.leftpad, hpad, List.replicate_zero, List.nil_append]
    exact (toDigits_isWhole n).padded.head_ne (by omega)

/-! ## Canonical numerals -/

theorem natural_append (whole fraction : List Char) :
    natural (whole ++ fraction) = 10 ^ fraction.length * natural whole + natural fraction := by
  rw [natural, Nat.ofDigitChars_append, Nat.ofDigitChars_eq_ofDigitChars_zero, natural, natural]

theorem natural_append_inj {whole whole' fraction fraction' : List Char}
    (h : ∀ c ∈ fraction, c.isDigit = true) (h' : ∀ c ∈ fraction', c.isDigit = true)
    (hlength : fraction.length = fraction'.length)
    (hnatural : natural (whole ++ fraction) = natural (whole' ++ fraction')) :
    natural whole = natural whole' ∧ natural fraction = natural fraction' := by
  have hsmall := natural_lt h
  have hsmall' := natural_lt h'
  rw [natural_append, natural_append, hlength] at hnatural
  rw [hlength] at hsmall
  have hpos : 0 < 10 ^ fraction'.length := Nat.pow_pos (by decide)
  have hfirst : natural whole = natural whole' := by
    have hdiv := congrArg (· / 10 ^ fraction'.length) hnatural
    simpa only [Nat.mul_add_div hpos, Nat.div_eq_of_lt hsmall, Nat.div_eq_of_lt hsmall',
      Nat.add_zero] using hdiv
  rw [hfirst] at hnatural
  exact ⟨hfirst, Nat.add_left_cancel hnatural⟩

/-- A fraction that does not end with a zero is not longer than another of the same number. -/
theorem fraction_length_le {whole fraction : List Char} {n places : Nat}
    (hdigit : ∀ c ∈ fraction, c.isDigit = true) (hlast : fraction.getLast? ≠ some '0')
    (hvalue : natural (whole ++ fraction) * 10 ^ places = n * 10 ^ fraction.length) :
    fraction.length ≤ places := by
  obtain rfl | ⟨front, c, rfl⟩ := List.eq_nil_or_concat' fraction
  · exact Nat.zero_le places
  · by_contra hlong
    have hc : c ≠ '0' := by simpa using hlast
    have hdigit := digit_bounds (hdigit c (by simp))
    have hne : c.toNat ≠ 48 := fun heq => hc (Char.toNat_inj.1 heq)
    have hzero : '0'.toNat = 48 := rfl
    obtain ⟨more, hmore⟩ := Nat.exists_eq_add_of_lt (Nat.not_le.1 hlong)
    -- the last digit would be a multiple of ten
    rw [hmore, ← List.append_assoc, natural_concat, Nat.pow_succ, Nat.pow_add] at hvalue
    have hten : 10 * natural (whole ++ front) + (c.toNat - '0'.toNat) = 10 * (n * 10 ^ more) := by
      refine Nat.eq_of_mul_eq_mul_right (Nat.pow_pos (by decide : 0 < 10)) (hvalue.trans ?_)
      ring
    omega

/-- **A number has one canonical numeral.** -/
theorem Canonical.eq (h : Canonical text q) (h' : Canonical text' q) : text = text' := by
  cases h with
  | @mk whole fraction hwhole hdigit hlast =>
    generalize hq : (natural (whole ++ fraction) / 10 ^ (fraction.length : Int) : Rat) = q at h'
    cases h' with
    | @mk whole' fraction' hwhole' hdigit' hlast' =>
      have hvalue : natural (whole ++ fraction) * 10 ^ fraction'.length =
          natural (whole' ++ fraction') * 10 ^ fraction.length := by
        rw [div_eq_div_iff (by positivity) (by positivity), zpow_natCast, zpow_natCast] at hq
        exact_mod_cast hq
      have hlength : fraction.length = fraction'.length :=
        Nat.le_antisymm (fraction_length_le hdigit hlast hvalue)
          (fraction_length_le hdigit' hlast' hvalue.symm)
      rw [hlength] at hvalue
      have hnatural := Nat.eq_of_mul_eq_mul_right (Nat.pow_pos (by decide)) hvalue
      obtain ⟨hfirst, hsecond⟩ := natural_append_inj hdigit hdigit' hlength hnatural
      rw [hwhole.padded.eq hwhole'.padded hfirst, eq_of_natural_eq hdigit hdigit' hlength hsecond]

theorem Canonical.one_digit (h : Canonical text q) (hq : q < 10) :
    ∃ first behind, text = first :: behind ∧ ∀ c ∈ behind.head?, c = '.' := by
  cases h with
  | @mk whole fraction hwhole hdigit =>
    have hsmall : natural whole < 10 := by
      have hpos : (0 : Rat) < 10 ^ (fraction.length : Int) := by positivity
      rw [div_lt_iff₀ hpos, zpow_natCast, natural_append] at hq
      have hlt : 10 ^ fraction.length * natural whole + natural fraction <
          10 * 10 ^ fraction.length := by
        exact_mod_cast hq
      by_contra hlarge
      have := Nat.mul_le_mul_left (10 ^ fraction.length) (Nat.not_lt.1 hlarge)
      omega
    obtain ⟨first, more, rfl⟩ := List.exists_cons_of_ne_nil hwhole.ne_nil
    have hmore : more = [] := by
      by_contra hne
      have hlong : 1 < (first :: more).length := by
        simpa using List.length_pos_iff.2 hne
      have hfirst : first ≠ '0' := fun heq => hwhole.padded.head_ne hlong (congrArg some heq)
      have hlow := le_natural (hwhole.isDigit first List.mem_cons_self) hfirst more
      have hten : 10 ^ 1 ≤ 10 ^ more.length :=
        Nat.pow_le_pow_right (by decide) (List.length_pos_iff.2 hne)
      omega
    subst hmore
    split
    case isTrue => exact ⟨first, [], rfl, by simp⟩
    case isFalse => exact ⟨first, '.' :: fraction, rfl, by simp⟩

end Calculator.Numeral
