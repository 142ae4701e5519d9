import Calculator.Number.Decimal

/-!
# Numerals as they are printed

Numbers are printed as `Numeral.Plain` numerals: a whole number without zeros in front that say
nothing, and then perhaps a point with at least one digit behind it.  The relation carries the value
along, so that to say how a number is printed is also to say what the text is read as.

* `Numeral.Reads` takes the answer of `Numeral.read?` apart.
* `Numeral.fixed_plain` and `Numeral.Plain.canonical_trimFraction` follow the value through the two
  steps of printing, and `Decimal.positional_canonical` joins them.
-/

namespace Calculator

attribute [local instance (2000)] instPowNat

/-! ## Runs of characters -/

theorem isDigit_iff_mem {c : Char} :
    c.isDigit = true ↔ c ∈ ['0', '1', '2', '3', '4', '5', '6', '7', '8', '9'] := by
  constructor
  · intro h
    have hall : ∀ n < 58, 48 ≤ n →
        Char.ofNat n ∈ ['0', '1', '2', '3', '4', '5', '6', '7', '8', '9'] := by decide
    obtain ⟨hlow, hhigh⟩ := Char.isDigit_iff_toNat.1 h
    rw [← Char.ofNat_toNat c]
    exact hall _ (Nat.lt_succ_of_le hhigh) hlow
  · have hall : ['0', '1', '2', '3', '4', '5', '6', '7', '8', '9'].all Char.isDigit = true := by
      decide
    exact List.all_eq_true.1 hall c

section Runs

variable {p : Char → Bool} {run rest : List Char}

/-- A run of characters is not changed by what stands behind the text, unless it goes on there. -/
theorem span_append (hrest : ∀ c ∈ rest.head?, p c = false) (text : List Char) :
    (text ++ rest).takeWhile p = text.takeWhile p ∧
      (text ++ rest).dropWhile p = text.dropWhile p ++ rest := by
  induction text with
  | nil =>
    cases rest with
    | nil => exact ⟨rfl, rfl⟩
    | cons c rest => simp [hrest c rfl]
  | cons c text ih =>
    cases hc : p c with
    | true => simpa [hc] using ih
    | false => simp [hc]

theorem span_exact (hrun : ∀ c ∈ run, p c = true) (rest : List Char)
    (hrest : ∀ c ∈ rest.head?, p c = false) :
    (run ++ rest).takeWhile p = run ∧ (run ++ rest).dropWhile p = rest := by
  rw [List.takeWhile_append_of_pos hrun, List.dropWhile_append_of_pos hrun]
  simpa using span_append hrest []

end Runs

namespace Numeral

/-! ## Reading -/

/-- **What a numeral is read as.** -/
inductive Reads : List Char → Rat → Prop where
  | whole {digits : List Char} : digits ≠ [] → (∀ c ∈ digits, c.isDigit = true) →
    Reads digits (natural digits)
  | point {whole fraction : List Char} : (∀ c ∈ whole, c.isDigit = true) →
    (∀ c ∈ fraction, c.isDigit = true) → whole ++ fraction ≠ [] →
    Reads (whole ++ '.' :: fraction) (natural (whole ++ fraction) / 10 ^ (fraction.length : Int))

theorem read?_eq_some_iff {text : List Char} {q : Rat} : read? text = some q ↔ Reads text q := by
  constructor
  · intro h
    have hsplit : text.takeWhile Char.isDigit ++ text.dropWhile Char.isDigit = text :=
      List.takeWhile_append_dropWhile
    have hwhole : ∀ c ∈ text.takeWhile Char.isDigit, c.isDigit = true :=
      List.all_eq_true.1 List.all_takeWhile
    simp only [read?] at h
    generalize text.takeWhile Char.isDigit = whole at hsplit hwhole h
    split at h
    case h_1 hdrop =>
      rw [hdrop, List.append_nil] at hsplit
      rw [hsplit] at h hwhole
      split at h
      case isTrue => cases h
      case isFalse hne =>
        cases h
        exact .whole (by simpa using hne) hwhole
    case h_2 c fraction hdrop =>
      rw [hdrop] at hsplit
      split at h
      case isTrue hpoint =>
        cases h
        simp only [Bool.and_eq_true, beq_iff_eq, List.all_eq_true, Bool.not_eq_true',
          List.isEmpty_eq_false_iff] at hpoint
        obtain ⟨⟨rfl, hfraction⟩, hne⟩ := hpoint
        rw [← hsplit]
        exact .point hwhole hfraction hne
      case isFalse => cases h
  · intro h
    cases h with
    | whole hne hdigits =>
      obtain ⟨htake, hdrop⟩ := span_exact hdigits [] (by simp)
      rw [List.append_nil] at htake hdrop
      simp [read?, htake, hdrop, hne]
    | @point whole fraction hwhole hfraction hne =>
      obtain ⟨htake, hdrop⟩ := span_exact hwhole ('.' :: fraction) (by simp)
      have hall : fraction.all Char.isDigit = true := List.all_eq_true.2 hfraction
      have hempty : (whole ++ fraction).isEmpty = false := List.isEmpty_eq_false_iff.2 hne
      simp only [read?, htake, hdrop, hall, hempty]
      rfl

theorem div_ten_zpow_zero (q : Rat) : q / 10 ^ ((0 : Nat) : Int) = q := by
  rw [Int.natCast_zero, Rat.zpow_zero]
  grind

theorem ne_point_of_isDigit {c : Char} (h : c.isDigit = true) : c ≠ '.' := by
  rintro rfl
  cases h

/-! ## Printed numerals -/

/-- **A whole number as it is printed**: digits with no zero in front, or a single zero. -/
structure IsWhole (digits : List Char) : Prop where
  ne_nil : digits ≠ []
  isDigit : ∀ c ∈ digits, c.isDigit = true
  leadingZero : digits.head? = some '0' → digits = ['0']

/-- **A numeral as it is printed**, and the number it stands for. -/
inductive Plain : List Char → Rat → Prop where
  | whole {digits : List Char} : IsWhole digits → Plain digits (natural digits)
  | point {whole fraction : List Char} : IsWhole whole → fraction ≠ [] →
    (∀ c ∈ fraction, c.isDigit = true) →
    Plain (whole ++ '.' :: fraction) (natural (whole ++ fraction) / 10 ^ (fraction.length : Int))

theorem Plain.reads {text : List Char} {q : Rat} (h : Plain text q) : Reads text q := by
  cases h with
  | whole hwhole => exact .whole hwhole.ne_nil hwhole.isDigit
  | point hwhole hne hfraction => exact .point hwhole.isDigit hfraction (by simp [hne])

theorem Plain.isDigit_or_point {text : List Char} {q : Rat} (h : Plain text q) :
    ∀ c ∈ text, c.isDigit = true ∨ c = '.' := by
  cases h with
  | whole hwhole => exact fun c hc => .inl (hwhole.isDigit c hc)
  | point hwhole _ hfraction =>
    intro c hc
    rcases List.mem_append.1 hc with hc | hc
    · exact .inl (hwhole.isDigit c hc)
    · exact (List.mem_cons.1 hc).symm.imp_left (hfraction c)

theorem Plain.nonneg {text : List Char} {q : Rat} (h : Plain text q) : 0 ≤ q := by
  cases h with
  | whole => exact Rat.natCast_nonneg
  | point =>
    rw [Rat.div_def, ← Rat.zpow_neg]
    exact Rat.mul_nonneg Rat.natCast_nonneg (Rat.zpow_nonneg (by decide))

theorem Plain.exists_first {text : List Char} {q : Rat} (h : Plain text q) :
    ∃ first rest, text = first :: rest ∧ first.isDigit = true := by
  have hdigit : ∀ {digits : List Char}, IsWhole digits →
      ∃ first rest, digits = first :: rest ∧ first.isDigit = true := by
    intro digits hwhole
    obtain ⟨first, rest, rfl⟩ := List.exists_cons_of_ne_nil hwhole.ne_nil
    exact ⟨first, rest, rfl, hwhole.isDigit first List.mem_cons_self⟩
  cases h with
  | whole hwhole => exact hdigit hwhole
  | point hwhole =>
    obtain ⟨first, rest, rfl, hfirst⟩ := hdigit hwhole
    exact ⟨first, _, List.cons_append, hfirst⟩

theorem Plain.exists_last {text : List Char} {q : Rat} (h : Plain text q) :
    ∃ front last, text = front ++ [last] ∧ last.isDigit = true := by
  have hdigit : ∀ {digits : List Char}, digits ≠ [] → (∀ c ∈ digits, c.isDigit = true) →
      ∃ front last, digits = front ++ [last] ∧ last.isDigit = true := by
    intro digits hne hdigits
    exact ⟨digits.dropLast, digits.getLast hne, (List.dropLast_concat_getLast hne).symm,
      hdigits _ (List.getLast_mem hne)⟩
  cases h with
  | whole hwhole => exact hdigit hwhole.ne_nil hwhole.isDigit
  | @point whole fraction hwhole hne hfraction =>
    obtain ⟨front, last, rfl, hlast⟩ := hdigit hne hfraction
    exact ⟨whole ++ '.' :: front, last, by simp, hlast⟩

/-! ## Digits of natural numbers -/

theorem natural_replicate_append (count : Nat) (digits : List Char) :
    natural (List.replicate count '0' ++ digits) = natural digits := by
  simp [natural, Nat.ofDigitChars_append]

theorem natural_append_replicate (digits : List Char) (count : Nat) :
    natural (digits ++ List.replicate count '0') = 10 ^ count * natural digits := by
  simp [natural, Nat.ofDigitChars_append]

theorem natural_leftpad (n width : Nat) :
    natural ((Nat.toDigits 10 n).leftpad width '0') = n := by
  rw [List.leftpad, natural_replicate_append, natural, Nat.ofDigitChars_ten_toDigits]

theorem isDigit_of_mem_leftpad {n width : Nat} {c : Char}
    (h : c ∈ (Nat.toDigits 10 n).leftpad width '0') : c.isDigit = true := by
  rw [List.leftpad, List.mem_append] at h
  rcases h with hzero | hc
  · rw [(List.mem_replicate.1 hzero).2]
    rfl
  · exact Nat.isDigit_of_mem_toDigits (by decide) (by decide) hc

/-- Only zero is written with a zero in front. -/
theorem head?_toDigits {n : Nat} (h : n ≠ 0) : (Nat.toDigits 10 n).head? ≠ some '0' := by
  induction n using Nat.base_induction 10 (by decide) with
  | single n hn =>
    rw [Nat.toDigits_of_lt_base hn]
    revert h
    decide +revert
  | digit n k hk hn ih =>
    rw [← Nat.toDigits_append_toDigits (by decide) hn hk, List.head?_append]
    have hne : Nat.toDigits 10 n ≠ [] := Nat.toDigits_ne_nil
    obtain ⟨c, digits, hdigits⟩ := List.exists_cons_of_ne_nil hne
    rw [hdigits] at ih ⊢
    exact ih (Nat.ne_of_gt hn)

theorem toDigits_isWhole (n : Nat) : IsWhole (Nat.toDigits 10 n) where
  ne_nil := Nat.toDigits_ne_nil
  isDigit _ hc := Nat.isDigit_of_mem_toDigits (by decide) (by decide) hc
  leadingZero hzero := by
    have hn : n = 0 := Decidable.byContradiction fun hne => head?_toDigits hne hzero
    rw [hn, Nat.toDigits_zero]

theorem IsWhole.take {digits : List Char} (h : IsWhole digits) {count : Nat} (hcount : count ≠ 0) :
    IsWhole (digits.take count) where
  ne_nil := by simp [List.take_eq_nil_iff, hcount, h.ne_nil]
  isDigit c hc := h.isDigit c (List.mem_of_mem_take hc)
  leadingZero hzero := by
    rw [List.head?_take, if_neg hcount] at hzero
    rw [h.leadingZero hzero]
    exact List.take_of_length_le (Nat.pos_of_ne_zero hcount)

/-- What stands before the point is a whole number: the digits of `n` but the last ones, or the zero
that is put in front of too few digits. -/
theorem whole_isWhole (n places : Nat) :
    IsWhole (((Nat.toDigits 10 n).leftpad (places + 1) '0').take
      (((Nat.toDigits 10 n).leftpad (places + 1) '0').length - places)) := by
  rw [List.length_leftpad, List.leftpad]
  rcases Nat.lt_or_ge places (Nat.toDigits 10 n).length with hlong | hshort
  · have hpad : places + 1 - (Nat.toDigits 10 n).length = 0 := by omega
    rw [hpad, List.replicate_zero, List.nil_append]
    exact (toDigits_isWhole n).take (by omega)
  · have hcount : max (places + 1) (Nat.toDigits 10 n).length - places = 1 := by omega
    have hpad : places + 1 - (Nat.toDigits 10 n).length
        = places - (Nat.toDigits 10 n).length + 1 := by omega
    rw [hcount, hpad, List.replicate_succ, List.cons_append, List.take_succ_cons, List.take_zero]
    exact Nat.toDigits_zero 10 ▸ toDigits_isWhole 0

/-! ## Printing -/

/-- **A fixed count of places.** -/
theorem fixed_plain (n places : Nat) : Plain (fixed n places) (n / 10 ^ (places : Int)) := by
  have hnatural := natural_leftpad n (places + 1)
  have hwhole := whole_isWhole n places
  rw [fixed]
  generalize hdigits : (Nat.toDigits 10 n).leftpad (places + 1) '0' = digits at hnatural hwhole ⊢
  have hlength : places < digits.length := by
    rw [← hdigits, List.length_leftpad]
    omega
  by_cases hplaces : places = 0
  case pos =>
    subst hplaces
    rw [Nat.sub_zero, List.take_length] at hwhole
    rw [if_pos rfl, div_ten_zpow_zero, ← hnatural]
    exact .whole hwhole
  case neg =>
    have hfraction : (digits.drop (digits.length - places)).length = places := by
      rw [List.length_drop]
      omega
    have hdigit : ∀ c ∈ digits, c.isDigit = true := by
      intro c hc
      rw [← hdigits] at hc
      exact isDigit_of_mem_leftpad hc
    have hne : digits.drop (digits.length - places) ≠ [] := by
      intro hnil
      rw [hnil, List.length_nil] at hfraction
      exact hplaces hfraction.symm
    have hplain := Plain.point hwhole hne fun c hc => hdigit c (List.mem_of_mem_drop hc)
    rw [List.take_append_drop, hfraction, hnatural] at hplain
    rwa [if_neg hplaces]

/-! ## Trailing zeros -/

variable {p : Char → Bool}

theorem dropEnd_append_of_all {front behind : List Char} (h : ∀ c ∈ behind, p c = true) :
    dropEnd p (front ++ behind) = dropEnd p front := by
  rw [dropEnd, List.reverse_append, List.dropWhile_append_of_pos (by simpa using h), dropEnd]

theorem dropEnd_eq_self {text : List Char} (h : ∀ c ∈ text.getLast?, p c = false) :
    dropEnd p text = text := by
  rw [← List.head?_reverse] at h
  have hkeep : text.reverse.dropWhile p = text.reverse := by
    cases htext : text.reverse with
    | nil => rfl
    | cons c behind =>
      rw [htext] at h
      exact List.dropWhile_cons_of_neg (by simp [h c rfl])
  rw [dropEnd, hkeep, List.reverse_reverse]

/-- The zeros at the end of a fraction, and the fraction without them. -/
theorem exists_zeros (fraction : List Char) :
    ∃ kept count, fraction = kept ++ List.replicate count '0' ∧ kept.getLast? ≠ some '0' := by
  induction hfraction : fraction.reverse generalizing fraction with
  | nil => exact ⟨[], 0, by simpa using hfraction, by simp⟩
  | cons c before ih =>
    have hconcat : fraction = before.reverse ++ [c] := by
      rw [← List.reverse_reverse fraction, hfraction, List.reverse_cons]
    by_cases hc : c = '0'
    case pos =>
      obtain ⟨kept, count, hkept, hlast⟩ := ih before.reverse (List.reverse_reverse before)
      refine ⟨kept, count + 1, ?_, hlast⟩
      rw [hconcat, hkept, hc, List.append_assoc, List.replicate_succ']
    case neg => exact ⟨fraction, 0, by simp, by simpa [hconcat] using hc⟩

/-- **What is left of a fraction**: its digits up to the last one that is not zero, or nothing, and
then the point goes as well. -/
theorem trimFraction_point {whole kept : List Char} (hwhole : ∀ c ∈ whole, c.isDigit = true)
    (hkept : ∀ c ∈ kept, c.isDigit = true) (hlast : kept.getLast? ≠ some '0') (count : Nat) :
    trimFraction (whole ++ '.' :: (kept ++ List.replicate count '0')) =
      if kept = [] then whole else whole ++ '.' :: kept := by
  have hassoc : whole ++ '.' :: (kept ++ List.replicate count '0')
      = (whole ++ '.' :: kept) ++ List.replicate count '0' := by simp
  have hpoint : ∀ {digits : List Char}, (∀ c ∈ digits, c.isDigit = true) →
      ∀ c ∈ digits.getLast?, (c == '.') = false := fun hdigits c hc =>
    beq_false_of_ne (ne_point_of_isDigit (hdigits c (List.mem_of_mem_getLast? hc)))
  rw [trimFraction, if_pos (by simp), hassoc, dropEnd_append_of_all (by simp)]
  by_cases hnil : kept = []
  case pos =>
    subst hnil
    have hzero : dropEnd (· == '0') (whole ++ ['.']) = whole ++ ['.'] :=
      dropEnd_eq_self (by simp)
    rw [hzero, dropEnd_append_of_all (by simp), dropEnd_eq_self (hpoint hwhole), if_pos rfl]
  case neg =>
    have hend : (whole ++ '.' :: kept).getLast? = kept.getLast? := by
      simp [List.getLast?_append, List.getLast?_cons, List.getLast?_eq_some_getLast hnil]
    have hzero : dropEnd (· == '0') (whole ++ '.' :: kept) = whole ++ '.' :: kept := by
      refine dropEnd_eq_self fun c hc => beq_false_of_ne fun heq => hlast ?_
      rw [← heq, ← hend, hc]
    rw [hzero, dropEnd_eq_self (hend ▸ hpoint hkept), if_neg hnil]

/-- **The numeral of a number with no zero and no point too many**: a whole number and then, unless
it is empty, a fraction that does not end with a zero. -/
inductive Canonical : List Char → Rat → Prop where
  | mk {whole fraction : List Char} : IsWhole whole → (∀ c ∈ fraction, c.isDigit = true) →
    fraction.getLast? ≠ some '0' →
    Canonical (if fraction = [] then whole else whole ++ '.' :: fraction)
      (natural (whole ++ fraction) / 10 ^ (fraction.length : Int))

theorem Canonical.plain {text : List Char} {q : Rat} (h : Canonical text q) : Plain text q := by
  cases h with
  | @mk whole fraction hwhole hfraction =>
    split
    case isTrue hnil =>
      subst hnil
      rw [List.append_nil, List.length_nil, div_ten_zpow_zero]
      exact .whole hwhole
    case isFalse hne => exact .point hwhole hne hfraction

/-- **Dropping trailing zeros keeps the number** and leaves none. -/
theorem Plain.canonical_trimFraction {text : List Char} {q : Rat} (h : Plain text q) :
    Canonical (trimFraction text) q := by
  cases h with
  | whole hwhole =>
    have hpoint : '.' ∉ text := fun hmem => ne_point_of_isDigit (hwhole.isDigit '.' hmem) rfl
    have hcanonical := @Canonical.mk text [] hwhole (by simp) (by simp)
    rw [if_pos rfl, List.append_nil, List.length_nil, div_ten_zpow_zero] at hcanonical
    rwa [trimFraction, if_neg (by simpa using hpoint)]
  | @point whole fraction hwhole hne hfraction =>
    obtain ⟨kept, count, rfl, hlast⟩ := exists_zeros fraction
    have hkept : ∀ c ∈ kept, c.isDigit = true :=
      fun c hc => hfraction c (List.mem_append_left _ hc)
    have hten : ∀ n : Nat, (10 : Rat) ^ n ≠ 0 := fun n => Rat.ne_of_gt (Rat.pow_pos (by decide))
    have hvalue : (natural (whole ++ (kept ++ List.replicate count '0')) : Rat)
        / 10 ^ ((kept ++ List.replicate count '0').length : Int)
        = natural (whole ++ kept) / 10 ^ (kept.length : Int) := by
      rw [← List.append_assoc, natural_append_replicate, List.length_append, List.length_replicate,
        Int.natCast_add, Rat.zpow_add (by decide), Rat.zpow_natCast, Rat.zpow_natCast]
      simp only [Rat.natCast_mul, Rat.natCast_pow]
      grind
    rw [trimFraction_point hwhole.isDigit hkept hlast, hvalue]
    exact .mk hwhole hkept hlast

end Numeral

/-- **Positional notation is the canonical numeral of the decimal's value.** -/
theorem Decimal.positional_canonical (d : Decimal) : Numeral.Canonical d.positional d.toRat := by
  have hcanonical := (Numeral.fixed_plain (d.coefficient * 10 ^ d.exponent.toNat)
    (-d.exponent).toNat).canonical_trimFraction
  have hvalue : ((d.coefficient * 10 ^ d.exponent.toNat : Nat) : Rat)
      / 10 ^ ((-d.exponent).toNat : Int) = d.toRat := by
    rw [toRat]
    obtain ⟨n, hn⟩ := Int.eq_nat_or_neg d.exponent
    rcases hn with hn | hn
    · have hnone : (-(n : Int)).toNat = 0 := by omega
      rw [hn, Int.toNat_natCast, hnone, Numeral.div_ten_zpow_zero, Rat.zpow_natCast,
        Rat.natCast_mul, Rat.natCast_pow, Rat.natCast_ofNat]
    · have hnone : (-(n : Int)).toNat = 0 := by omega
      rw [hn, Int.neg_neg, Int.toNat_natCast, hnone, Nat.pow_zero, Nat.mul_one, Rat.zpow_neg,
        Rat.div_def]
  rwa [hvalue] at hcanonical

end Calculator
