/-!
# Rounding a quotient to the nearest integer

Every number this library stores or prints is an exact quotient that is rounded **once**.  The
rounding is always the same: to the nearest integer, and a half goes to the even neighbour.
`roundQuotient` is that rounding on natural numbers, and the lemmas say what later modules need
of it: the result keeps every integer bound of the quotient, and a whole quotient is left alone.
-/

namespace Calculator

/-- **The integer nearest to `num / den`**, a half going to the even neighbour. -/
def roundQuotient (num den : Nat) : Nat :=
  let below := num / den
  let rest := num % den
  if 2 * rest < den then below
  else if den < 2 * rest then below + 1
  else below + below % 2

/-! ## Bounds -/

theorem div_le_roundQuotient (num den : Nat) : num / den ≤ roundQuotient num den := by
  simp only [roundQuotient]
  split
  · exact Nat.le_refl _
  · split
    · exact Nat.le_succ _
    · exact Nat.le_add_right _ _

theorem le_roundQuotient {num den c : Nat} (hden : 0 < den) (h : c * den ≤ num) :
    c ≤ roundQuotient num den :=
  Nat.le_trans ((Nat.le_div_iff_mul_le hden).2 h) (div_le_roundQuotient num den)

theorem roundQuotient_le {num den c : Nat} (hden : 0 < den) (h : num ≤ c * den) :
    roundQuotient num den ≤ c := by
  have hsplit := Nat.div_add_mod num den
  have hrest := Nat.mod_lt num hden
  have hbelow : num / den ≤ c := Nat.div_le_of_le_mul (by rwa [Nat.mul_comm])
  rcases Nat.lt_or_ge (num / den) c with hlt | hge
  · simp only [roundQuotient]
    have := Nat.mod_lt (num / den) (by decide : 0 < 2)
    split
    · omega
    · split <;> omega
  · have heq : num / den = c := Nat.le_antisymm hbelow hge
    have hzero : num % den = 0 := by
      rw [heq, Nat.mul_comm den c] at hsplit
      omega
    simp [roundQuotient, hzero, hden, heq]

@[simp] theorem roundQuotient_mul_left {den : Nat} (hden : 0 < den) (n : Nat) :
    roundQuotient (n * den) den = n :=
  Nat.le_antisymm (roundQuotient_le hden (Nat.le_refl _)) (le_roundQuotient hden (Nat.le_refl _))

@[simp] theorem roundQuotient_one (n : Nat) : roundQuotient n 1 = n := by
  simpa using roundQuotient_mul_left (by decide : 0 < 1) n

@[simp] theorem roundQuotient_zero_left (den : Nat) : roundQuotient 0 den = 0 := by
  simp only [roundQuotient, Nat.zero_div, Nat.zero_mod]
  split
  · rfl
  · split
    · omega
    · rfl

/-! ## Rationals -/

/-- **The integer nearest to a rational that is not negative**, a half going to the even
neighbour. -/
def roundNearest (q : Rat) : Nat := roundQuotient q.num.natAbs q.den

end Calculator
