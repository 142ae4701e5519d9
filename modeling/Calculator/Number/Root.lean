import Calculator.Number.Arithmetic

/-!
# Square roots

`wholeRoot` is the whole part of the square root of a natural number, found one binary digit at a
time.  `Binary64.sqrt` rounds the exact root of a number once, like every other operation: on the
grid of units the root of any number but zero has hundreds of digits before the point, so the one
fact about the rest that rounding can ask for is whether there is any.
-/

namespace Calculator

/-! ## Whole roots -/

/-- **The whole part of a square root.**  The root of a fourth gives all binary digits but the
last. -/
def wholeRoot (n : Nat) : Nat :=
  if h : n = 0 then 0
  else
    let root := 2 * wholeRoot (n / 4)
    if (root + 1) * (root + 1) ≤ n then root + 1 else root
termination_by n
decreasing_by omega

@[simp] theorem wholeRoot_zero : wholeRoot 0 = 0 := by
  simp [wholeRoot]

/-- The whole root lies between the root less one and the root. -/
theorem wholeRoot_bounds (n : Nat) :
    wholeRoot n * wholeRoot n ≤ n ∧ n < (wholeRoot n + 1) * (wholeRoot n + 1) := by
  induction n using Nat.strongRecOn with
  | ind n ih =>
    rw [wholeRoot]
    split
    next h => simp [h]
    next h =>
      obtain ⟨hbelow, habove⟩ := ih (n / 4) (by omega)
      simp only [Nat.add_mul, Nat.mul_add, Nat.mul_one, Nat.one_mul] at habove ⊢
      have hdouble : 2 * wholeRoot (n / 4) * (2 * wholeRoot (n / 4))
          = 4 * (wholeRoot (n / 4) * wholeRoot (n / 4)) := by
        rw [Nat.mul_mul_mul_comm]
      rw [hdouble]
      split
      · simp only [Nat.add_mul, Nat.mul_add, Nat.mul_one, Nat.one_mul, hdouble]
        omega
      · rw [hdouble]
        omega

/-! ## Roots of binary64 numbers -/

namespace Binary64

/-- The number nearest to a natural number. -/
def ofNat (n : Nat) : Binary64 := ofRat false n

/-- The whole part of a number that is not negative. -/
def wholePart : Binary64 → Nat
  | finite false m => m.units / unitsPerOne
  | _ => 0

/-- **The square root.**  A negative number has none; the root of a zero is that zero. -/
def sqrt : Binary64 → Binary64
  | nan | infinite true => nan
  | infinite false => infinite false
  | finite negative m =>
    if m.mantissa = 0 then finite negative m
    else if negative then nan
    else
      let square := m.units * unitsPerOne
      let root := wholeRoot square
      let rest := if root * root = square then 0 else 1
      ofMagnitude false (Magnitude.nearest (2 * root + rest) 2 Nat.two_pos)

end Binary64

end Calculator
