import Calculator.Number.Binary64

/-!
# Numerals: the text of a number

A **numeral** is a run of decimal digits with at most one point in it: `7`, `7.`, `.5` or `7.25`.
This module writes natural numbers with a fixed count of places (`fixed`), removes the zeros that
say nothing (`trimFraction`) and reads numerals back as exact rationals (`read?`).  Texts are lists
of characters, because everything said about them goes by recursion on the list.

`fixed` writes all digits first and then sets the point, so that reading a numeral, which takes the
digits before and after the point together, gives back the very number that was written.
-/

namespace Calculator.Numeral

attribute [local instance (2000)] instPowNat

/-! ## Writing -/

/-- How many decimal digits a natural number has; zero has one. -/
def digitCount (n : Nat) : Nat := (Nat.toDigits 10 n).length

/-- **The number `n / 10 ^ places`** with exactly that many digits after the point, and no point
when there are none.  At least one digit stands before the point. -/
def fixed (n places : Nat) : List Char :=
  let digits := (Nat.toDigits 10 n).leftpad (places + 1) '0'
  let whole := digits.length - places
  if places = 0 then digits else digits.take whole ++ '.' :: digits.drop whole

/-- Drops the characters at the end that satisfy `p`. -/
def dropEnd (p : Char → Bool) (text : List Char) : List Char := (text.reverse.dropWhile p).reverse

/-- **Trailing zeros after a point say nothing**, and neither does a point with nothing after
it.  The zeros of a whole number stay. -/
def trimFraction (text : List Char) : List Char :=
  if text.contains '.' then dropEnd (· == '.') (dropEnd (· == '0') text) else text

/-! ## Reading -/

/-- The natural number that a run of digits stands for. -/
def natural (digits : List Char) : Nat := Nat.ofDigitChars 10 digits 0

/-- **Reads a numeral** as an exact rational: digits, at most one point, and at least one digit on
either side of it.  Any other text is no numeral. -/
def read? (text : List Char) : Option Rat :=
  let whole := text.takeWhile Char.isDigit
  match text.dropWhile Char.isDigit with
  | [] => if whole.isEmpty then none else some (natural whole)
  | c :: fraction =>
    if c == '.' && fraction.all Char.isDigit && !(whole ++ fraction).isEmpty then
      some (natural (whole ++ fraction) / 10 ^ (fraction.length : Int))
    else none

end Calculator.Numeral

namespace Calculator

/-- **The number that a numeral stands for**, correctly rounded; infinite if it is too large. -/
def Binary64.ofNumeral? (text : List Char) : Option Binary64 :=
  (Numeral.read? text).map (Binary64.ofRat false)

end Calculator
