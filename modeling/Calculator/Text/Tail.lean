import Calculator.Text.Width

/-!
# The end of a text

A text that is longer than the place for it is shown from its end, after an ellipsis.  Whether it is
longer is a question of the whole text (`width`); where it is cut, one of its characters
(`columns`).
-/

namespace Calculator.Text

/-- As much of the front of a text as fits into `room` columns, up to the first character that does
not fit. -/
def fit (room : Nat) : List Char → List Char
  | [] => []
  | c :: rest => if charWidth c ≤ room then c :: fit (room - charWidth c) rest else []

theorem columns_fit_le (room : Nat) (text : List Char) : columns (fit room text) ≤ room := by
  induction text generalizing room with
  | nil => exact Nat.zero_le _
  | cons c rest ih =>
    simp only [fit]
    split
    next h =>
      have := ih (room - charWidth c)
      simp only [columns_cons]
      omega
    next => exact Nat.zero_le _

/-- **The end of a text within `room` columns.**  A text that fits is kept whole; otherwise an
ellipsis takes the first column and stands for what is missing. -/
def tail (text : List Char) (room : Nat) : List Char :=
  if width text ≤ room then text
  else if room = 0 then []
  else '…' :: (fit (room - 1) text.reverse).reverse

theorem columns_tail_le {text : List Char} {room : Nat} (h : room < width text) :
    columns (tail text room) ≤ room := by
  rw [tail, if_neg (Nat.not_le.2 h)]
  split
  · exact Nat.zero_le _
  · have := columns_fit_le (room - 1) text.reverse
    simp only [columns_cons, columns_reverse, charWidth_ellipsis]
    omega

end Calculator.Text
