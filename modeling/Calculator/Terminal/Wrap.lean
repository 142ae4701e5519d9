import Calculator.Terminal.Glyph

/-!
# Fitting lines into a width

A line that is too long is either cut (`truncate`) or broken between words (`wrap`).

Wrapping reads the glyphs of a line one by one and keeps three sequences: the **row** that is being
filled, the **blanks** after it and the **word** after those.  A word joins the row when the blank
after it arrives.  When the row is full it is given out, and the blanks at the break are dropped as
far as they would have filled the rest of the row.  A word longer than a row is broken where the row
ends.
-/

namespace Calculator.Terminal

open Glyph

/-! ## Cutting -/

/-- **A line cut at a width.** The first glyph that does not fit ends the line; one that is wider
than the whole width is passed over. -/
def truncate (columns : Nat) : (used : Nat) → List Glyph → List Glyph
  | _, [] => []
  | used, g :: rest =>
    if columns < g.width then truncate columns used rest
    else if columns < used + g.width then []
    else g :: truncate columns (used + g.width) rest

/-! ## Breaking -/

/-- The state of wrapping. -/
structure Wrapping where
  /-- The rows given out, the last one first. -/
  rows : List (List Glyph) := []
  row : List Glyph := []
  blanks : List Glyph := []
  word : List Glyph := []
  /-- Whether the last glyph belongs to a word. -/
  inWord : Bool := false

namespace Wrapping

/-- Puts the word behind the row; blanks at the start of a row are left out. -/
def joinWord (w : Wrapping) : Wrapping :=
  { w with
    row := if w.row.isEmpty then w.word else w.row ++ w.blanks ++ w.word
    blanks := []
    word := [] }

/-- Gives out the row. -/
def emitRow (w : Wrapping) : Wrapping := { w with rows := w.row :: w.rows, row := [] }

/-- Drops the blanks that fill `room` columns, and the first one that does not fit any more.  The
flag says whether the blanks ran out before one did not fit. -/
def dropBlanks (room : Nat) : List Glyph → List Glyph × Bool
  | [] => ([], true)
  | g :: rest => if room < g.width then (rest, false) else dropBlanks (room - g.width) rest

/-- Whether the word is complete, or cannot go on, before the glyph `g`. -/
def endsWord (columns : Nat) (w : Wrapping) (g : Glyph) : Bool :=
  (w.inWord && g.isBlank) ||
    (w.row.isEmpty && columns < totalWidth w.word + g.width) ||
    (w.row.isEmpty && columns < totalWidth w.blanks + g.width)

/-- Whether the row has no room for the glyph `g`. -/
def isFull (columns : Nat) (w : Wrapping) (g : Glyph) : Bool :=
  columns ≤ totalWidth w.row ||
    (columns ≤ totalWidth w.row + totalWidth w.blanks + totalWidth w.word && 0 < g.width)

/-- Takes a glyph in, as a blank or as part of the word. -/
def take (w : Wrapping) (g : Glyph) : Wrapping :=
  if g.isBlank then { w with blanks := w.blanks ++ [g], inWord := false }
  else { w with word := w.word ++ [g], inWord := true }

/-- **One step of wrapping.** -/
def step (columns : Nat) (w : Wrapping) (g : Glyph) : Wrapping :=
  if columns < g.width then w
  else
    let w := if w.endsWord columns g then w.joinWord else w
    if w.isFull columns g then
      let room := columns - totalWidth w.row
      let (blanks, ranOut) := dropBlanks room w.blanks
      let w := { w.emitRow with blanks := blanks }
      if g.isBlank && ranOut then w else w.take g
    else w.take g

/-- Gives out what is left when the line ends; a line without glyphs has one empty row. -/
def finish (w : Wrapping) : List (List Glyph) :=
  let w :=
    if w.word.isEmpty && w.blanks.isEmpty then w
    else (if w.row.isEmpty && w.word.isEmpty then w.emitRow else w).joinWord
  let w := if w.row.isEmpty then w else w.emitRow
  if w.rows.isEmpty then [[]] else w.rows.reverse

end Wrapping

/-- **A line broken into rows** of at most `columns` columns. -/
def wrap (columns : Nat) (line : List Glyph) : List (List Glyph) :=
  (line.foldl (Wrapping.step columns) {}).finish

@[simp] theorem wrap_nil (columns : Nat) : wrap columns [] = [[]] := rfl

end Calculator.Terminal
