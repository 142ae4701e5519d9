import Calculator.Terminal.Screen
import Calculator.Terminal.Wrap

/-!
# Paragraphs and frames

A paragraph is a sequence of rows of glyphs that is drawn into an area, aligned to the left, to the
right or in the centre.  Where it is scrolled, the drawing counts rows in 16 bits and breaks off if
they do not suffice.  A frame is a border around an area with an optional title in its upper
edge.
-/

namespace Calculator.Terminal

/-! ## Paragraphs -/

/-- Where the rows of a paragraph stand in their area. -/
inductive Alignment where
  | left
  | centre
  | right
deriving DecidableEq

/-- The first column of a row of the given width. -/
def Alignment.offset (a : Alignment) (columns width : Nat) : Nat :=
  match a with
  | left => 0
  | centre => columns / 2 - width / 2
  | right => columns - width

namespace Screen

/-- Draws glyphs side by side; those that take no column are left out. -/
def drawGlyphs (s : Screen) (x y : Nat) : List Glyph → Screen
  | [] => s
  | g :: rest =>
    if g.width = 0 then drawGlyphs s x y rest
    else drawGlyphs (s.put x y g.symbol g.style) (x + g.width) y rest

/-- Draws rows one below the other from row `y` on, aligned in an area. -/
def drawRows (s : Screen) (a : Area) (alignment : Alignment) (y : Nat) :
    List (List Glyph) → Screen
  | [] => s
  | row :: rest =>
    let x := a.x + alignment.offset a.width (Glyph.totalWidth row)
    drawRows (s.drawGlyphs x y row) a alignment (y + 1) rest

/-- **Draws rows into an area**; rows that find no place below are not drawn. -/
def drawParagraph (s : Screen) (a : Area) (alignment : Alignment) (rows : List (List Glyph)) :
    Screen :=
  if a.width = 0 then s else s.drawRows a alignment a.y (rows.take a.height)

/-- **Draws rows into an area, scrolled down.**  The rows up to the last one that is seen are
counted in 16 bits, and there is no drawing where their number overflows.  They are counted at all
only if there is a row to draw and room for it. -/
def drawScrolled (s : Screen) (a : Area) (alignment : Alignment) (scroll : Nat)
    (rows : List (List Glyph)) : Option Screen :=
  if rows.isEmpty || a.width = 0 || a.height = 0 || a.height + scroll < 0x10000 then
    some (s.drawParagraph a alignment (rows.drop scroll))
  else none

/-- Draws lines into an area, each cut at its width. -/
def drawLines (s : Screen) (a : Area) (alignment : Alignment) (lines : List TextLine) : Screen :=
  s.drawParagraph a alignment (lines.map fun line => truncate a.width 0 line.glyphs)

end Screen

/-- **Lines broken into rows**, in order. -/
def wrapLines (columns : Nat) (lines : List TextLine) : List (List Glyph) :=
  lines.flatMap fun line => wrap columns line.glyphs

/-! ## Frames -/

/-- The characters of a border. -/
structure Border where
  topLeft : Char
  topRight : Char
  bottomLeft : Char
  bottomRight : Char
  horizontal : Char
  vertical : Char

namespace Border

/-- A thin border. -/
def thin : Border := ⟨'┌', '┐', '└', '┘', '─', '│'⟩

/-- A thin border with round corners. -/
def rounded : Border := ⟨'╭', '╮', '╰', '╯', '─', '│'⟩

/-- A double border. -/
def double : Border := ⟨'╔', '╗', '╚', '╝', '═', '║'⟩

/-- The character of the border at a cell of an area, if the cell lies on it.  Where sides meet in
an area of one column or one row, corners go before sides and the upper left corner before all. -/
def at? (b : Border) (a : Area) (x y : Nat) : Option Char :=
  let left := x == a.x
  let right := x + 1 == a.right
  let top := y == a.y
  let bottom := y + 1 == a.bottom
  if left && top then some b.topLeft
  else if left && bottom then some b.bottomLeft
  else if right && top then some b.topRight
  else if right && bottom then some b.bottomRight
  else if bottom || top then some b.horizontal
  else if right || left then some b.vertical
  else none

end Border

/-- **A frame.** -/
structure Frame where
  border : Border := .thin
  borderStyle : Style := {}
  /-- The style of the whole area, the border included. -/
  style : Style := {}
  title : String := ""

namespace Screen

/-- Draws a border along the edge of an area. -/
def drawBorder (s : Screen) (a : Area) (border : Border) (style : Style) : Screen :=
  (List.range a.height).foldl (fun s j =>
    (List.range a.width).foldl (fun s i =>
      match border.at? a (a.x + i) (a.y + j) with
      | some c => s.put (a.x + i) (a.y + j) [c] style
      | none => s) s) s

/-- **Draws a frame.**  The title stands in the middle of the upper edge, between the corners, and
does not change the style of the border. -/
def drawFrame (s : Screen) (a : Area) (frame : Frame) : Screen :=
  if a.width = 0 || a.height = 0 then s
  else
    let title := (TextLine.of frame.title).glyphs
    let x := a.x + (a.width - Glyph.totalWidth title) / 2
    let room := min (a.width - 2) (a.right - x)
    ((s.paint a frame.style).drawBorder a frame.border frame.borderStyle).drawGlyphs x a.y
      (truncate room 0 title)

end Screen

end Calculator.Terminal
