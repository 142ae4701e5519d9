import Calculator.Terminal.Style
import Calculator.Text.Blank
import Calculator.Text.Width

/-!
# Styled text

A line of text is made of spans, each in one style.  For drawing a span is cut into glyphs: a glyph
is what goes into one cell, a character together with the marks that belong to it and with a sign
that is set in front of it.  Invisible characters may be glyphs of their own that take no column,
and a line break inside a span is no glyph.
-/

namespace Calculator.Terminal

open Text

/-- **Text in one style.** -/
structure Span where
  text : List Char
  style : Style := {}
deriving DecidableEq

/-- A line of styled text. -/
abbrev TextLine := List Span

/-- The span of a string. -/
def Span.of (text : String) (style : Style := {}) : Span := ⟨text.toList, style⟩

/-- A line of one span. -/
def TextLine.of (text : String) (style : Style := {}) : TextLine := [Span.of text style]

/-- **What goes into one cell.** -/
structure Glyph where
  symbol : List Char
  style : Style
deriving DecidableEq

namespace Glyph

/-- The columns that a glyph takes. -/
def width (g : Glyph) : Nat := Text.width g.symbol

/-- Whether a glyph separates words: blanks do, but not the one that forbids a break. -/
def isBlank (g : Glyph) : Bool := allBlank g.symbol && g.symbol != ['\u00a0']

/-- The columns that a sequence of glyphs takes. -/
def totalWidth : List Glyph → Nat
  | [] => 0
  | g :: rest => g.width + totalWidth rest

@[simp] theorem totalWidth_nil : totalWidth [] = 0 := rfl

@[simp] theorem totalWidth_cons (g : Glyph) (gs : List Glyph) :
    totalWidth (g :: gs) = g.width + totalWidth gs := rfl

@[simp] theorem totalWidth_append (a b : List Glyph) :
    totalWidth (a ++ b) = totalWidth a + totalWidth b := by
  induction a with
  | nil => simp
  | cons g rest ih => simp [ih, Nat.add_assoc]

end Glyph

/-- The symbols of a text: each character takes along the marks after it and what precedes it. -/
def symbolsOf : List Char → List (List Char)
  | [] => []
  | c :: rest =>
    match symbolsOf rest with
    | (mark :: marks) :: more =>
      if attachesLeft mark || attachesRight c then (c :: mark :: marks) :: more
      else [c] :: (mark :: marks) :: more
    | more => [c] :: more

@[simp] theorem flatten_symbolsOf (text : List Char) : (symbolsOf text).flatten = text := by
  induction text with
  | nil => rfl
  | cons c rest ih =>
    rw [symbolsOf]
    split
    next mark marks more h =>
      rw [h] at ih
      split <;> simp_all
    next => simp [ih]

/-- The glyphs of a span. -/
def Span.glyphs (s : Span) : List Glyph :=
  ((symbolsOf s.text).filter (· != ['\n'])).map fun symbol => ⟨symbol, s.style⟩

/-- **The glyphs of a line.** -/
def TextLine.glyphs (line : TextLine) : List Glyph := line.flatMap Span.glyphs

end Calculator.Terminal
