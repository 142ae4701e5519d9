/-!
# Colours and styles

A cell of a screen always has a complete `Look`.  What is drawn on it brings a `Style`, which says
only what it changes: a colour that is not given stays as it was, and bold or underlined text stays
bold or underlined.
-/

namespace Calculator.Terminal

/-- **A colour**: the terminal's own, one of its named colours, or a mix of red, green and blue. -/
inductive Color where
  | reset
  | black
  | red
  | green
  | yellow
  | cyan
  | darkGray
  | lightGreen
  | white
  | rgb (red green blue : UInt8)
deriving DecidableEq

/-- **What is changed about a cell.** -/
structure Style where
  foreground : Option Color := none
  background : Option Color := none
  bold : Bool := false
  underlined : Bool := false
deriving DecidableEq

/-- **How a cell looks.** -/
structure Look where
  foreground : Color := .reset
  background : Color := .reset
  bold : Bool := false
  underlined : Bool := false
deriving DecidableEq

namespace Style

/-- The style that changes nothing. -/
def plain : Style := {}

/-- Text in a colour. -/
def ink (color : Color) : Style := { foreground := some color }

/-- Bold text in a colour. -/
def boldInk (color : Color) : Style := { foreground := some color, bold := true }

/-- A background. -/
def paper (color : Color) : Style := { background := some color }

end Style

/-- Applies a style. -/
def Look.with (look : Look) (style : Style) : Look where
  foreground := style.foreground.getD look.foreground
  background := style.background.getD look.background
  bold := look.bold || style.bold
  underlined := look.underlined || style.underlined

@[simp] theorem Look.with_plain (look : Look) : look.with .plain = look := by
  cases look
  simp [Look.with, Style.plain]

end Calculator.Terminal
