import Calculator.Terminal.Paragraph

/-!
# The help

The help is one framed paragraph that fills the screen.  Its lines are broken at the width of the
frame, and scrolling leaves out rows at the top.  The drawing knows only the last 16 bits of the
count of rows left out, and it breaks off where the rows of the screen and these make more than 16
bits can count.
-/

namespace Calculator.Keypad

open Terminal

/-- A heading of the help. -/
def heading (text : String) : TextLine :=
  TextLine.of text { foreground := some .cyan, underlined := true }

/-- **The lines of the help.** -/
def helpText : List TextLine :=
  [ TextLine.of "SafeCalc - Arithmetic Only" (.boldInk .green),
    [],
    heading "Operations:",
    TextLine.of "  +  : Addition        (e.g., 5 + 3 = 8)",
    TextLine.of "  -  : Subtraction     (e.g., 10 - 4 = 6)",
    TextLine.of "  *  : Multiplication  (e.g., 6 * 7 = 42)",
    TextLine.of "  /  : Division        (e.g., 15 / 4 = 3.75)",
    TextLine.of "  // : Floor division  (e.g., -7 // 2 = -4)",
    TextLine.of "  %  : Modulo          (e.g., -7 % 3 = 2)",
    TextLine.of "  ** : Power           (e.g., 2 ** 3 ** 2 = 512)",
    TextLine.of "  ( ) : Grouping       (e.g., (2 + 3) * 4 = 20)",
    [],
    heading "Precedence (lowest first):",
    TextLine.of "  + -  then  * / // %  then  unary + -  then  **",
    TextLine.of "  -2 ** 2 = -4,   2 ** -1 = 0.5",
    [],
    heading "Not allowed:",
    TextLine.of "  names, function calls, strings, comparisons,",
    TextLine.of "  scientific notation (1e5)",
    [],
    heading "Keys:",
    TextLine.of "  0-9 . + - * / % ( ) : Type expression",
    TextLine.of "  Enter or =  : Calculate",
    TextLine.of "  Backspace   : Delete last character",
    TextLine.of "  Esc         : Clear",
    TextLine.of "  Ctrl+C      : Copy result",
    TextLine.of "  Ctrl+Q      : Quit",
    TextLine.of "  Mouse click : Press keypad buttons",
    TextLine.of "  F1 / Esc    : Close this help",
    [],
    heading "Results:",
    TextLine.of "  Shown with up to 10 significant digits.",
    TextLine.of "  On error the expression is kept so it can be fixed." ]

/-- The frame of the help. -/
def helpFrame : Frame where
  border := .double
  borderStyle := .ink .yellow
  style := .paper .black
  title := " SafeCalc Help "

/-- How many rows are left out at a scroll position. -/
def skippedRows (scroll : Nat) : Nat := scroll % 0x10000

/-- **Draws the help**, scrolled down. -/
def drawHelp (scroll : Nat) (screen : Screen) : Option Screen :=
  let inside := screen.area.inside
  (screen.drawFrame screen.area helpFrame).drawScrolled inside .left (skippedRows scroll)
    (wrapLines inside.width helpText)

end Calculator.Keypad
