import Calculator.Keypad.Event
import Calculator.Keypad.View

/-!
# The loop

The calculator runs in a loop: the screen is drawn, the next event is awaited, and the event changes
the state.  The window may change its size between any two drawings, and the clipboard may work at
one time and fail at another, so a `Turn` has a size and a clipboard of its own.

A drawing that breaks off ends the program, and there is no state behind it.
-/

namespace Calculator.Keypad

open Terminal

/-- **A turn of the loop**: the size of the screen that is drawn, the event that comes then, and
what the clipboard does if the event copies something. -/
structure Turn where
  size : Size
  clipboard : Clipboard
  event : Event
deriving DecidableEq

namespace State

/-- **The state behind a drawing**, if the drawing does not break off. -/
def draw (s : State) (size : Size) : Option State := (s.view size).map fun _ => s.refresh size

/-- **A run of the loop**, up to the last drawing, which has the size `last` if the run gets there.
Once the program is to quit, no event is handled any more. -/
def run (s : State) (last : Size) : List Turn → Option State
  | [] => s.draw last
  | t :: rest => do
    let drawn ← s.draw t.size
    if drawn.shouldQuit then some drawn
    else (drawn.handle t.clipboard t.event).run last rest

end State

end Calculator.Keypad
