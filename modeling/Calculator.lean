import Calculator.Evaluate
import Calculator.Expr.Grammar
import Calculator.Keypad.Loop
import Calculator.Line.Session
import Calculator.Main
import Calculator.Number.Shortest
import Calculator.Proofs.Blocks
import Calculator.Proofs.ErrorKinds
import Calculator.Proofs.FrontEnds
import Calculator.Proofs.Highlighting
import Calculator.Proofs.Keypad.Filter
import Calculator.Proofs.Keypad.HelpScroll
import Calculator.Proofs.Keypad.Sound
import Calculator.Proofs.Layout
import Calculator.Proofs.Line.Column
import Calculator.Proofs.Line.Conversation
import Calculator.Proofs.LongestEnd
import Calculator.Proofs.Number.Notation
import Calculator.Proofs.Parentheses
import Calculator.Proofs.Parser.Resources
import Calculator.Proofs.Shown
import Calculator.Proofs.WholeNumbers
import Calculator.Proofs.ZeroSign
