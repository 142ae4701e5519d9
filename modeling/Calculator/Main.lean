import Calculator.CommandLine.Run

/-!
# The program

Runs the command on the arguments and writes its answer.
-/

open Calculator in
/-- Writes what the command answers and exits with its code. -/
def main (arguments : List String) : IO UInt32 := do
  let answer := CommandLine.run arguments
  IO.print answer.stdout
  IO.eprint answer.stderr
  return answer.code
