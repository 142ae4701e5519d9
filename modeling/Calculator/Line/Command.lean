/-!
# Commands of the line session

A submitted line is a command if it is, up to letter case, one of a few words; anything else is an
expression.  Only ASCII letters are lowered: no other character has a lower-case form made of the
letters of these words.
-/

namespace Calculator.Line

/-- **What a submitted line asks for.** -/
inductive Command where
  | quit
  | help
  | evaluate (expression : List Char)
deriving DecidableEq

/-- The command that a line stands for. -/
def Command.ofLine (line : List Char) : Command :=
  match String.ofList (line.map Char.toLower) with
  | "quit" | "exit" | "q" => quit
  | "help" => help
  | _ => evaluate line

end Calculator.Line
