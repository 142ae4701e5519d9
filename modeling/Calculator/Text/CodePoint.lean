/-!
# Sets of code points

A property of characters is given as a list of ranges of code points, in ascending order, and asked
for with `CodePointSet.has`.  The sets themselves stand in the modules that use them, each under the
name of the property it follows; they are those of version 16 of the Unicode Standard.
-/

namespace Calculator.Text

/-- **A set of code points**: ranges with their first and last member. -/
abbrev CodePointSet := List (Nat × Nat)

/-- Whether a character belongs to a set. -/
def CodePointSet.has (set : CodePointSet) (c : Char) : Bool :=
  set.any fun (first, last) => first ≤ c.toNat && c.toNat ≤ last

@[simp] theorem CodePointSet.has_nil (c : Char) : CodePointSet.has [] c = false := rfl

@[simp] theorem CodePointSet.has_append (a b : CodePointSet) (c : Char) :
    CodePointSet.has (a ++ b) c = (CodePointSet.has a c || CodePointSet.has b c) :=
  List.any_append

end Calculator.Text
