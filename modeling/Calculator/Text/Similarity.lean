import Calculator.Number.Arithmetic

/-!
# How similar two words are

The similarity of two words is a number from zero to one.  Characters match if they are
equal and stand at about the same place, and matching characters that stand in a different order
count less.  `closest?` uses it to guess which one of a few words was meant.
-/

namespace Calculator.Text

/-! ## Matching characters -/

/-- **The matches of two words.** Each character of the first takes the first equal character of the
second that is not taken and at most `reach` places away; `i` is the place of the next character.
The first list of the result are the characters of the first word that match, and the second list
are the characters of the second word with a mark on those that were taken. -/
def matchFrom (reach i : Nat) (word : List Char) (other : List (Char × Bool)) :
    List Char × List (Char × Bool) :=
  match word with
  | [] => ([], other)
  | c :: rest =>
    let place := other.zipIdx.findIdx fun ((d, taken), j) =>
      d == c && !taken && i ≤ j + reach && j ≤ i + reach
    if place < other.length then
      let other := other.modify place fun (d, _) => (d, true)
      let (matched, other) := matchFrom reach (i + 1) rest other
      (c :: matched, other)
    else matchFrom reach (i + 1) rest other

/-- How far matching characters may be away from each other. -/
def reachOf (a b : List Char) : Nat := max a.length b.length / 2 - 1

/-- The matching characters of two words, in the order of each. -/
def matching (a b : List Char) : List Char × List Char :=
  let (inFirst, marked) := matchFrom (reachOf a b) 0 a (b.map (·, false))
  (inFirst, (marked.filter (·.2)).map (·.1))

/-! ## Similarity -/

/-- **The similarity of two words**: the mean of the part of each word that matches and the part of
the matches that is in order. -/
def similarity (a b : List Char) : Binary64 :=
  if a.isEmpty && b.isEmpty then .one
  else
    let (inFirst, inSecond) := matching a b
    let count := inFirst.length
    let displaced := ((inFirst.zip inSecond).filter fun (c, d) => c != d).length / 2
    let part (n total : Nat) : Binary64 := .ofRat false n / .ofRat false total
    if count = 0 then .zero
    else
      (part count a.length + part count b.length + part (count - displaced) count) /
        .ofRat false 3

/-- Words below this similarity are not taken for one another. -/
def similarEnough : Binary64 := .ofRat false (7 / 10)

/-- **The word that was probably meant**: the most similar one, and the last one of several. -/
def closest? (word : List Char) (candidates : List String) : Option String :=
  (candidates.foldl
    (fun best candidate =>
      let similar := similarity word candidate.toList
      match best with
      | some (_, most) => if similar.lt most then best else some (candidate, similar)
      | none => if similarEnough.lt similar then some (candidate, similar) else none)
    none).map (·.1)

end Calculator.Text
