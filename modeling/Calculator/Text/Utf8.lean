/-!
# Characters and their UTF-8 places

A text that is edited by characters but stored as UTF-8 is cut at **byte offsets**.  `byteOffset`
turns a count of characters into such an offset, and `splitAtByte?` cuts a text at an offset, which
succeeds only between two characters.  The main fact is that the two belong together: the offset of
a count of characters always lies between two characters and cuts the text at that count.
-/

namespace Calculator.Text

/-- The length of a text in UTF-8. -/
def utf8Length : List Char → Nat
  | [] => 0
  | c :: rest => c.utf8Size + utf8Length rest

@[simp] theorem utf8Length_nil : utf8Length [] = 0 := rfl

@[simp] theorem utf8Length_cons (c : Char) (text : List Char) :
    utf8Length (c :: text) = c.utf8Size + utf8Length text := rfl

/-- **The byte offset of the character at `index`**, or of the end if there is none. -/
def byteOffset (text : List Char) (index : Nat) : Nat := utf8Length (text.take index)

/-- **Cuts a text at a byte offset**; `none` inside a character and beyond the end. -/
def splitAtByte? : Nat → List Char → Option (List Char × List Char)
  | 0, text => some ([], text)
  | _ + 1, [] => none
  | offset + 1, c :: rest =>
    if c.utf8Size ≤ offset + 1 then
      (splitAtByte? (offset + 1 - c.utf8Size) rest).map fun (before, after) => (c :: before, after)
    else none

/-- **Cutting at the offset of a count of characters is cutting at that count.** -/
@[simp] theorem splitAtByte?_byteOffset (text : List Char) (index : Nat) :
    splitAtByte? (byteOffset text index) text = some (text.take index, text.drop index) := by
  induction text generalizing index with
  | nil => simp [byteOffset, splitAtByte?]
  | cons c rest ih =>
    cases index with
    | zero => simp [byteOffset, splitAtByte?]
    | succ index =>
      have hsize : byteOffset (c :: rest) (index + 1) = c.utf8Size + byteOffset rest index := by
        simp [byteOffset]
      obtain ⟨k, hk⟩ : ∃ k, c.utf8Size = k + 1 :=
        ⟨c.utf8Size - 1, (Nat.sub_add_cancel c.utf8Size_pos).symm⟩
      have hnext : c.utf8Size + byteOffset rest index = (k + byteOffset rest index) + 1 := by
        omega
      rw [hsize, hnext, splitAtByte?, if_pos (by omega)]
      have hrest : k + byteOffset rest index + 1 - c.utf8Size = byteOffset rest index := by omega
      simp [hrest, ih]

/-- Puts a character in front of the one at `index`, by way of its byte offset. -/
def insertAt? (text : List Char) (index : Nat) (c : Char) : Option (List Char) :=
  (splitAtByte? (byteOffset text index) text).map fun (before, after) => before ++ c :: after

/-- Takes out the character at `index`, if there is one, by way of its byte offset. -/
def removeAt? (text : List Char) (index : Nat) : Option (List Char) :=
  (splitAtByte? (byteOffset text index) text).map fun (before, after) => before ++ after.drop 1

@[simp] theorem insertAt?_eq (text : List Char) (index : Nat) (c : Char) :
    insertAt? text index c = some (text.take index ++ c :: text.drop index) := by
  simp [insertAt?]

@[simp] theorem removeAt?_eq (text : List Char) (index : Nat) :
    removeAt? text index = some (text.take index ++ text.drop (index + 1)) := by
  simp [removeAt?]

end Calculator.Text
