import Calculator.Keypad.State
import Calculator.Proofs.FullText

/-!
# Typing character by character

Each key goes through the filter on its own, so a text is typed as it is only if the filter lets
through every character of it.  `acceptsAll` follows the filter along a text, and
`State.input_typeText` says that an accepted text is appended.  The filter never objects to a
literal, and after a digit to no operator.
-/

namespace Calculator.Keypad

variable {typed : List Char}

/-- Whether the filter lets through a whole text; `typed` is the expression read backwards. -/
def acceptsAll (typed : List Char) : List Char → Bool
  | [] => true
  | c :: rest => accepts typed c && acceptsAll (c :: typed) rest

/-- **Types a text**, one key for each character. -/
def State.typeText (s : State) (text : List Char) : State :=
  text.foldl (fun s c => s.press c.toString) s

theorem acceptsToken_toString (input : String) (c : Char) :
    acceptsToken input c.toString = accepts input.toList.reverse c := by
  have hsingle : c.toString.toList = [c] := by simp [Char.toString]
  rw [acceptsToken, hsingle]

/-- **An accepted text is appended** to the expression. -/
theorem State.input_typeText {s : State} {text : List Char}
    (h : acceptsAll s.input.toList.reverse text = true) :
    (s.typeText text).input.toList = s.input.toList ++ text := by
  induction text generalizing s with
  | nil => simp [typeText]
  | cons c rest ih =>
    obtain ⟨hc, hrest⟩ := Bool.and_eq_true_iff.1 h
    have hpress : (s.press c.toString).input.toList = s.input.toList ++ [c] := by
      rw [press, acceptsToken_toString, if_pos hc]
      simp [Char.toString]
    have htyped : acceptsAll (s.press c.toString).input.toList.reverse rest = true := by
      rw [hpress, List.reverse_append]
      exact hrest
    have hstep := ih htyped
    rw [hpress, List.append_assoc] at hstep
    exact hstep

theorem acceptsAll_append (front behind : List Char) :
    acceptsAll typed (front ++ behind) =
      (acceptsAll typed front && acceptsAll (front.reverse ++ typed) behind) := by
  induction front generalizing typed with
  | nil => simp [acceptsAll]
  | cons c rest ih => simp [acceptsAll, ih, Bool.and_assoc]

/-! ## The filtered characters -/

/-- The filtered characters. -/
def filteredCharacters : List Char := ['+', '-', '*', '/', '%', '.']

theorem isFiltered_iff {c : Char} : isFiltered c = true ↔ c ∈ filteredCharacters := by
  simp only [isFiltered, filteredCharacters, Bool.or_eq_true, beq_iff_eq, List.mem_cons,
    List.not_mem_nil, or_false, or_assoc]

/-! ## Numerals and operators -/

theorem isFiltered_eq_false_of_isDigit {c : Char} (h : c.isDigit = true) :
    isFiltered c = false := by
  have hall : filteredCharacters.all (!Char.isDigit ·) = true := by decide
  refine Bool.eq_false_iff.2 fun hfiltered => ?_
  have hnodigit := List.all_eq_true.1 hall c (isFiltered_iff.1 hfiltered)
  rw [h] at hnodigit
  cases hnodigit

theorem accepts_of_not_filtered {c : Char} (h : isFiltered c = false) : accepts typed c = true := by
  cases typed <;> simp [accepts, h]

theorem accepts_behind {last : Char} (h : isFiltered last = false) (c : Char) :
    accepts (last :: typed) c = true := by
  simp [accepts, h]

theorem acceptsAll_digits {digits : List Char} (h : ∀ c ∈ digits, c.isDigit = true) :
    acceptsAll typed digits = true := by
  induction digits generalizing typed with
  | nil => rfl
  | cons c rest ih =>
    obtain ⟨hc, hrest⟩ := List.forall_mem_cons.1 h
    rw [acceptsAll, accepts_of_not_filtered (isFiltered_eq_false_of_isDigit hc), ih hrest]
    rfl

/-- **A literal can be typed anywhere.** -/
theorem acceptsAll_plain {text : List Char} {q : Rat} (h : Numeral.Plain text q) :
    acceptsAll typed text = true := by
  cases h with
  | whole hwhole => exact acceptsAll_digits hwhole.isDigit
  | @point whole fraction hwhole _ hfraction =>
    -- the point stands behind the last digit of the whole number
    obtain ⟨front, last, hlast, hdigit⟩ := (Numeral.Plain.whole hwhole).exists_last
    have hpoint : accepts (whole.reverse ++ typed) '.' = true := by
      rw [hlast, List.reverse_concat, List.cons_append]
      exact accepts_behind (isFiltered_eq_false_of_isDigit hdigit) '.'
    rw [acceptsAll_append, acceptsAll_digits hwhole.isDigit, acceptsAll, hpoint,
      acceptsAll_digits hfraction]
    rfl

/-- **Any operator can be typed behind a digit**, key by key. -/
theorem acceptsAll_symbol (op : BinaryOp) {last : Char} (h : last.isDigit = true) :
    acceptsAll (last :: typed) op.symbol = true := by
  have hfiltered := isFiltered_eq_false_of_isDigit h
  have hstar : last ≠ '*' := by rintro rfl; cases h
  have hslash : last ≠ '/' := by rintro rfl; cases h
  cases op <;>
    simp [BinaryOp.symbol, acceptsAll, accepts, mayFollowFiltered, hfiltered, hstar, hslash]

end Calculator.Keypad
