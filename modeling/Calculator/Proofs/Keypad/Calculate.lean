import Calculator.Keypad.State
import Calculator.Proofs.SignedNumeral

/-!
# Calculating on the keypad

A calculation puts the value in the place of the expression, as its full text.  That text is an
expression in its turn: it has no blanks to trim, is read as a sign and a literal, and is evaluated
to the very value that was printed (`State.outcome_calculate`).  So calculating once more changes
nothing, and neither does it after an error, which leaves the expression as it was typed.
-/

namespace Calculator

open Binary64 (signed)

/-! ## Trimming -/

namespace Text

theorem trim_eq_self {text : List Char} (h : ∀ c ∈ text, isBlank c = false) : trim text = text := by
  have hkeep : ∀ {text : List Char}, (∀ c ∈ text, isBlank c = false) →
      text.dropWhile isBlank = text := by
    intro text h
    cases text with
    | nil => rfl
    | cons c rest => exact List.dropWhile_cons_of_neg (by simp [h c])
  rw [trim, hkeep h, hkeep (by simpa using h), List.reverse_reverse]

theorem isEmpty_trim {text : List Char} (h : allBlank text = false) :
    (trim text).isEmpty = false := by
  refine List.isEmpty_eq_false_iff.2 fun hnil => ?_
  rw [trim_eq_nil_iff.1 hnil] at h
  cases h

end Text

theorem Numeral.Plain.isBlank_eq_false {text : List Char} {q : Rat} (h : Plain text q)
    (negative : Bool) : ∀ c ∈ signed negative text, Text.isBlank c = false := by
  intro c hc
  rcases h.of_mem_signed negative hc with hdigit | rfl | rfl
  · exact isBlank_eq_false_of_isDigit hdigit
  · rfl
  · rfl

theorem Binary64.trim_toString {v : Binary64} (hfinite : v.isFinite = true) :
    String.ofList (Text.trim (toString v).toList) = toString v := by
  obtain ⟨negative, m, text, q, -, htext, hplain, -⟩ := exists_signed hfinite
  have hblank : ∀ c ∈ (toString v).toList, Text.isBlank c = false := by
    rw [htext]
    exact hplain.isBlank_eq_false negative
  rw [Text.trim_eq_self hblank, String.ofList_toList]

namespace Keypad.State

/-! ## One calculation -/

/-- **The outcome of the typed expression**, without the blanks around it. -/
def outcome (s : State) : Except EvalError Binary64 :=
  evaluate (String.ofList (Text.trim s.input.toList))

variable {s : State} {v : Binary64} {err : EvalError}

theorem calculate_of_blank (h : Text.allBlank s.input.toList = true) : s.calculate = s := by
  rw [calculate, Text.trim_eq_nil_iff.2 h]
  rfl

theorem not_blank_of_outcome (h : s.outcome = .ok v) : Text.allBlank s.input.toList = false := by
  refine Bool.eq_false_iff.2 fun hblank => ?_
  rw [outcome, Text.trim_eq_nil_iff.2 hblank] at h
  cases h

/-- **A value takes the place of the expression.** -/
theorem calculate_of_ok (h : s.outcome = .ok v) :
    s.calculate = { s with
      input := toString v
      result := formatResult v
      lastError := none
      status := none } := by
  have hne := Text.isEmpty_trim (not_blank_of_outcome h)
  rw [outcome] at h
  simp only [calculate, hne, Bool.false_eq_true, if_false, h]

/-- **An error leaves the expression as it was typed.** -/
theorem calculate_of_error (hblank : Text.allBlank s.input.toList = false)
    (h : s.outcome = .error err) :
    s.calculate = { s with result := "Error", lastError := some err, status := none } := by
  have hne := Text.isEmpty_trim hblank
  rw [outcome] at h
  simp only [calculate, hne, Bool.false_eq_true, if_false, h]

/-- **The printed value is evaluated to the value.** -/
theorem outcome_calculate (h : s.outcome = .ok v) : s.calculate.outcome = .ok v := by
  obtain ⟨hfinite, hnormal⟩ := isFinite_of_evaluate h
  rw [calculate_of_ok h, outcome, Binary64.trim_toString hfinite, evaluate_toString hfinite,
    hnormal]

/-! ## Calculating again -/

theorem calculate_idempotent (s : State) : s.calculate.calculate = s.calculate := by
  cases hblank : Text.allBlank s.input.toList with
  | true => rw [calculate_of_blank hblank, calculate_of_blank hblank]
  | false =>
    cases h : s.outcome with
    | ok v => rw [calculate_of_ok (outcome_calculate h), calculate_of_ok h]
    | error err =>
      have hkeep : s.calculate.input = s.input := by rw [calculate_of_error hblank h]
      have hblank' : Text.allBlank s.calculate.input.toList = false := by rw [hkeep, hblank]
      have hagain : s.calculate.outcome = .error err := by rw [outcome, hkeep, ← outcome, h]
      rw [calculate_of_error hblank' hagain, calculate_of_error hblank h]

/-- **A calculation is done once and for all.**  Calculating again changes nothing.  A value is put
in the place of the expression with nothing of it lost, whatever its sign and size; an error leaves
the expression as typed, and a blank expression leaves everything. -/
theorem calculate_settles (s : State) :
    s.calculate.calculate = s.calculate ∧
    (∀ v, s.outcome = .ok v →
      s.calculate = { s with
        input := toString v, result := formatResult v, lastError := none, status := none } ∧
      s.calculate.outcome = .ok v) ∧
    (∀ v : Binary64, v.isFinite = true →
      evaluate (String.ofList (Text.trim (toString v).toList)) = .ok v.normalizeZero) ∧
    (∀ err, Text.allBlank s.input.toList = false → s.outcome = .error err →
      s.calculate = { s with result := "Error", lastError := some err, status := none }) ∧
    (Text.allBlank s.input.toList = true → s.calculate = s) := by
  refine ⟨calculate_idempotent s, fun v h => ⟨calculate_of_ok h, outcome_calculate h⟩,
    fun v hfinite => ?_, fun err => calculate_of_error, calculate_of_blank⟩
  rw [Binary64.trim_toString hfinite, evaluate_toString hfinite]

end Keypad.State

end Calculator
