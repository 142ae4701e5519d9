import Calculator.Proofs.Failure
import Calculator.Proofs.Keypad.Calculate
import Calculator.Proofs.Keypad.Grid
import Calculator.Proofs.Keypad.Typing
import Calculator.Proofs.Shown

/-!
# What always holds of the keypad

Whatever is pressed, clicked, resized or copied, the expression is written with the characters of
the keyboard, and the result line and the last error tell the same story (`State.Sound`).  Typing
keeps this because only characters of the keyboard are typed, and the buttons type no others; a
calculation keeps it because of the evaluator: a value is finite, its full text is made of digits, a
point and a sign, and a text over the keyboard is never empty or disallowed once something is in it.
-/

namespace Calculator.Keypad

open Terminal

/-! ## The keyboard -/

/-- **The characters of the keyboard.** -/
def keyboard : List Char := "0123456789.+-*/%()".toList

variable {c : Char}

theorem mem_keyboard_of_isDigit (h : c.isDigit = true) : c ∈ keyboard := by
  have hdigits : ['0', '1', '2', '3', '4', '5', '6', '7', '8', '9'] ⊆ keyboard := by decide
  exact hdigits (isDigit_iff_mem.1 h)

/-- **What can be typed** are the characters of the keyboard. -/
theorem isTyped_iff : isTyped c = true ↔ c ∈ keyboard := by
  constructor
  · have hfilteredAll : filteredCharacters ⊆ keyboard := by decide
    simp only [isTyped, Bool.or_eq_true, beq_iff_eq]
    rintro (((hdigit | hfiltered) | rfl) | rfl)
    · exact mem_keyboard_of_isDigit hdigit
    · exact hfilteredAll (isFiltered_iff.1 hfiltered)
    · decide
    · decide
  · have hall : keyboard.all isTyped = true := by decide
    exact List.all_eq_true.1 hall c

theorem isAllowed_of_mem_keyboard (h : c ∈ keyboard) : isAllowed c = true := by
  have hall : keyboard.all isAllowed = true := by decide
  exact List.all_eq_true.1 hall c h

theorem isBlank_of_mem_keyboard (h : c ∈ keyboard) : Text.isBlank c = false := by
  have hall : keyboard.all (!Text.isBlank ·) = true := by decide
  simpa using List.all_eq_true.1 hall c h

/-- **A value is printed with characters of the keyboard.** -/
theorem mem_keyboard_of_mem_toString {v : Binary64} (hfinite : v.isFinite = true) :
    ∀ c ∈ (toString v).toList, c ∈ keyboard := by
  obtain ⟨negative, m, text, q, -, htext, hplain, -⟩ := Binary64.exists_signed hfinite
  intro c hc
  rw [htext] at hc
  rcases hplain.of_mem_signed negative hc with hdigit | rfl | rfl
  · exact mem_keyboard_of_isDigit hdigit
  · decide
  · decide

theorem formatResult_ne_error {v : Binary64} (hfinite : v.isFinite = true) :
    formatResult v ≠ "Error" := by
  intro h
  obtain ⟨c, rest, htext, hfirst⟩ := exists_first_of_formatResult hfinite
  rw [h] at htext
  obtain rfl : 'E' = c := (List.cons.inj htext).1
  rcases hfirst with hdigit | hminus
  · cases hdigit
  · cases hminus

/-- Whether an action types nothing but characters of the keyboard. -/
def Action.isTyped : Action → Bool
  | insert token => token.toList.all (keyboard.contains ·)
  | clear | backspace | calculate => true

theorem isTyped_of_buttonAt {i j : Nat} {button : Button} (h : buttonAt? i j = some button) :
    button.action.isTyped = true := by
  have hall : ∀ row ∈ layout, ∀ button ∈ row, button.action.isTyped = true := by decide
  obtain ⟨row, hrow, hbutton⟩ := Option.bind_eq_some_iff.1 h
  exact hall row (List.mem_of_getElem? hrow) button (List.mem_of_getElem? hbutton)

namespace State

/-! ## The invariant -/

/-- **What always holds.** -/
structure Sound (s : State) : Prop where
  /-- The expression is written with the characters of the keyboard. -/
  input : ∀ c ∈ s.input.toList, c ∈ keyboard
  /-- The result line says so if there is an error, and only then. -/
  result_iff : s.result = "Error" ↔ s.lastError.isSome = true
  /-- An error is neither that there is nothing to evaluate nor that something is disallowed. -/
  lastError : ∀ err, s.lastError = some err →
    err ≠ .emptyInput ∧ ∀ construct position, err ≠ .disallowed construct position
  /-- If there is no error, the result line shows a finite number. -/
  result : s.lastError = none → s.result = "0" ∨
    ∃ v : Binary64, v.isFinite = true ∧ s.result = formatResult v

/-- The invariant of the loop: beside what always holds, the buttons that have been drawn are those
of the keypad. -/
structure Invariant (s : State) : Prop extends Sound s where
  buttons : ∀ entry ∈ s.buttonAreas, entry.2.isTyped = true

variable {s : State}

theorem Sound.outcome_eq (h : s.Sound) : s.outcome = evaluate s.input := by
  have htrim := Text.trim_eq_self fun c hc => isBlank_of_mem_keyboard (h.input c hc)
  rw [outcome, htrim, String.ofList_toList]

theorem Sound.press (h : s.Sound) {token : String} (htoken : ∀ c ∈ token.toList, c ∈ keyboard) :
    (s.press token).Sound := by
  rw [State.press]
  split
  case isTrue =>
    refine { h with input := fun c hc => ?_ }
    rcases List.mem_append.1 (String.toList_append ▸ hc) with hbefore | hbehind
    · exact h.input c hbefore
    · exact htoken c hbehind
  case isFalse => exact h

theorem Sound.backspace (h : s.Sound) : s.backspace.Sound := by
  refine { h with input := fun c hc => h.input c ?_ }
  rw [State.backspace, String.toList_ofList] at hc
  exact List.mem_of_mem_dropLast hc

theorem Sound.clear (s : State) : s.clear.Sound where
  input := by simp [State.clear]
  result_iff := by simp [State.clear]
  lastError := by simp [State.clear]
  result _ := .inl rfl

/-- **A calculation keeps the invariant**, whether it succeeds or not. -/
theorem Sound.calculate (h : s.Sound) : s.calculate.Sound := by
  cases hblank : Text.allBlank s.input.toList with
  | true =>
    rw [calculate_of_blank hblank]
    exact h
  | false =>
    cases houtcome : s.outcome with
    | ok v =>
      obtain ⟨hfinite, -⟩ := isFinite_of_evaluate houtcome
      rw [calculate_of_ok houtcome]
      exact {
        input := mem_keyboard_of_mem_toString hfinite
        result_iff := by simp [formatResult_ne_error hfinite]
        lastError := by simp
        result := fun _ => .inr ⟨v, hfinite, rfl⟩ }
    | error err =>
      rw [calculate_of_error hblank houtcome]
      rw [h.outcome_eq] at houtcome
      refine { h with result_iff := by simp, lastError := ?_, result := by simp }
      rintro _ ⟨⟩
      constructor
      · rintro rfl
        rw [allBlank_of_evaluate houtcome] at hblank
        cases hblank
      · rintro construct position rfl
        exact evaluate_ne_disallowed (fun c hc => isAllowed_of_mem_keyboard (h.input c hc))
          construct position houtcome

theorem Sound.trigger (h : s.Sound) {action : Action} (haction : action.isTyped = true) :
    (s.trigger action).Sound := by
  cases action with
  | insert token =>
    refine h.press fun c hc => ?_
    simpa using List.all_eq_true.1 haction c hc
  | clear => exact Sound.clear s
  | backspace => exact h.backspace
  | calculate => exact h.calculate

/-! ## The buttons that have been drawn -/

/-- **No action moves a button**; only drawing does. -/
theorem Invariant.buttons_trigger (h : s.Invariant) (action : Action) :
    ∀ entry ∈ (s.trigger action).buttonAreas, entry.2.isTyped = true := by
  rw [trigger_eq]
  exact h.buttons

/-- Drawing leaves the buttons that were there, or none, or those of the keypad. -/
theorem isTyped_of_refresh (h : s.Invariant) (size : Size) :
    ∀ entry ∈ (s.refresh size).buttonAreas, entry.2.isTyped = true := by
  cases hhelp : s.showHelp with
  | true =>
    rw [refresh, hhelp]
    exact h.buttons
  | false =>
    rw [buttonAreas_refresh hhelp]
    split
    case isTrue => simp
    case isFalse =>
      rintro ⟨area, action⟩ hentry
      obtain ⟨i, j, button, hbutton, -, rfl⟩ := mem_buttonAreas.1 hentry
      exact isTyped_of_buttonAt hbutton

/-! ## Events and runs -/

/-- **Every event keeps the invariant.** -/
theorem Invariant.change (h : s.Invariant) {next : State} (hchange : Change s next) :
    next.Invariant := by
  cases hchange with
  | @typed c htyped =>
    have hc : ∀ d ∈ c.toString.toList, d ∈ keyboard := by
      simpa [Char.toString] using isTyped_iff.1 htyped
    exact { h.toSound.press hc with buttons := h.buttons_trigger (.insert _) }
  | backspace => exact { h.toSound.backspace with buttons := h.buttons }
  | clear => exact { Sound.clear s with buttons := h.buttons }
  | calculate =>
    exact { h.toSound.calculate with buttons := h.buttons_trigger .calculate }
  | @button area action hmem =>
    have haction : action.isTyped = true := h.buttons _ hmem
    exact { h.toSound.trigger haction with buttons := h.buttons_trigger action }
  | aside => exact { h with }

/-- **Drawing keeps the invariant.** -/
theorem Invariant.refresh (h : s.Invariant) (size : Size) : (s.refresh size).Invariant := by
  have hbuttons := isTyped_of_refresh h size
  rw [refresh_eq] at hbuttons ⊢
  exact { h with buttons := hbuttons }

theorem Invariant.start : ({} : State).Invariant where
  input := by simp
  result_iff := by decide
  lastError := by simp
  result _ := .inl rfl
  buttons := by simp

/-- **The expression, the result and the error always fit together.**  However long the program has
run, whatever has been typed, clicked, copied or scrolled, and whatever sizes the window has had, in
between the expression holds only characters of the keyboard, and the result line is an error
exactly if there is one, which is neither that nothing was there to evaluate nor that something is
disallowed; otherwise it is the zero of the start or a finite number as it is shown. -/
theorem sound_of_turns (ts : List Turn) (size : Size) :
    (({} : State).turns ts).Sound ∧ ((({} : State).turns ts).refresh size).Sound := by
  have hrun : (({} : State).turns ts).Invariant :=
    turns_induction (fun _ size h => h.refresh size)
      (fun s clipboard event h => h.change (change_handle clipboard s event)) Invariant.start ts
  exact ⟨hrun.toSound, (hrun.refresh size).toSound⟩

end State

end Calculator.Keypad
