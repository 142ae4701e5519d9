import Calculator.Proofs.Keypad.Calculate
import Calculator.Proofs.Keypad.Loop
import Calculator.Proofs.Keypad.Typing

/-!
# The language of the filter

The filter looks at one character at a time and at the end of what has been typed before it.  What
it lets through in this way is a language that can be described without it: `IsTypeable` says how a
text may start, which filtered characters may stand next to each other, and that none stands three
times in a row.  A character passes the filter exactly if the text with it is in the language again
(`isTypeable_concat_iff`), so the filter drops no character that it need not drop.

The language is closed under taking characters away at the end, and the full text of a value is in
it.  So it is kept by whatever can be done on the keypad, as long as characters are typed one at a
time (`State.isTypeable_of_strokes`).

One button types two characters at once, and these pass the filter as they are.  It does what two
presses of its key do where the expression ends in a character that is not filtered, and nowhere
else (`State.input_doubleSlash`).
-/

namespace Calculator.Keypad

/-! ## Texts that can be typed -/

/-- **The filtered characters that may stand next to each other.** -/
def neighbours : List (Char × Char) :=
  [('*', '*'), ('/', '/'), ('*', '-'), ('/', '-'), ('%', '-')]

/-- **A text that can be typed** character by character. -/
structure IsTypeable (text : List Char) : Prop where
  /-- No filtered character but the minus sign stands at the start. -/
  first {c : Char} : [c] <+: text → c ∈ filteredCharacters → c = '-'
  adjacent {a b : Char} : [a, b] <:+: text → a ∈ filteredCharacters → b ∈ filteredCharacters →
    (a, b) ∈ neighbours
  /-- No filtered character stands three times in a row. -/
  not_tripled {c : Char} : c ∈ filteredCharacters → ¬ [c, c, c] <:+: text

variable {typed text : List Char} {last c : Char}

theorem isTypeable_nil : IsTypeable [] where
  first h := by simp at h
  adjacent h := by simp at h
  not_tripled _ h := by simp at h

/-- **A text that can be typed can be typed up to any place.** -/
theorem IsTypeable.of_isPrefix {front : List Char} (h : IsTypeable text) (hfront : front <+: text) :
    IsTypeable front where
  first hc := h.first (hc.trans hfront)
  adjacent hab := h.adjacent (hab.trans hfront.isInfix)
  not_tripled hc htripled := h.not_tripled hc (htripled.trans hfront.isInfix)

theorem mayFollowFiltered_iff (hlast : isFiltered last = true) (hc : isFiltered c = true) :
    mayFollowFiltered (last :: typed) c = true ↔
      (last, c) ∈ neighbours ∧ ¬ (last = c ∧ typed.head? = some c) := by
  simp only [isFiltered_iff, filteredCharacters, List.mem_cons, List.not_mem_nil, or_false]
    at hlast hc
  rcases hc with rfl | rfl | rfl | rfl | rfl | rfl <;>
    rcases hlast with rfl | rfl | rfl | rfl | rfl | rfl <;>
    simp [mayFollowFiltered, neighbours]

/-- The filter drops only what would make a text that cannot be typed. -/
theorem accepts_of_isTypeable (h : IsTypeable (text ++ [c])) : accepts text.reverse c = true := by
  cases hc : isFiltered c with
  | false => exact accepts_of_not_filtered hc
  | true =>
    rcases List.eq_nil_or_concat text with rfl | ⟨before, last, rfl⟩
    · obtain rfl := h.first (List.prefix_refl [c]) (isFiltered_iff.1 hc)
      rfl
    · rw [List.concat_eq_append] at h ⊢
      rw [List.reverse_concat]
      cases hlast : isFiltered last with
      | false => exact accepts_behind hlast c
      | true =>
        have hpair : (last, c) ∈ neighbours :=
          h.adjacent ⟨before, [], by simp⟩ (isFiltered_iff.1 hlast) (isFiltered_iff.1 hc)
        have hnottripled : ¬ (last = c ∧ before.reverse.head? = some c) := by
          rintro ⟨rfl, hbefore⟩
          rw [List.head?_reverse] at hbefore
          obtain ⟨front, rfl⟩ := List.getLast?_eq_some_iff.1 hbefore
          exact h.not_tripled (isFiltered_iff.1 hlast) ⟨front, [], by simp⟩
        rw [accepts, (mayFollowFiltered_iff hlast hc).2 ⟨hpair, hnottripled⟩, Bool.or_true]

theorem IsTypeable.concat (h : IsTypeable text) (haccepts : accepts text.reverse c = true) :
    IsTypeable (text ++ [c]) := by
  -- two filtered characters at the end of the text are what the filter has looked at
  have hbehind : ∀ {a : Char} {before : List Char}, text.reverse = a :: before →
      a ∈ filteredCharacters → c ∈ filteredCharacters →
      (a, c) ∈ neighbours ∧ ¬ (a = c ∧ before.head? = some c) := by
    intro a before htext ha hc
    rw [← isFiltered_iff] at ha hc
    refine (mayFollowFiltered_iff ha hc).1 ?_
    simpa [htext, accepts, ha, hc] using haccepts
  constructor
  case first =>
    intro d hd hfiltered
    cases text with
    | nil =>
      obtain rfl : d = c := by simpa using hd
      simpa [accepts, isFiltered_iff.2 hfiltered] using haccepts
    | cons x rest =>
      obtain rfl : d = x := by simpa using hd
      exact h.first (by simp) hfiltered
  case adjacent =>
    intro a b hab ha hb
    rcases List.infix_concat_iff.1 hab with hend | hinside
    · rw [← List.reverse_prefix, List.reverse_concat] at hend
      obtain ⟨rfl, before, hbefore⟩ := List.cons_prefix_cons.1 hend
      exact (hbehind hbefore.symm ha hb).1
    · exact h.adjacent hinside ha hb
  case not_tripled =>
    intro d hd hddd
    rcases List.infix_concat_iff.1 hddd with hend | hinside
    · rw [← List.reverse_prefix, List.reverse_concat] at hend
      obtain ⟨rfl, before, hbefore⟩ := List.cons_prefix_cons.1 hend
      exact (hbehind hbefore.symm hd hd).2 ⟨rfl, rfl⟩
    · exact h.not_tripled hd hinside

/-- **What passes the filter can be typed, and nothing else.** -/
theorem isTypeable_concat_iff (h : IsTypeable text) :
    IsTypeable (text ++ [c]) ↔ accepts text.reverse c = true :=
  ⟨accepts_of_isTypeable, h.concat⟩

theorem isTypeable_of_acceptsAll (h : IsTypeable text) {behind : List Char}
    (hbehind : acceptsAll text.reverse behind = true) : IsTypeable (text ++ behind) := by
  induction behind generalizing text with
  | nil => rwa [List.append_nil]
  | cons c rest ih =>
    obtain ⟨hc, hrest⟩ := Bool.and_eq_true_iff.1 hbehind
    rw [← List.singleton_append, ← List.append_assoc]
    exact ih (h.concat hc) (by rwa [List.reverse_concat])

/-- **The full text of a value can be typed.** -/
theorem isTypeable_toString {v : Binary64} (hfinite : v.isFinite = true) :
    IsTypeable (toString v).toList := by
  obtain ⟨negative, m, text, q, -, htext, hplain, -⟩ := Binary64.exists_signed hfinite
  rw [htext]
  cases negative with
  | false => exact isTypeable_of_acceptsAll isTypeable_nil (acceptsAll_plain hplain)
  | true =>
    have hminus : IsTypeable ['-'] := isTypeable_nil.concat rfl
    exact isTypeable_of_acceptsAll hminus (acceptsAll_plain hplain)

/-! ## What can be done one character at a time -/

/-- Whether an action types no more than one character. -/
def Action.typesOne : Action → Bool
  | insert token => token.toList.length == 1
  | clear | backspace | calculate => true

/-- **What can be done at the keypad** without the button that types two characters: a key is
pressed, or another button. -/
inductive Stroke where
  | key (code : KeyCode)
  | button (button : Button) (drawn : ∃ row ∈ layout, button ∈ row)
    (single : button.action ≠ .insert "//")

theorem typesOne_of_mem_layout {button : Button} (hdrawn : ∃ row ∈ layout, button ∈ row)
    (hsingle : button.action ≠ .insert "//") : button.action.typesOne = true := by
  have hall : ∀ row ∈ layout, ∀ button ∈ row, button.action ≠ .insert "//" →
      button.action.typesOne = true := by decide
  obtain ⟨row, hrow, hbutton⟩ := hdrawn
  exact hall row hrow button hbutton hsingle

namespace State

variable {s : State}

/-- What a stroke does. -/
def stroke (s : State) : Stroke → State
  | .key code => s.handleKeypadKey code
  | .button button _ _ => s.trigger button.action

/-- **A character is typed or dropped**, as the filter says. -/
theorem press_char (s : State) (c : Char) :
    s.press c.toString =
      if accepts s.input.toList.reverse c then
        { s with input := s.input ++ c.toString, status := none }
      else s := by
  rw [press, acceptsToken_toString]

theorem toList_input_press {c : Char} (h : accepts s.input.toList.reverse c = true) :
    (s.press c.toString).input.toList = s.input.toList ++ [c] := by
  rw [press_char, if_pos h]
  simp [Char.toString]

theorem isTypeable_press (h : IsTypeable s.input.toList) (c : Char) :
    IsTypeable (s.press c.toString).input.toList := by
  cases haccepts : accepts s.input.toList.reverse c with
  | true =>
    rw [toList_input_press haccepts]
    exact h.concat haccepts
  | false =>
    rw [press_char, haccepts]
    exact h

theorem isTypeable_backspace (h : IsTypeable s.input.toList) :
    IsTypeable s.backspace.input.toList := by
  rw [backspace, String.toList_ofList]
  exact h.of_isPrefix (List.dropLast_prefix _)

theorem isTypeable_clear (s : State) : IsTypeable s.clear.input.toList := isTypeable_nil

theorem isTypeable_calculate (h : IsTypeable s.input.toList) :
    IsTypeable s.calculate.input.toList := by
  cases hblank : Text.allBlank s.input.toList with
  | true => rwa [calculate_of_blank hblank]
  | false =>
    cases houtcome : s.outcome with
    | ok v =>
      rw [calculate_of_ok houtcome]
      exact isTypeable_toString (isFinite_of_evaluate houtcome).1
    | error err => rwa [calculate_of_error hblank houtcome]

theorem isTypeable_trigger (h : IsTypeable s.input.toList) {action : Action}
    (hone : action.typesOne = true) : IsTypeable (s.trigger action).input.toList := by
  cases action with
  | insert token =>
    obtain ⟨c, hc⟩ := List.length_eq_one_iff.1 (beq_iff_eq.1 hone)
    obtain rfl : token = c.toString := by
      rw [← String.toList_inj, hc]
      simp [Char.toString]
    exact isTypeable_press h c
  | clear => exact isTypeable_clear s
  | backspace => exact isTypeable_backspace h
  | calculate =>
    rw [trigger]
    exact isTypeable_calculate h

theorem isTypeable_handleKeypadKey (h : IsTypeable s.input.toList) (code : KeyCode) :
    IsTypeable (s.handleKeypadKey code).input.toList := by
  cases code with
  | char c =>
    rw [handleKeypadKey]
    split
    · exact isTypeable_calculate h
    · split
      · exact isTypeable_press h c
      · exact h
  | enter =>
    rw [handleKeypadKey]
    exact isTypeable_calculate h
  | backspace => exact isTypeable_backspace h
  | esc => exact isTypeable_clear s
  | f1 | up | down | pageUp | pageDown | other => exact h

/-- **Every stroke keeps the expression typeable.** -/
theorem isTypeable_stroke (h : IsTypeable s.input.toList) (stroke : Stroke) :
    IsTypeable (s.stroke stroke).input.toList := by
  cases stroke with
  | key code => exact isTypeable_handleKeypadKey h code
  | button button hdrawn hsingle =>
    exact isTypeable_trigger h (typesOne_of_mem_layout hdrawn hsingle)

theorem isTypeable_strokes (h : IsTypeable s.input.toList) (strokes : List Stroke) :
    IsTypeable (strokes.foldl stroke s).input.toList := by
  induction strokes generalizing s with
  | nil => exact h
  | cons first rest ih => exact ih (isTypeable_stroke h first)

/-- **The filter is exact.**  However many keys and buttons have been pressed, the button for `//`
left out, the expression can be typed character by character; and the next character is appended if
the expression with it can be typed, and dropped if not. -/
theorem isTypeable_of_strokes (strokes : List Stroke) :
    let s := strokes.foldl stroke {}
    IsTypeable s.input.toList ∧
    ∀ c : Char,
      (IsTypeable (s.input.toList ++ [c]) →
        (s.press c.toString).input.toList = s.input.toList ++ [c]) ∧
      (¬ IsTypeable (s.input.toList ++ [c]) → s.press c.toString = s) := by
  intro s
  have hkept : IsTypeable s.input.toList := isTypeable_strokes (s := {}) isTypeable_nil strokes
  refine ⟨hkept, fun c => ⟨fun hc => ?_, fun hc => ?_⟩⟩
  · exact toList_input_press ((isTypeable_concat_iff hkept).1 hc)
  · rw [press_char, if_neg fun haccepts => hc ((isTypeable_concat_iff hkept).2 haccepts)]

end State

/-! ## The button that types two characters -/

/-- What two presses of the key `/` append; `typed` is the expression read backwards. -/
def slashesBehind : List Char → String
  | [] => ""
  | last :: before =>
    if isFiltered last then
      if last = '/' ∧ before.head? ≠ some '/' then "/" else ""
    else "//"

/-- The second press comes behind the slash of the first one. -/
theorem slashesBehind_eq (typed : List Char) :
    slashesBehind typed =
      if accepts typed '/' then if accepts ('/' :: typed) '/' then "//" else "/" else "" := by
  have hslash : isFiltered '/' = true := rfl
  cases typed with
  | nil => rfl
  | cons last before =>
    by_cases hsame : last = '/'
    · subst hsame
      by_cases hbefore : before.head? = some '/' <;>
        simp [slashesBehind, accepts, mayFollowFiltered, hslash, hbefore]
    · cases hlast : isFiltered last <;>
        simp [slashesBehind, accepts, mayFollowFiltered, hslash, hsame, hlast]

/-- Both presses are let through behind a character that is not filtered, and nowhere else. -/
theorem slashesBehind_eq_iff :
    slashesBehind typed = "//" ↔ ∃ last ∈ typed.head?, isFiltered last = false := by
  cases typed with
  | nil => simp [slashesBehind]
  | cons last before =>
    cases hlast : isFiltered last with
    | false => simp [slashesBehind, hlast]
    | true =>
      by_cases hone : last = '/' ∧ before.head? ≠ some '/' <;> simp [slashesBehind, hlast, hone]

namespace State

/-- **Two presses of the key `/`** append as many slashes as the end of the expression allows. -/
theorem input_slash_twice (s : State) :
    ((s.handleKeypadKey (.char '/')).handleKeypadKey (.char '/')).input =
      s.input ++ slashesBehind s.input.toList.reverse := by
  have hkey (s : State) : s.handleKeypadKey (.char '/') =
      if accepts s.input.toList.reverse '/' then { s with input := s.input ++ "/", status := none }
      else s := press_char s '/'
  rw [slashesBehind_eq]
  cases hfirst : accepts s.input.toList.reverse '/' with
  | false => simp [hkey, hfirst]
  | true =>
    cases hsecond : accepts ('/' :: s.input.toList.reverse) '/' with
    | false => simp [hkey, hfirst, hsecond]
    | true => simp [hkey, hfirst, hsecond, String.append_assoc]

/-- **The button for `//` and the key `/` pressed twice.**  The button appends both slashes behind
any expression.  The key does so only behind a character that is not filtered: behind one slash the
filter drops the second press, and at the start, behind two slashes and behind any other filtered
character it drops both. -/
theorem input_doubleSlash (s : State) :
    let clicked := s.trigger (.insert "//")
    let typed := (s.handleKeypadKey (.char '/')).handleKeypadKey (.char '/')
    clicked.input = s.input ++ "//" ∧
    typed.input = s.input ++ slashesBehind s.input.toList.reverse ∧
    (clicked.input = typed.input ↔ ∃ last ∈ s.input.toList.getLast?, isFiltered last = false) := by
  intro clicked typed
  have hclicked : clicked.input = s.input ++ "//" := rfl
  have htyped : typed.input = s.input ++ slashesBehind s.input.toList.reverse :=
    input_slash_twice s
  refine ⟨hclicked, htyped, ?_⟩
  rw [hclicked, htyped, ← List.head?_reverse, ← slashesBehind_eq_iff, eq_comm]
  exact String.append_right_inj _

/-- **The button does not do what the key does.**  In the start state it types what the filter would
drop. -/
theorem not_doubleSlash_as_typed :
    ¬ ∀ ts : List Turn,
      let s := turns {} ts
      (s.trigger (.insert "//")).input =
        ((s.handleKeypadKey (.char '/')).handleKeypadKey (.char '/')).input :=
  fun h => absurd (h []) (by decide)

end State

end Calculator.Keypad
