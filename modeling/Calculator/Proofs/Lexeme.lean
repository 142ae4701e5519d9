import Calculator.Token.Lexer

/-!
# Tokens and the characters they are made of

A scan goes over separators one by one and over the other characters token by token.
`Lexeme.scan_induction` is the induction along these steps, and it does not mention the characters
passed over inside of a token.  With it:

* `Lexeme.position_lt`: tokens are placed inside of the text.
* `Lexeme.isAllowed_of_scan`: a text all of whose tokens are arithmetic has no character outside of
  the arithmetic alphabet `isAllowed`.
* `Lexeme.not_foreign_of_isAllowed`: a text over that alphabet has no foreign token.
-/

namespace Calculator

/-! ## The alphabet of arithmetic -/

/-- **The characters that arithmetic is written with.** -/
def isAllowed (c : Char) : Bool :=
  c.isDigit || c ∈ ['.', '+', '-', '*', '/', '%', '(', ')'] || isSeparator c

/-- Whether a token is a number, an operator or a parenthesis. -/
def Token.isArithmetic : Token → Bool
  | foreign _ | invalid _ => false
  | _ => true

theorem isAllowed_of_isDigit {c : Char} (h : c.isDigit = true) : isAllowed c = true := by
  simp [isAllowed, h]

theorem le_toNat_of_isWordStart {c : Char} (h : isWordStart c = true) : 65 ≤ c.toNat := by
  rcases Bool.or_eq_true_iff.1 h with hletter | hunderscore
  · rcases Bool.or_eq_true_iff.1 hletter with hupper | hlower
    · exact UInt32.le_iff_toNat_le.1 (of_decide_eq_true hupper).1
    · have hge : 97 ≤ c.toNat :=
        UInt32.le_iff_toNat_le.1 (of_decide_eq_true (Bool.and_eq_true_iff.1 hlower).1)
      omega
  · rw [eq_of_beq hunderscore]
    decide

/-- The alphabet of arithmetic ends with the digits. -/
theorem le_nine_of_isAllowed {c : Char} (h : isAllowed c = true) : c ≤ '9' := by
  simp only [isAllowed, Bool.or_eq_true, decide_eq_true_eq, List.mem_cons, List.not_mem_nil,
    or_false, isSeparator, beq_iff_eq] at h
  rcases h with (hdigit | hsymbol) | hseparator
  · exact UInt32.le_iff_toNat_le.2 (Char.isDigit_iff_toNat.1 hdigit).2
  · rcases hsymbol with rfl | rfl | rfl | rfl | rfl | rfl | rfl | rfl <;> decide
  · rcases hseparator with ((rfl | rfl) | rfl) | rfl <;> decide

theorem not_isWordStart_of_isAllowed {c : Char} (h : isAllowed c = true) :
    isWordStart c = false := by
  refine Bool.eq_false_iff.2 fun hword => ?_
  have hnine : c.toNat ≤ 57 := UInt32.le_iff_toNat_le.1 (le_nine_of_isAllowed h)
  have := le_toNat_of_isWordStart hword
  omega

theorem isWordPart_of_isSeparator {c : Char} (h : isSeparator c = true) :
    isWordPart c = false ∧ isWordStart c = false ∧ c.isDigit = false := by
  simp only [isSeparator, Bool.or_eq_true, beq_iff_eq] at h
  rcases h with ((rfl | rfl) | rfl) | rfl <;> decide

/-! ## Runs of digits and points -/

theorem numeralRun_isPrefix (text : List Char) : numeralRun text <+: text := by
  have hsplit : text.takeWhile Char.isDigit ++ text.dropWhile Char.isDigit = text :=
    List.takeWhile_append_dropWhile
  rw [numeralRun]
  split
  case h_1 rest hrest =>
    refine ⟨rest.dropWhile Char.isDigit, ?_⟩
    rw [hrest] at hsplit
    simp [List.takeWhile_append_dropWhile, hsplit]
  case h_2 => exact List.takeWhile_prefix _

theorem take_length_numeralRun (c : Char) (rest : List Char) :
    rest.take ((numeralRun (c :: rest)).length - 1) = (numeralRun (c :: rest)).tail := by
  obtain ⟨after, hafter⟩ := numeralRun_isPrefix (c :: rest)
  cases hrun : numeralRun (c :: rest) with
  | nil => simp
  | cons d run =>
    rw [hrun, List.cons_append, List.cons.injEq] at hafter
    simp [← hafter.2]

theorem isAllowed_of_mem_numeralRun {text : List Char} {c : Char} (h : c ∈ numeralRun text) :
    isAllowed c = true := by
  have hdigits : ∀ {text : List Char}, c ∈ text.takeWhile Char.isDigit → isAllowed c = true :=
    fun hmem => isAllowed_of_isDigit (List.all_eq_true.1 List.all_takeWhile c hmem)
  rw [numeralRun] at h
  split at h
  case h_1 rest _ =>
    rcases List.mem_append.1 h with hwhole | hfraction
    · exact hdigits hwhole
    · rcases List.mem_cons.1 hfraction with rfl | hfraction
      · decide
      · exact hdigits hfraction
  case h_2 => exact hdigits h

/-! ## The token at the front -/

namespace Token

/-- How the operators and the parentheses are written. -/
def symbol? : Token → Option (List Char)
  | plus => some ['+']
  | minus => some ['-']
  | star => some ['*']
  | doubleStar => some ['*', '*']
  | slash => some ['/']
  | doubleSlash => some ['/', '/']
  | percent => some ['%']
  | leftParen => some ['(']
  | rightParen => some [')']
  | number _ | foreign _ | invalid _ => none

theorem isAllowed_of_mem_symbol {token : Token} {symbol : List Char} {c : Char}
    (hsymbol : token.symbol? = some symbol) (hc : c ∈ symbol) : isAllowed c = true := by
  cases token <;> cases hsymbol <;> simp at hc <;> subst hc <;> decide

/-- A quoted text reaches to the next quote of its kind. -/
theorem first_quote (hc : c = '\'' ∨ c = '"') (rest : List Char) :
    first c rest =
      (.foreign .stringLiteral, min ((rest.takeWhile (· != c)).length + 1) rest.length) := by
  rcases hc with rfl | rfl <;> rfl

/-- **What can stand at the front of a text** that goes on with `rest` after `c`. -/
inductive Starts (c : Char) (rest : List Char) : Token × Nat → Prop where
  | number : c.isDigit = true ∨ c = '.' ∧ rest.head?.any Char.isDigit = true →
    Starts c rest (.ofRun (numeralRun (c :: rest)), (numeralRun (c :: rest)).length - 1)
  | single {token : Token} : token.symbol? = some [c] →
    (c = '*' ∨ c = '/' → rest.head? ≠ some c) → Starts c rest (token, 0)
  | double {token : Token} : token.symbol? = some [c, c] → rest.head? = some c →
    Starts c rest (token, 1)
  | foreign {construct : Construct} {more : Nat} :
    isAllowed c = false ∨ c = '.' ∧ rest.head?.any isWordStart = true →
    Starts c rest (.foreign construct, more)
  | unrecognized : Starts c rest (.invalid (.unrecognized c), 0)

theorem starts_first (c : Char) (rest : List Char) : Starts c rest (first c rest) := by
  simp only [first]
  split
  case isTrue hnumber => exact .number (by simpa using hnumber)
  case isFalse hnumber =>
    split
    case isTrue hword =>
      refine .foreign (.inl (Bool.eq_false_iff.2 fun hallowed => ?_))
      rw [not_isWordStart_of_isAllowed hallowed] at hword
      cases hword
    case isFalse =>
      split
      -- the point
      case h_1 =>
        split
        case isTrue hnext => exact .foreign (.inr ⟨rfl, hnext⟩)
        case isFalse => exact .unrecognized
      -- the operators that may be doubled
      case h_4 | h_5 =>
        split
        case isTrue hnext => exact .double rfl (by simpa using hnext)
        case isFalse hnext => exact .single rfl fun _ => by simpa using hnext
      -- the other operators and the parentheses
      case h_2 | h_3 | h_6 | h_7 | h_8 => exact .single rfl (by simp)
      -- what belongs to other languages
      case h_16 | h_21 | h_22 =>
        split <;> exact .foreign (.inl (by decide))
      case h_25 => exact .unrecognized
      all_goals exact .foreign (.inl (by decide))

/-- **An arithmetic token is written in the alphabet of arithmetic.** -/
theorem isAllowed_of_first {c : Char} {rest : List Char}
    (h : (first c rest).1.isArithmetic = true) :
    isAllowed c = true ∧ ∀ d ∈ rest.take (first c rest).2, isAllowed d = true := by
  have hstarts := starts_first c rest
  generalize first c rest = front at h hstarts
  cases hstarts with
  | number hnumber =>
    constructor
    · rcases hnumber with hdigit | ⟨rfl, -⟩
      · exact isAllowed_of_isDigit hdigit
      · decide
    · intro d hd
      rw [take_length_numeralRun] at hd
      exact isAllowed_of_mem_numeralRun (List.mem_of_mem_tail hd)
  | @single token hsymbol _ => exact ⟨isAllowed_of_mem_symbol hsymbol (by simp), by simp⟩
  | @double token hsymbol hnext =>
    obtain ⟨after, rfl⟩ := List.head?_eq_some_iff.1 hnext
    have hallowed : isAllowed c = true := isAllowed_of_mem_symbol hsymbol (by simp)
    exact ⟨hallowed, by simpa using hallowed⟩
  | foreign => cases h
  | unrecognized => cases h

/-- **Nothing foreign is written in the alphabet of arithmetic.** -/
theorem first_ne_foreign {c : Char} {rest : List Char} (hc : isAllowed c = true)
    (hrest : ∀ d ∈ rest, isAllowed d = true) (construct : Construct) :
    (first c rest).1 ≠ .foreign construct := by
  have hstarts := starts_first c rest
  generalize first c rest = front at hstarts
  cases hstarts with
  | number =>
    simp only [ofRun]
    split
    · simp
    · split <;> simp
  | single hsymbol _ =>
    rintro rfl
    cases hsymbol
  | double hsymbol _ =>
    rintro rfl
    cases hsymbol
  | foreign hforeign =>
    rcases hforeign with hforeign | ⟨-, hword⟩
    · rw [hc] at hforeign
      cases hforeign
    · obtain ⟨d, hd, hstart⟩ := (Option.any_eq_true _ _).1 hword
      rw [not_isWordStart_of_isAllowed (hrest d (List.mem_of_mem_head? hd))] at hstart
      cases hstart
  | unrecognized => simp

end Token

/-! ## Scans -/

namespace Lexeme

variable {position : Nat} {c : Char} {rest text : List Char}

theorem scanFrom_separator (h : isSeparator c = true) :
    scanFrom position 0 (c :: rest) = scanFrom (position + 1) 0 rest := by
  simp [scanFrom, h]

theorem scanFrom_token (h : isSeparator c = false) :
    scanFrom position 0 (c :: rest) = ⟨(Token.first c rest).1, position⟩ ::
      scanFrom (position + 1 + (Token.first c rest).2) 0 (rest.drop (Token.first c rest).2) := by
  rw [← scanFrom_eq_drop]
  simp [scanFrom, h]

/-- **Induction along a scan**: over a separator, or over a whole token. -/
theorem scan_induction {motive : Nat → List Char → Prop} (nil : ∀ position, motive position [])
    (separator : ∀ position c rest, isSeparator c = true → motive (position + 1) rest →
      motive position (c :: rest))
    (token : ∀ position c rest, isSeparator c = false →
      motive (position + 1 + (Token.first c rest).2) (rest.drop (Token.first c rest).2) →
      motive position (c :: rest))
    (position : Nat) (text : List Char) : motive position text := by
  induction hlength : text.length using Nat.strongRecOn generalizing position text with
  | ind length ih =>
    cases text with
    | nil => exact nil position
    | cons c rest =>
      rw [List.length_cons] at hlength
      cases hseparator : isSeparator c with
      | true =>
        exact separator position c rest hseparator (ih rest.length (by omega) _ rest rfl)
      | false =>
        refine token position c rest hseparator (ih _ ?_ _ _ rfl)
        rw [List.length_drop]
        omega

theorem position_lt_of_mem_scanFrom {lexeme : Lexeme} (h : lexeme ∈ scanFrom position 0 text) :
    lexeme.position < position + text.length := by
  induction position, text using scan_induction with
  | nil position => simp at h
  | separator position c rest hseparator ih =>
    rw [scanFrom_separator hseparator] at h
    have := ih h
    rw [List.length_cons]
    omega
  | token position c rest hseparator ih =>
    rw [scanFrom_token hseparator] at h
    rcases List.mem_cons.1 h with rfl | hbehind
    · simp
    · have hlt := ih hbehind
      -- There is a token behind this one, so this one ends inside of the text.
      have hne : rest.drop (Token.first c rest).2 ≠ [] := by
        intro hnil
        simp [hnil] at hbehind
      have hmore := mt List.drop_eq_nil_iff.2 hne
      rw [List.length_drop] at hlt
      rw [List.length_cons]
      omega

theorem position_lt {lexeme : Lexeme} (h : lexeme ∈ scan text) : lexeme.position < text.length := by
  simpa using position_lt_of_mem_scanFrom h

theorem isAllowed_of_scanFrom
    (h : ∀ lexeme ∈ scanFrom position 0 text, lexeme.token.isArithmetic = true) :
    ∀ c ∈ text, isAllowed c = true := by
  induction position, text using scan_induction with
  | nil => simp
  | separator position c rest hseparator ih =>
    rw [scanFrom_separator hseparator] at h
    rw [List.forall_mem_cons]
    exact ⟨by simp [isAllowed, hseparator], ih h⟩
  | token position c rest hseparator ih =>
    rw [scanFrom_token hseparator, List.forall_mem_cons] at h
    obtain ⟨hc, hmore⟩ := Token.isAllowed_of_first h.1
    rw [List.forall_mem_cons]
    refine ⟨hc, fun d hd => ?_⟩
    rw [← List.take_append_drop (Token.first c rest).2 rest, List.mem_append] at hd
    exact hd.elim (hmore d) (ih h.2 d)

theorem isAllowed_of_scan (h : ∀ lexeme ∈ scan text, lexeme.token.isArithmetic = true) :
    ∀ c ∈ text, isAllowed c = true :=
  isAllowed_of_scanFrom h

theorem not_foreign_of_isAllowed (h : ∀ c ∈ text, isAllowed c = true) {lexeme : Lexeme}
    (hmem : lexeme ∈ scanFrom position 0 text) (construct : Construct) :
    lexeme.token ≠ .foreign construct := by
  induction position, text using scan_induction with
  | nil => simp at hmem
  | separator position c rest hseparator ih =>
    rw [scanFrom_separator hseparator] at hmem
    exact ih (List.forall_mem_cons.1 h).2 hmem
  | token position c rest hseparator ih =>
    rw [scanFrom_token hseparator] at hmem
    obtain ⟨hc, hrest⟩ := List.forall_mem_cons.1 h
    rcases List.mem_cons.1 hmem with rfl | hbehind
    · exact Token.first_ne_foreign hc hrest construct
    · exact ih (fun d hd => hrest d (List.mem_of_mem_drop hd)) hbehind

end Lexeme

end Calculator
