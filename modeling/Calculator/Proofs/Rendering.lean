import Calculator.Proofs.Lexeme
import Calculator.Proofs.Number.Numeral

/-!
# Written tokens are scanned again

A token may be written in more than one way, and tokens may stand next to each other or apart;
`Renders` says which texts write down which tokens at which places.  The one thing that can go wrong
is that a token goes on into the next one, as `*` does before `*`, and `Token.EndsAt` excludes just
that.  Then the scan takes apart what was put together (`Lexeme.scanFrom_of_renders`).
-/

namespace Calculator

open Text

theorem isBlank_eq_false_of_isDigit {c : Char} (h : c.isDigit = true) : isBlank c = false := by
  have hlow : 48 ≤ c.toNat := (Char.isDigit_iff_toNat.1 h).1
  have hhigh : c.toNat ≤ 57 := (Char.isDigit_iff_toNat.1 h).2
  simp only [isBlank, Bool.or_eq_false_iff, Bool.and_eq_false_iff, decide_eq_false_iff_not,
    beq_eq_false_iff_ne]
  omega

/-- The only blanks that arithmetic is written with are the separators. -/
theorem isSeparator_of_isBlank {c : Char} (hallowed : isAllowed c = true)
    (hblank : isBlank c = true) : isSeparator c = true := by
  simp only [isAllowed, Bool.or_eq_true, decide_eq_true_eq] at hallowed
  rcases hallowed with (hdigit | hsymbol) | hseparator
  · rw [isBlank_eq_false_of_isDigit hdigit] at hblank
    cases hblank
  · simp only [List.mem_cons, List.not_mem_nil, or_false] at hsymbol
    rcases hsymbol with rfl | rfl | rfl | rfl | rfl | rfl | rfl | rfl <;> cases hblank
  · exact hseparator

/-! ## Tokens as they are written -/

namespace Token

/-- **How a token may be written**: an operator or a parenthesis as its symbol, a number as any
numeral of that value without forbidden zeros in front. -/
inductive Written : Token → List Char → Prop where
  | symbol {token : Token} {text : List Char} : token.symbol? = some text → Written token text
  | number {text : List Char} {value : Binary64} : hasLeadingZeros text = false →
    Binary64.ofNumeral? text = some value → Written (.number value) text

/-- **The end of a written token**: what follows would not be taken for a part of it. -/
def EndsAt : Token → List Char → Prop
  | number _, rest => ∀ c ∈ rest.head?, c.isDigit = false ∧ c ≠ '.'
  | star, rest => rest.head? ≠ some '*'
  | slash, rest => rest.head? ≠ some '/'
  | _, _ => True

end Token

namespace Numeral

variable {text : List Char} {q : Rat}

theorem Reads.ne_nil (h : Reads text q) : text ≠ [] := by
  cases h with
  | whole hne _ => exact hne
  | point => simp

theorem Reads.starts {c : Char} (h : Reads (c :: text) q) :
    c.isDigit = true ∨ c = '.' ∧ text.head?.any Char.isDigit = true := by
  generalize hnumeral : c :: text = numeral at h
  cases h with
  | whole _ hdigits => exact .inl (hdigits c (by simp [← hnumeral]))
  | @point whole fraction hwhole hfraction hne =>
    cases whole with
    | nil =>
      obtain ⟨rfl, rfl⟩ := List.cons.inj hnumeral
      obtain ⟨d, digits, rfl⟩ := List.exists_cons_of_ne_nil hne
      exact .inr ⟨rfl, hfraction d (by simp)⟩
    | cons d whole =>
      obtain ⟨rfl, -⟩ := List.cons.inj hnumeral
      exact .inl (hwhole c (by simp))

/-- **A numeral is one run** if it does not go on: no digit follows, and no point unless it has one
already. -/
theorem Reads.numeralRun_append (h : Reads text q) {rest : List Char}
    (hrest : ∀ c ∈ rest.head?, c.isDigit = false ∧ (c = '.' → '.' ∈ text)) :
    numeralRun (text ++ rest) = text := by
  have hdigit : ∀ c ∈ rest.head?, c.isDigit = false := fun c hc => (hrest c hc).1
  cases h with
  | whole _ hdigits =>
    obtain ⟨htake, hdrop⟩ := span_exact hdigits rest hdigit
    rw [numeralRun, htake, hdrop]
    split
    case h_1 => cases hdigits '.' ((hrest '.' rfl).2 rfl)
    case h_2 => rfl
  | @point whole fraction hwhole hfraction _ =>
    obtain ⟨htake, hdrop⟩ := span_exact hwhole ('.' :: (fraction ++ rest)) (by simp)
    rw [List.append_assoc, List.cons_append, numeralRun, htake, hdrop]
    exact congrArg (whole ++ '.' :: ·) (span_exact hfraction rest hdigit).1

end Numeral

theorem Binary64.exists_reads {text : List Char} {value : Binary64}
    (h : ofNumeral? text = some value) : ∃ q, Numeral.Reads text q := by
  obtain ⟨q, hread, -⟩ := Option.map_eq_some_iff.1 h
  exact ⟨q, Numeral.read?_eq_some_iff.1 hread⟩

namespace Token

variable {token : Token} {c : Char} {text rest : List Char}

theorem ofRun_of_written {value : Binary64} (hzeros : hasLeadingZeros text = false)
    (hvalue : Binary64.ofNumeral? text = some value) : ofRun text = .number value := by
  simp [ofRun, hzeros, hvalue]

theorem Written.ne_nil (h : Written token text) : text ≠ [] := by
  rintro rfl
  cases h with
  | symbol hsymbol => cases token <;> cases hsymbol
  | number _ hvalue => cases hvalue

theorem first_of_reads {q : Rat} (hreads : Numeral.Reads (c :: text) q)
    (hends : ∀ d ∈ rest.head?, d.isDigit = false ∧ (d = '.' → '.' ∈ c :: text)) :
    first c (text ++ rest) = (.ofRun (c :: text), text.length) := by
  have hrun : numeralRun (c :: (text ++ rest)) = c :: text := hreads.numeralRun_append hends
  have hstarts : (c.isDigit || (c == '.' && (text ++ rest).head?.any Char.isDigit)) = true := by
    rcases hreads.starts with hdigit | ⟨rfl, hnext⟩
    · simp [hdigit]
    · cases text with
      | nil => cases hnext
      | cons d text => simpa using hnext
  simp only [first, hstarts, if_true, hrun, List.length_cons, Nat.add_sub_cancel]

/-- **A written token is the first one of the text** that it stands at the front of. -/
theorem first_of_written (h : Written token (c :: text)) (hends : token.EndsAt rest) :
    first c (text ++ rest) = (token, text.length) := by
  cases h with
  | symbol hsymbol =>
    cases token with
    | star | slash =>
      cases hsymbol
      exact if_neg (by simpa [EndsAt] using hends)
    | number | foreign | invalid => cases hsymbol
    | _ =>
      cases hsymbol
      rfl
  | number hzeros hvalue =>
    obtain ⟨q, hreads⟩ := Binary64.exists_reads hvalue
    rw [first_of_reads hreads fun d hd => ⟨(hends d hd).1, (absurd · (hends d hd).2)⟩,
      ofRun_of_written hzeros hvalue]

theorem Written.isBlank_eq_false (h : Written token (c :: text)) : isBlank c = false := by
  cases h with
  | symbol hsymbol => cases token <;> cases hsymbol <;> decide
  | number _ hvalue =>
    obtain ⟨q, hreads⟩ := Binary64.exists_reads hvalue
    rcases hreads.starts with hdigit | ⟨rfl, -⟩
    · exact isBlank_eq_false_of_isDigit hdigit
    · decide

end Token

/-! ## Texts as they are written -/

/-- **What writes down a sequence of placed tokens**: separators anywhere between the tokens, and
none needed where a token ends by itself. -/
inductive Renders : Nat → List Lexeme → List Char → Prop where
  | nil {position : Nat} : Renders position [] []
  | separator {position : Nat} {c : Char} {lexemes : List Lexeme} {rest : List Char} :
    isSeparator c = true → Renders (position + 1) lexemes rest →
    Renders position lexemes (c :: rest)
  | token {position : Nat} {token : Token} {lexemes : List Lexeme} {text rest : List Char} :
    token.Written text → token.EndsAt rest → Renders (position + text.length) lexemes rest →
    Renders position (⟨token, position⟩ :: lexemes) (text ++ rest)

theorem Renders.symbol {position : Nat} {token : Token} {c : Char} {lexemes : List Lexeme}
    {rest : List Char} (hsymbol : token.symbol? = some [c]) (hends : token.EndsAt rest)
    (h : Renders (position + 1) lexemes rest) :
    Renders position (⟨token, position⟩ :: lexemes) (c :: rest) :=
  .token (.symbol hsymbol) hends h

theorem isBlank_of_isSeparator {c : Char} (h : isSeparator c = true) : isBlank c = true := by
  simp only [isSeparator, Bool.or_eq_true, beq_iff_eq] at h
  rcases h with ((rfl | rfl) | rfl) | rfl <;> decide

/-- **A written token is scanned** where it stands. -/
theorem Lexeme.scanFrom_written {position : Nat} {token : Token} {text rest : List Char}
    (hwritten : token.Written text) (hends : token.EndsAt rest) :
    scanFrom position 0 (text ++ rest) =
      ⟨token, position⟩ :: scanFrom (position + text.length) 0 rest := by
  obtain ⟨c, text, rfl⟩ := List.exists_cons_of_ne_nil hwritten.ne_nil
  have hseparator : isSeparator c = false := Bool.eq_false_iff.2 fun hseparator => by
    simpa [isBlank_of_isSeparator hseparator] using hwritten.isBlank_eq_false
  have hposition : position + 1 + text.length = position + (c :: text).length := by
    rw [List.length_cons]
    omega
  rw [List.cons_append, scanFrom_token hseparator, Token.first_of_written hwritten hends,
    List.drop_left, hposition]

/-- **The scan finds the tokens that were written down.** -/
theorem Lexeme.scanFrom_of_renders {position : Nat} {lexemes : List Lexeme} {text : List Char}
    (h : Renders position lexemes text) : scanFrom position 0 text = lexemes := by
  induction h with
  | nil => simp
  | separator hseparator _ ih => rw [scanFrom_separator hseparator, ih]
  | token hwritten hends _ ih => rw [scanFrom_written hwritten hends, ih]

theorem Renders.allBlank_eq_false {position : Nat} {lexemes : List Lexeme} {text : List Char}
    (h : Renders position lexemes text) (hne : lexemes ≠ []) : allBlank text = false := by
  induction h with
  | nil => exact absurd rfl hne
  | separator _ _ ih =>
    rw [allBlank, List.all_cons, Bool.and_eq_false_iff]
    exact .inr (ih hne)
  | token hwritten _ _ _ =>
    obtain ⟨c, text, rfl⟩ := List.exists_cons_of_ne_nil hwritten.ne_nil
    rw [allBlank, List.cons_append, List.all_cons, hwritten.isBlank_eq_false, Bool.false_and]

end Calculator
