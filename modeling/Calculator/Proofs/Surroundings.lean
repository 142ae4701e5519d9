import Calculator.Proofs.Composition
import Calculator.Proofs.Failure
import Calculator.Proofs.Parser.Relocate

/-!
# Separators around a text

Separators in front of a text move its tokens, and separators behind it are no token and reach into
none, except that a quoted text without an end takes them in.  So a text with separators around it
is parsed as the text itself, and an error is the same one at the place it is moved to
(`evaluate_surrounded`).
-/

namespace Calculator

/-! ## In front of a text -/

namespace Lexeme

theorem scanFrom_add (offset position skip : Nat) (text : List Char) :
    scanFrom (offset + position) skip text =
      (scanFrom position skip text).map (relocate (offset + ·)) := by
  induction text generalizing position skip with
  | nil => simp
  | cons c rest ih =>
    cases skip with
    | succ skip => exact ih (position + 1) skip
    | zero =>
      unfold scanFrom
      by_cases hc : isSeparator c = true
      · rw [if_pos hc, if_pos hc]
        exact ih (position + 1) 0
      · rw [if_neg hc, if_neg hc, List.map_cons]
        exact congrArg _ (ih (position + 1) _)

theorem scanFrom_separators {separators : List Char} (h : ∀ c ∈ separators, isSeparator c = true)
    (position : Nat) (text : List Char) :
    scanFrom position 0 (separators ++ text) = scanFrom (position + separators.length) 0 text := by
  induction separators generalizing position with
  | nil => rfl
  | cons c rest ih =>
    obtain ⟨hc, hrest⟩ := List.forall_mem_cons.1 h
    rw [List.cons_append, scanFrom_separator hc, ih hrest, List.length_cons, Nat.add_assoc,
      Nat.add_comm 1]

end Lexeme

/-! ## Behind a text -/

section Behind

variable {behind : List Char}

theorem endsTokens_of_separators (h : ∀ c ∈ behind, isSeparator c = true) : EndsTokens behind := by
  intro c hc
  have hseparator := h c (List.mem_of_mem_head? hc)
  simp only [isSeparator, Bool.or_eq_true, beq_iff_eq] at hseparator
  rcases hseparator with ((rfl | rfl) | rfl) | rfl <;> decide

/-- What is no separator stands next in the text or not at all. -/
theorem any_head?_append (h : ∀ c ∈ behind, isSeparator c = true) {p : Char → Bool}
    (hp : ∀ c, isSeparator c = true → p c = false) (rest : List Char) :
    (rest ++ behind).head?.any p = rest.head?.any p := by
  cases rest with
  | cons d rest => rfl
  | nil =>
    cases behind with
    | nil => rfl
    | cons d behind => exact hp d (h d (by simp))

theorem opensCall_append (h : ∀ c ∈ behind, isSeparator c = true) (rest : List Char) :
    opensCall (rest ++ behind) = opensCall rest := by
  have hnone : behind.find? (!Text.isBlank ·) = none := by
    refine List.find?_eq_none.2 fun c hc => ?_
    simp [isBlank_of_isSeparator (h c hc)]
  unfold opensCall
  rw [List.find?_append, hnone, Option.or_none]

namespace Token

variable {c : Char}

/-- A token other than a quoted text does not see the separators behind the text. -/
theorem first_append_of_not_quote (h : ∀ c ∈ behind, isSeparator c = true)
    (hc : isSeparator c = false) (hsingle : c ≠ '\'') (hdouble : c ≠ '"') (rest : List Char) :
    first c (rest ++ behind) = first c rest := by
  have hdigit : (rest ++ behind).head?.any Char.isDigit = rest.head?.any Char.isDigit :=
    any_head?_append h (fun d hd => (isWordPart_of_isSeparator hd).2.2) rest
  have hword : (rest ++ behind).head?.any isWordStart = rest.head?.any isWordStart :=
    any_head?_append h (fun d hd => (isWordPart_of_isSeparator hd).2.1) rest
  have hnext : ∀ d, isSeparator d = false →
      ((rest ++ behind).head? == some d) = (rest.head? == some d) := by
    intro d hd
    have hbeq : ∀ o : Option Char, (o == some d) = o.any (· == d) := by
      intro o
      cases o <;> rfl
    rw [hbeq, hbeq]
    refine any_head?_append h (fun e he => beq_eq_false_iff_ne.2 ?_) rest
    rintro rfl
    rw [hd] at he
    cases he
  have hrun : numeralRun (c :: (rest ++ behind)) = numeralRun (c :: rest) :=
    numeralRun_append (endsTokens_of_separators h) (c :: rest)
  obtain ⟨htake, hdrop⟩ := span_append
    (fun d hd => (isWordPart_of_isSeparator (h d (List.mem_of_mem_head? hd))).1) rest
  simp only [first, Construct.ofRelation, hrun, hdigit, hword, htake, hdrop, opensCall_append h,
    hnext c hc, hnext '=' (by decide), hnext '*' (by decide), hnext '/' (by decide)]
  split
  case isTrue => rfl
  case isFalse =>
    split
    case isTrue => rfl
    case isFalse =>
      -- only a quoted text looks further than to the next character
      split
      case h_9 | h_10 => contradiction
      all_goals rfl

/-- **Separators behind a text do not change its first token.**  They are not taken in, unless the
token takes in all the rest of the text. -/
theorem first_append_separators (h : ∀ c ∈ behind, isSeparator c = true)
    (hc : isSeparator c = false) (rest : List Char) :
    (first c (rest ++ behind)).1 = (first c rest).1 ∧
      ((first c (rest ++ behind)).2 = (first c rest).2 ∨
        rest.length ≤ (first c rest).2 ∧ rest.length ≤ (first c (rest ++ behind)).2) := by
  by_cases hquote : c = '\'' ∨ c = '"'
  · rw [first_quote hquote, first_quote hquote]
    refine ⟨rfl, ?_⟩
    simp only [List.takeWhile_append, List.length_append]
    by_cases hend : (rest.takeWhile (· != c)).length = rest.length
    · rw [if_pos hend, hend, List.length_append]
      exact .inr ⟨by omega, by omega⟩
    · have hlt := Nat.lt_of_le_of_ne (List.takeWhile_prefix (· != c)).length_le hend
      rw [if_neg hend]
      exact .inl (by omega)
  · obtain ⟨hsingle, hdouble⟩ := not_or.1 hquote
    rw [first_append_of_not_quote h hc hsingle hdouble]
    exact ⟨rfl, .inl rfl⟩

end Token

/-- **Separators behind a text are no token**, and the tokens of the text stay what they are. -/
theorem Lexeme.scanFrom_append_separators (h : ∀ c ∈ behind, isSeparator c = true)
    (position : Nat) (text : List Char) :
    scanFrom position 0 (text ++ behind) = scanFrom position 0 text := by
  have hnone : ∀ {behind : List Char}, (∀ c ∈ behind, isSeparator c = true) → ∀ position,
      scanFrom position 0 behind = [] := by
    intro behind h position
    have hscan := scanFrom_separators h position []
    simpa using hscan
  induction position, text using scan_induction generalizing behind with
  | nil position => simp [hnone h]
  | separator position c rest hseparator ih =>
    rw [List.cons_append, scanFrom_separator hseparator, scanFrom_separator hseparator, ih h]
  | token position c rest hseparator ih =>
    obtain ⟨htoken, hmore⟩ := Token.first_append_separators h hseparator rest
    rw [List.cons_append, scanFrom_token hseparator, scanFrom_token hseparator, htoken]
    refine congrArg _ ?_
    rcases hmore with hsame | ⟨hall, hall'⟩
    · rw [hsame, List.drop_append]
      exact ih fun c hc => h c (List.mem_of_mem_drop hc)
    · -- the token reaches to the end of the text, so that only separators can be left
      rw [List.drop_append, List.drop_of_length_le hall, List.drop_of_length_le hall',
        List.nil_append, scanFrom_nil]
      exact hnone (fun c hc => h c (List.mem_of_mem_drop hc)) _

end Behind

/-! ## Around a text -/

/-- **Where the places of a text are** in a longer text that has it behind `lead` characters.  An
error at the end of the text is one at the end of the longer text. -/
def placeIn (lead length total position : Nat) : Nat :=
  if position < length then lead + position else total

section Around

variable {lead text behind : List Char}

theorem Lexeme.scan_surrounded (hlead : ∀ c ∈ lead, isSeparator c = true)
    (hbehind : ∀ c ∈ behind, isSeparator c = true) (total : Nat) :
    scan (lead ++ text ++ behind) =
      (scan text).map (relocate (placeIn lead.length text.length total)) := by
  have hmoved : scan (lead ++ text ++ behind) = (scan text).map (relocate (lead.length + ·)) := by
    unfold scan
    rw [scanFrom_append_separators hbehind, scanFrom_separators hlead, Nat.zero_add,
      ← scanFrom_add]
    rfl
  rw [hmoved]
  refine List.map_congr_left fun lexeme hlexeme => ?_
  rw [relocate, relocate, placeIn, if_pos (position_lt hlexeme)]

/-- **Separators around a text only move it.** -/
theorem parse_surrounded (hlead : ∀ c ∈ lead, isSeparator c = true)
    (hbehind : ∀ c ∈ behind, isSeparator c = true) (hblank : Text.allBlank text = false) :
    parse (String.ofList (lead ++ text ++ behind)) =
      (parse (String.ofList text)).mapError (EvalError.relocate
        (placeIn lead.length text.length (lead ++ text ++ behind).length)) := by
  have hwhole : Text.allBlank (lead ++ text ++ behind) = false := by
    simp only [Text.allBlank, List.all_append, Bool.and_eq_false_iff] at hblank ⊢
    exact .inl (.inr hblank)
  have hend : placeIn lead.length text.length (lead ++ text ++ behind).length text.length =
      (lead ++ text ++ behind).length := if_neg (Nat.lt_irrefl _)
  rw [parse_of_not_blank (by simpa using hwhole), parse_of_not_blank (by simpa using hblank),
    String.toList_ofList, String.toList_ofList, String.length_ofList, String.length_ofList,
    Parser.parse, Parser.parse, ← Parser.parseWithin_relocate, hend,
    Lexeme.scan_surrounded hlead hbehind]

theorem EvalError.IsArithmetic.relocate {err : EvalError} (h : err.IsArithmetic)
    (move : Nat → Nat) : err.relocate move = err := by
  rcases h with rfl | rfl | rfl <;> rfl

/-- **Separators around a text do not change its value**, and an error only as to its place. -/
theorem evaluate_surrounded (hlead : ∀ c ∈ lead, isSeparator c = true)
    (hbehind : ∀ c ∈ behind, isSeparator c = true) (hblank : Text.allBlank text = false) :
    evaluate (String.ofList (lead ++ text ++ behind)) =
      (evaluate (String.ofList text)).mapError (EvalError.relocate
        (placeIn lead.length text.length (lead ++ text ++ behind).length)) := by
  have hparse := parse_surrounded hlead hbehind hblank
  cases htext : parse (String.ofList text) with
  | error err =>
    rw [htext] at hparse
    rw [evaluate_of_parse_error htext, evaluate_of_parse_error hparse]
    rfl
  | ok e =>
    rw [htext] at hparse
    rw [evaluate_of_parse htext, evaluate_of_parse hparse]
    cases hvalue : e.evaluate with
    | error err => exact congrArg _ ((Expr.evaluate_eq_error hvalue).relocate _).symm
    | ok v => rfl

end Around

end Calculator
