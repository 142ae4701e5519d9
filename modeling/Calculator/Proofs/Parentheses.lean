import Calculator.Proofs.Parser.FirstProblem
import Calculator.Proofs.Whitelist

/-!
# What the parser says about parentheses

Two messages speak of parentheses: that a closing one is unmatched, and that an opening one was
never closed.  Whether they are true is a question about the tokens alone, and `Balanced` is the
usual answer to it: a closing parenthesis and an opening one belong together if what stands between
them is balanced.

The parser says them at places where it has read the beginning of a sentence, and there the
`Pending` machine keeps the parentheses that are still open.  `Unclosed` says what this list is in
terms of balanced parts, and every step of the machine keeps it up (`Unclosed.step`).  So a
parenthesis that is reported as never closed is the last unmatched one.  One that is reported as
unmatched need not be so: it may also close an open one where an operand is due, as in `()`.
-/

namespace Calculator

/-! ## Balanced tokens -/

/-- **Tokens whose parentheses match each other.** -/
inductive Balanced : List Lexeme → Prop where
  | nil : Balanced []
  | other {next : Lexeme} {rest : List Lexeme} :
    next.token.isParenthesis = false → Balanced rest → Balanced (next :: rest)
  | group {first last : Lexeme} {inside rest : List Lexeme} :
    first.token = .leftParen → Balanced inside → last.token = .rightParen → Balanced rest →
    Balanced (first :: (inside ++ last :: rest))

/-- **A closing parenthesis right behind these tokens has a match among them.** -/
def HasOpening (front : List Lexeme) : Prop :=
  ∃ before first inside, front = before ++ first :: inside ∧ first.token = .leftParen ∧
    Balanced inside

/-- **An opening parenthesis right before these tokens has a match among them.** -/
def HasClosing (rest : List Lexeme) : Prop :=
  ∃ inside last after, rest = inside ++ last :: after ∧ last.token = .rightParen ∧ Balanced inside

theorem HasClosing.append {rest : List Lexeme} (h : HasClosing rest) (more : List Lexeme) :
    HasClosing (rest ++ more) := by
  obtain ⟨inside, last, after, rfl, hlast, hinside⟩ := h
  exact ⟨inside, last, after ++ more, by simp, hlast, hinside⟩

namespace Balanced

variable {tokens more : List Lexeme}

theorem append (h : Balanced tokens) (hmore : Balanced more) : Balanced (tokens ++ more) := by
  induction h with
  | nil => exact hmore
  | other hnext _ ih => exact .other hnext ih
  | group hfirst hinside hlast _ _ ih =>
    rw [List.cons_append, List.append_assoc, List.cons_append]
    exact .group hfirst hinside hlast ih

theorem single {next : Lexeme} (h : next.token.isParenthesis = false) : Balanced [next] :=
  .other h .nil

theorem hasClosing (h : Balanced tokens) {before after : List Lexeme} {first : Lexeme}
    (htokens : tokens = before ++ first :: after) (hfirst : first.token = .leftParen) :
    HasClosing after := by
  induction h generalizing before after with
  | nil => simp at htokens
  | @other next rest hnext hrest ih =>
    rcases List.cons_eq_append_iff.1 htokens with ⟨rfl, hcons⟩ | ⟨before', rfl, hrest'⟩
    · cases hcons
      rw [hfirst] at hnext
      cases hnext
    · exact ih hrest'
  | @group opening last inside rest hopening hinside hlast hrest ihinside ihrest =>
    rcases List.cons_eq_append_iff.1 htokens with ⟨rfl, hcons⟩ | ⟨before', rfl, hbehind⟩
    · cases hcons
      exact ⟨inside, last, rest, rfl, hlast, hinside⟩
    · -- the parenthesis stands inside of the group or behind it
      rcases List.append_eq_append_iff.1 hbehind with
        ⟨front, rfl, hlater⟩ | ⟨behind, hinner, hlater⟩
      · rcases List.cons_eq_append_iff.1 hlater with ⟨rfl, hcons⟩ | ⟨front', rfl, hrest'⟩
        · cases hcons
          rw [hfirst] at hlast
          cases hlast
        · exact ihrest hrest'
      · rcases List.cons_eq_append_iff.1 hlater with ⟨rfl, hcons⟩ | ⟨inner, rfl, rfl⟩
        · cases hcons
          rw [hfirst] at hlast
          cases hlast
        · exact (ihinside hinner).append (last :: rest)

end Balanced

/-! ## Counting open parentheses -/

/-- **How many parentheses are open** behind some tokens, if so many are open before them; `none` if
one is closed that is not open. -/
def openAfter : Nat → List Lexeme → Option Nat
  | count, [] => some count
  | count, next :: rest =>
    match next.token, count with
    | .leftParen, count => openAfter (count + 1) rest
    | .rightParen, 0 => none
    | .rightParen, count + 1 => openAfter count rest
    | _, count => openAfter count rest

section Count

variable {count : Nat} {next : Lexeme} {rest : List Lexeme}

theorem openAfter_leftParen (h : next.token = .leftParen) :
    openAfter count (next :: rest) = openAfter (count + 1) rest := by
  simp [openAfter, h]

theorem openAfter_rightParen (h : next.token = .rightParen) :
    openAfter (count + 1) (next :: rest) = openAfter count rest := by
  simp [openAfter, h]

theorem openAfter_unmatched (h : next.token = .rightParen) :
    openAfter 0 (next :: rest) = none := by
  simp [openAfter, h]

theorem openAfter_other (h : next.token.isParenthesis = false) :
    openAfter count (next :: rest) = openAfter count rest := by
  cases htoken : next.token <;> simp_all [openAfter, Token.isParenthesis]

theorem openAfter_append (count : Nat) (front rest : List Lexeme) :
    openAfter count (front ++ rest) =
      (openAfter count front).bind fun count => openAfter count rest := by
  fun_induction openAfter count front <;> simp_all [openAfter]

/-- **Balanced tokens leave open what was open before them.** -/
theorem Balanced.openAfter_append {tokens : List Lexeme} (h : Balanced tokens) (count : Nat)
    (rest : List Lexeme) : openAfter count (tokens ++ rest) = openAfter count rest := by
  induction h generalizing count rest with
  | nil => rfl
  | other hnext _ ih => rw [List.cons_append, openAfter_other hnext, ih]
  | group hfirst _ hlast _ ihinside ihrest =>
    rw [List.cons_append, openAfter_leftParen hfirst, List.append_assoc, ihinside, List.cons_append,
      openAfter_rightParen hlast, ihrest]

end Count

theorem Balanced.not_hasOpening {front : List Lexeme} (h : Balanced front) :
    ¬ HasOpening front := by
  rintro ⟨before, first, inside, rfl, hfirst, hinside⟩
  have hfront := h.openAfter_append 0 []
  rw [List.append_nil, Calculator.openAfter_append] at hfront
  obtain ⟨count, -, hcount⟩ := Option.bind_eq_some_iff.1 hfront
  have hinner := hinside.openAfter_append (count + 1) []
  rw [List.append_nil] at hinner
  rw [openAfter_leftParen hfirst, hinner] at hcount
  cases hcount

theorem Balanced.not_hasClosing {rest : List Lexeme} (h : Balanced rest) : ¬ HasClosing rest := by
  rintro ⟨inside, last, after, rfl, hlast, hinside⟩
  have hrest := h.openAfter_append 0 []
  rw [List.append_nil, hinside.openAfter_append, openAfter_unmatched hlast] at hrest
  cases hrest

/-! ## The parentheses that are still open -/

/-- **The positions of the parentheses that are open** behind some tokens, innermost first: each of
them is followed by balanced tokens and then by the next one. -/
inductive Unclosed : List Lexeme → List Nat → Prop where
  | balanced {tokens : List Lexeme} : Balanced tokens → Unclosed tokens []
  | behind {front inside : List Lexeme} {first : Lexeme} {opened : List Nat} :
    Unclosed front opened → first.token = .leftParen → Balanced inside →
    Unclosed (front ++ first :: inside) (first.position :: opened)

/-- The positions of the parentheses that a reader has to remember. -/
def Pending.opened : Pending → List Nat
  | operandDue opened | operandRead opened => opened

namespace Unclosed

variable {front : List Lexeme} {opened : List Nat}

theorem append (h : Unclosed front opened) {more : List Lexeme} (hmore : Balanced more) :
    Unclosed (front ++ more) opened := by
  cases h with
  | balanced hfront => exact .balanced (hfront.append hmore)
  | behind hfront hfirst hinside =>
    rw [List.append_assoc, List.cons_append]
    exact .behind hfront hfirst (hinside.append hmore)

theorem close {position : Nat} (h : Unclosed front (position :: opened)) {last : Lexeme}
    (hlast : last.token = .rightParen) : Unclosed (front ++ [last]) opened := by
  cases h with
  | behind hfront hfirst hinside =>
    rw [List.append_assoc, List.cons_append]
    exact hfront.append (.group hfirst hinside hlast .nil)

/-- **Every step of the machine keeps track of the open parentheses.** -/
theorem step {state state' : Pending} {next : Lexeme} (h : Unclosed front state.opened)
    (hstep : state.step next = some state') : Unclosed (front ++ [next]) state'.opened := by
  have hother : next.token.isParenthesis = false → Unclosed (front ++ [next]) state.opened :=
    fun hnext => h.append (.single hnext)
  cases state with
  | operandDue opened =>
    rw [Pending.step_operandDue] at hstep
    split at hstep
    case h_2 hnext =>
      cases hstep
      exact .behind h hnext .nil
    case h_1 hnext | h_3 hnext | h_4 hnext =>
      cases hstep
      exact hother (by rw [hnext]; rfl)
    case h_5 => cases hstep
  | operandRead opened =>
    rw [Pending.step_operandRead] at hstep
    split at hstep
    case h_8 hnext =>
      cases hstep
      exact h.close hnext
    case h_9 => cases hstep
    all_goals
      rename_i hnext
      cases hstep
      exact hother (by rw [hnext]; rfl)

/-- **After any run** the machine has the parentheses that are open. -/
theorem run {state state' : Pending} {tokens : List Lexeme} (h : Unclosed front state.opened)
    (hrun : state.run tokens = some state') : Unclosed (front ++ tokens) state'.opened := by
  induction tokens generalizing state front with
  | nil =>
    cases hrun
    rwa [List.append_nil]
  | cons next rest ih =>
    obtain ⟨between, hstep, hrest⟩ := Option.bind_eq_some_iff.1 hrun
    rw [List.append_cons]
    exact ih (h.step hstep) hrest

theorem of_run {state : Pending} {tokens : List Lexeme}
    (hrun : (Pending.operandDue []).run tokens = some state) : Unclosed tokens state.opened := by
  have hstart : Unclosed [] (Pending.operandDue []).opened := .balanced .nil
  exact hstart.run hrun

/-- The innermost open parenthesis is the last one that is never closed. -/
theorem exists_last {position : Nat} {tokens : List Lexeme}
    (h : Unclosed tokens (position :: opened)) :
    ∃ front first rest, tokens = front ++ first :: rest ∧ first.token = .leftParen ∧
      first.position = position ∧ ¬ HasClosing rest ∧
      ∀ before later after, rest = before ++ later :: after → later.token = .leftParen →
        HasClosing after := by
  cases h with
  | @behind front inside first _ hfront hfirst hinside =>
    exact ⟨front, first, inside, rfl, hfirst, rfl, hinside.not_hasClosing,
      fun before later after => hinside.hasClosing⟩

end Unclosed

/-! ## Reports -/

/-- The tokens behind which an operand is due. -/
def Token.needsOperand : Token → Bool
  | leftParen | plus | minus | star | slash | doubleSlash | percent | doubleStar => true
  | _ => false

/-- **An operand is missing** behind these tokens. -/
def OperandMissing (front : List Lexeme) : Prop :=
  ∃ before last, front = before ++ [last] ∧ last.token.needsOperand = true

namespace Pending

variable {state : Pending} {next : Lexeme}

theorem needsOperand_of_step {opened : List Nat} (h : state.step next = some (operandDue opened)) :
    next.token.needsOperand = true := by
  cases state with
  | operandDue outer =>
    rw [step_operandDue] at h
    split at h
    case h_1 | h_5 => cases h
    all_goals
      rename_i hnext
      rw [hnext]
      rfl
  | operandRead outer =>
    rw [step_operandRead] at h
    split at h
    case h_8 | h_9 => cases h
    all_goals
      rename_i hnext
      rw [hnext]
      rfl

/-- Where the machine expects an operand, one is missing, unless nothing has been read. -/
theorem operandMissing_of_run {opened : List Nat} {front : List Lexeme} (hfront : front ≠ [])
    (h : state.run front = some (operandDue opened)) : OperandMissing front := by
  obtain rfl | ⟨before, last, rfl⟩ := List.eq_nil_or_concat front
  · exact absurd rfl hfront
  · rw [List.concat_eq_append, run_append] at h
    obtain ⟨between, -, hlast⟩ := Option.bind_eq_some_iff.1 h
    rw [run_cons] at hlast
    obtain ⟨after, hstep, hafter⟩ := Option.bind_eq_some_iff.1 hlast
    cases hafter
    exact ⟨before, last, List.concat_eq_append, needsOperand_of_step hstep⟩

end Pending

theorem Lexeme.token_of_unmatchedClose {next : Lexeme} {position : Nat}
    (h : next.refused = .malformed .unmatchedClose position) :
    next.token = .rightParen ∧ next.position = position := by
  rw [refused] at h
  cases htoken : next.token <;> simp_all

theorem Lexeme.refused_ne_neverClosed (next : Lexeme) (opening position : Nat) :
    next.refused ≠ .malformed (.neverClosed opening) position := by
  rw [refused]
  split <;> simp

theorem fails_of_parse {text : String} {fault : Fault} {position : Nat}
    (h : parse text = .error (.malformed fault position)) :
    Parser.Fails maxHeight (maxNesting + 1)
      (fun textEnd => Parser.parseWithin maxHeight textEnd maxNesting) text.length []
      (Lexeme.scan text.toList) (.malformed fault position) := by
  cases hblank : Text.allBlank text.toList with
  | true =>
    rw [parse, hblank] at h
    cases h
  | false =>
    rw [parse_of_not_blank hblank] at h
    exact Parser.parseWithin_fails (by decide) h

/-- **A parenthesis that is reported as unmatched** has no match, unless an operand is missing
before it. -/
theorem unmatchedClose_of_parse {text : String} {position : Nat}
    (h : parse text = .error (.malformed .unmatchedClose position)) :
    ∃ front next after, Lexeme.scan text.toList = front ++ next :: after ∧
      next.token = .rightParen ∧ next.position = position ∧
      (HasOpening front → OperandMissing front) := by
  have hfails := fails_of_parse h
  generalize htokens : Lexeme.scan text.toList = tokens at hfails
  generalize herr : EvalError.malformed .unmatchedClose position = err at hfails
  cases hfails with
  | tooDeep | unexpectedEnd | neverClosed => cases herr
  | @refused front next after state hsplit hrun hstep =>
    obtain ⟨hnext, hposition⟩ := Lexeme.token_of_unmatchedClose herr.symm
    refine ⟨front, next, after, hsplit, hnext, hposition, fun hopening => ?_⟩
    have hunclosed : Unclosed front state.opened := .of_run hrun
    cases state with
    | operandDue opened =>
      refine Pending.operandMissing_of_run ?_ hrun
      rintro rfl
      exact Balanced.nil.not_hasOpening hopening
    | operandRead opened =>
      cases opened with
      | nil =>
        cases hunclosed with
        | balanced hfront => exact absurd hopening hfront.not_hasOpening
      | cons outermost outer =>
        rw [Pending.step_rightParen hnext] at hstep
        cases hstep

/-- **A parenthesis that is reported as never closed** is the last one that has no match. -/
theorem neverClosed_of_parse {text : String} {opening position : Nat}
    (h : parse text = .error (.malformed (.neverClosed opening) position)) :
    ∃ front first rest, Lexeme.scan text.toList = front ++ first :: rest ∧
      first.token = .leftParen ∧ first.position = opening ∧ ¬ HasClosing rest ∧
      ∀ before later after, rest = before ++ later :: after → later.token = .leftParen →
        HasClosing after := by
  have hfails := fails_of_parse h
  generalize htokens : Lexeme.scan text.toList = tokens at hfails
  generalize herr : EvalError.malformed (.neverClosed opening) position = err at hfails
  cases hfails with
  | tooDeep | unexpectedEnd => cases herr
  | @refused front next => exact absurd herr.symm (next.refused_ne_neverClosed opening position)
  | neverClosed inner hrun =>
    cases herr
    exact (Unclosed.of_run hrun).exists_last

/-- **What is reported of parentheses.**  A parenthesis that is reported as unmatched is a closing
one.  It has no match among the tokens before it, unless an operand is missing there: of a
parenthesis that follows an operand the report is true.  A parenthesis that is reported as never
closed is the last one in the text that has no match. -/
theorem parse_reports_parentheses (text : String) :
    (∀ position, parse text = .error (.malformed .unmatchedClose position) →
      ∃ front next after, Lexeme.scan text.toList = front ++ next :: after ∧
        next.token = .rightParen ∧ next.position = position ∧
        (HasOpening front → OperandMissing front)) ∧
    (∀ opening position, parse text = .error (.malformed (.neverClosed opening) position) →
      ∃ front first rest, Lexeme.scan text.toList = front ++ first :: rest ∧
        first.token = .leftParen ∧ first.position = opening ∧ ¬ HasClosing rest ∧
        ∀ before later after, rest = before ++ later :: after → later.token = .leftParen →
          HasClosing after) := by
  constructor
  · intro position hparse
    exact unmatchedClose_of_parse hparse
  · intro opening position hparse
    exact neverClosed_of_parse hparse

/-- **A parenthesis that has a match is reported as unmatched** where an operand is missing. -/
theorem not_unmatched_without_opening :
    ¬ ∀ text position, parse text = .error (.malformed .unmatchedClose position) →
      ∃ front next after, Lexeme.scan text.toList = front ++ next :: after ∧
        next.token = .rightParen ∧ next.position = position ∧ ¬ HasOpening front := by
  intro h
  obtain ⟨front, next, after, hscan, -, hposition, hnone⟩ := h "()" 1 rfl
  have htokens : Lexeme.scan "()".toList = [⟨.leftParen, 0⟩, ⟨.rightParen, 1⟩] := rfl
  rw [htokens] at hscan
  match front with
  | [] =>
    cases hscan
    cases hposition
  | [first] =>
    cases hscan
    exact hnone ⟨[], _, [], rfl, rfl, .nil⟩
  | _ :: _ :: _ => simp at hscan

end Calculator
