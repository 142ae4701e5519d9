import Calculator.Proofs.Phrase

/-!
# How expressions begin

Whether tokens can still become an expression does not hang on the tree they will get.  It is enough
to know whether an operand is due or has just been read, and which parentheses are open: that is
what `Pending` keeps, and `Pending.step` says which tokens may come next.

* `Pending.run_of_derives`: a phrase takes the machine from a due operand to a read one.
* `Pending.run_closing`: from every state the tokens can be completed.

That the machine accepts nothing but expressions is shown with the parser, in
`Calculator.Proofs.Parser.FirstProblem`.
-/

namespace Calculator

/-! ## Sentences -/

/-- **A sentence of the grammar**, however deeply nested. -/
def IsSentence (tokens : List Token) : Prop := ∃ n e, Derives .sum n tokens e

/-- **The beginning of a sentence.** -/
def BeginsSentence (tokens : List Token) : Prop := ∃ rest, IsSentence (tokens ++ rest)

/-! ## The machine -/

/-- **What a reader of an expression has to remember**: whether an operand is due, and the positions
of the open parentheses, innermost first. -/
inductive Pending where
  | operandDue (opened : List Nat)
  | operandRead (opened : List Nat)
deriving DecidableEq

namespace Pending

/-- The state after one more token; `none` if the token cannot come next. -/
def step : Pending → Lexeme → Option Pending
  | operandDue opened, next =>
    match next.token with
    | .number _ => some (operandRead opened)
    | .leftParen => some (operandDue (next.position :: opened))
    | .plus | .minus => some (operandDue opened)
    | _ => none
  | operandRead opened, next =>
    match next.token, opened with
    | .plus, _ | .minus, _ | .star, _ | .slash, _ | .doubleSlash, _ | .percent, _
    | .doubleStar, _ => some (operandDue opened)
    | .rightParen, _ :: outer => some (operandRead outer)
    | _, _ => none

/-- The state after a sequence of tokens. -/
def run (state : Pending) (tokens : List Lexeme) : Option Pending := tokens.foldlM step state

variable {opened : List Nat} {next : Lexeme}

@[simp] theorem run_nil (state : Pending) : state.run [] = some state := rfl

@[simp] theorem run_cons (state : Pending) (next : Lexeme) (tokens : List Lexeme) :
    state.run (next :: tokens) = (state.step next).bind fun state => state.run tokens := rfl

theorem run_append (state : Pending) (front rest : List Lexeme) :
    state.run (front ++ rest) = (state.run front).bind fun state => state.run rest := by
  simp [run, List.foldlM_append]

/-! ### Single steps -/

theorem step_operandDue : (operandDue opened).step next =
    match next.token with
    | .number _ => some (operandRead opened)
    | .leftParen => some (operandDue (next.position :: opened))
    | .plus | .minus => some (operandDue opened)
    | _ => none := rfl

theorem step_operandRead : (operandRead opened).step next =
    match next.token, opened with
    | .plus, _ | .minus, _ | .star, _ | .slash, _ | .doubleSlash, _ | .percent, _
    | .doubleStar, _ => some (operandDue opened)
    | .rightParen, _ :: outer => some (operandRead outer)
    | _, _ => none := rfl

theorem step_number {value : Binary64} (h : next.token = .number value) :
    (operandDue opened).step next = some (operandRead opened) := by
  simp [step_operandDue, h]

theorem step_leftParen (h : next.token = .leftParen) :
    (operandDue opened).step next = some (operandDue (next.position :: opened)) := by
  simp [step_operandDue, h]

theorem step_sign {op : UnaryOp} (h : next.token = op.token) :
    (operandDue opened).step next = some (operandDue opened) := by
  cases op <;> simp_all [step_operandDue, UnaryOp.token]

theorem step_operator {op : BinaryOp} (h : next.token = op.token) :
    (operandRead opened).step next = some (operandDue opened) := by
  cases op <;> simp_all [step_operandRead, BinaryOp.token]

theorem step_rightParen {position : Nat} (h : next.token = .rightParen) :
    (operandRead (position :: opened)).step next = some (operandRead opened) := by
  simp [step_operandRead, h]

/-- Only numbers, parentheses and signs start an operand. -/
theorem step_operandDue_eq_none (hnumber : ∀ value, next.token ≠ .number value)
    (hparen : next.token ≠ .leftParen) (hsign : ∀ op : UnaryOp, next.token ≠ op.token) :
    (operandDue opened).step next = none := by
  have hplus : next.token ≠ .plus := hsign .identity
  have hminus : next.token ≠ .minus := hsign .negate
  cases htoken : next.token <;> simp_all [step_operandDue]

/-- Only an operator or a parenthesis that closes an open one follows an operand. -/
theorem step_operandRead_eq_none (hop : ∀ op : BinaryOp, next.token ≠ op.token)
    (hparen : next.token = .rightParen → opened = []) :
    (operandRead opened).step next = none := by
  have hadd := hop .add
  have hsubtract := hop .subtract
  have hmultiply := hop .multiply
  have hdivide := hop .divide
  have hfloorDivide := hop .floorDivide
  have hmodulo := hop .modulo
  have hpower := hop .power
  simp only [BinaryOp.token] at hadd hsubtract hmultiply hdivide hfloorDivide hmodulo hpower
  cases htoken : next.token <;> simp_all [step_operandRead]

/-! ### Whole phrases -/

/-- **A phrase is read as one operand.** -/
theorem run_of_derives {phrase : Phrase} {n : Nat} {front : List Lexeme} {e : Expr}
    (h : Derives phrase n (front.map Lexeme.token) e) :
    (operandDue opened).run front = some (operandRead opened) := by
  generalize htokens : front.map Lexeme.token = tokens at h
  induction h generalizing front opened with
  | number =>
    obtain ⟨next, rfl, hnext⟩ := List.map_eq_singleton_iff.1 htokens
    simp [step_number hnext]
  | parentheses _ ih =>
    obtain ⟨next, after, rfl, hnext, hafter⟩ := List.map_eq_cons_iff.1 htokens
    obtain ⟨inside, last, rfl, hinside, hlast⟩ := List.map_eq_append_iff.1 hafter
    obtain ⟨close, rfl, hclose⟩ := List.map_eq_singleton_iff.1 hlast
    simp [step_leftParen hnext, run_append, ih hinside, step_rightParen hclose]
  | primary _ ih | unsigned _ ih | factor _ ih | term _ ih => exact ih htokens
  | sign op _ ih =>
    obtain ⟨next, operand, rfl, hnext, hoperand⟩ := List.map_eq_cons_iff.1 htokens
    simp [step_sign hnext, ih hoperand]
  | power _ _ ihl ihr =>
    obtain ⟨left, after, rfl, hleft, hafter⟩ := List.map_eq_append_iff.1 htokens
    obtain ⟨next, right, rfl, hnext, hright⟩ := List.map_eq_cons_iff.1 hafter
    have hpower : next.token = BinaryOp.power.token := hnext
    simp [run_append, ihl hleft, step_operator hpower, ihr hright]
  | product _ _ _ ihl ihr | sum _ _ _ ihl ihr =>
    obtain ⟨left, after, rfl, hleft, hafter⟩ := List.map_eq_append_iff.1 htokens
    obtain ⟨next, right, rfl, hnext, hright⟩ := List.map_eq_cons_iff.1 hafter
    simp [run_append, ihl hleft, step_operator hnext, ihr hright]

/-- Tokens that complete what has been read: an operand if one is due, then a parenthesis for each
open one. -/
def closing : Pending → List Lexeme
  | operandDue opened => ⟨.number .zero, 0⟩ :: opened.map fun _ => ⟨.rightParen, 0⟩
  | operandRead opened => opened.map fun _ => ⟨.rightParen, 0⟩

theorem run_closing (state : Pending) : state.run state.closing = some (operandRead []) := by
  have hparens : ∀ opened : List Nat,
      (operandRead opened).run (opened.map fun _ => ⟨.rightParen, 0⟩) = some (operandRead []) := by
    intro opened
    induction opened with
    | nil => rfl
    | cons position opened ih => simpa [step_operandRead] using ih
  cases state with
  | operandDue opened => simpa [closing, step_operandDue] using hparens opened
  | operandRead opened => exact hparens opened

theorem run_of_beginsSentence {front : List Lexeme}
    (h : BeginsSentence (front.map Lexeme.token)) :
    ∃ state, (operandDue []).run front = some state := by
  obtain ⟨rest, n, e, hderives⟩ := h
  have hplaced : front.map Lexeme.token ++ rest =
      (front ++ rest.map fun token => Lexeme.mk token 0).map Lexeme.token := by
    rw [List.map_append, map_token_placed]
  rw [hplaced] at hderives
  have hrun : (operandDue []).run _ = some (operandRead []) := run_of_derives hderives
  rw [run_append, Option.bind_eq_some_iff] at hrun
  obtain ⟨state, hstate, -⟩ := hrun
  exact ⟨state, hstate⟩

end Pending

end Calculator
