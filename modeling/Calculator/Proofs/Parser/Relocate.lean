import Calculator.Proofs.Parser.Rule

/-!
# Moving the tokens of a text

The parser compares no places and counts none: the place of a token, or the end of the text, only
ever gets into the error that is reported.  So if the tokens and the end of the text are moved, by
any function at all, the same tree is read, or the same error is reported at the place it is moved
to (`parseWithin_relocate`).
-/

namespace Calculator

/-! ## Places in errors and tokens -/

/-- A fault with its place moved. -/
def Fault.relocate (move : Nat → Nat) : Fault → Fault
  | neverClosed position => neverClosed (move position)
  | fault => fault

/-- **An error with its places moved.** -/
def EvalError.relocate (move : Nat → Nat) : EvalError → EvalError
  | malformed fault position => malformed (fault.relocate move) (move position)
  | disallowed construct position => disallowed construct (move position)
  | err => err

/-- A token in another place. -/
def Lexeme.relocate (move : Nat → Nat) (lexeme : Lexeme) : Lexeme :=
  ⟨lexeme.token, move lexeme.position⟩

theorem Lexeme.refused_relocate (move : Nat → Nat) (lexeme : Lexeme) :
    (lexeme.relocate move).refused = lexeme.refused.relocate move := by
  obtain ⟨token, position⟩ := lexeme
  cases token <;> rfl

namespace Parser

variable {highest textEnd : Nat} {move : Nat → Nat}

/-- What a rule gives, with all places moved. -/
def Outcome.relocate (move : Nat → Nat) : Outcome → Outcome
  | .ok (tree, rest) => .ok (tree, rest.map (Lexeme.relocate move))
  | .error err => .error (err.relocate move)

/-- **A rule that does for moved tokens what another one does for the tokens.** -/
def Relocates (move : Nat → Nat) (rule moved : Rule) : Prop :=
  ∀ tokens, moved (tokens.map (Lexeme.relocate move)) = Outcome.relocate move (rule tokens)

theorem Relocates.eq {rule moved : Rule} (h : Relocates move rule moved) {tokens : List Lexeme}
    {outcome : Outcome} (hrule : rule tokens = outcome) :
    moved (tokens.map (Lexeme.relocate move)) = outcome.relocate move := by
  rw [h, hrule]

/-! ## The rules

Each rule keeps its way through when the tokens are moved: the relation that describes it is applied
to the moved tokens with the same constructor. -/

theorem positionOf_relocate (tokens : List Lexeme) :
    positionOf (move textEnd) (tokens.map (Lexeme.relocate move)) =
      move (positionOf textEnd tokens) := by
  cases tokens <;> rfl

theorem tooDeep_relocates : Relocates move (tooDeep textEnd) (tooDeep (move textEnd)) := by
  intro tokens
  rw [tooDeep, positionOf_relocate]
  rfl

theorem withinHeight_relocate (tree : Subtree) (rest : List Lexeme) :
    withinHeight highest (move textEnd) tree (rest.map (Lexeme.relocate move)) =
      Outcome.relocate move (withinHeight highest textEnd tree rest) := by
  by_cases hlt : highest < tree.height
  · rw [withinHeight_of_lt _ hlt, withinHeight_of_lt _ hlt, positionOf_relocate]
    rfl
  · rw [withinHeight_of_le _ (Nat.not_lt.1 hlt), withinHeight_of_le _ (Nat.not_lt.1 hlt)]
    rfl

theorem forall_head?_relocate (P : Token → Prop) {tokens : List Lexeme}
    (h : ∀ next ∈ tokens.head?, P next.token) :
    ∀ next ∈ (tokens.map (Lexeme.relocate move)).head?, P next.token := by
  cases tokens with
  | nil => simp
  | cons next rest => simpa [Lexeme.relocate] using h

theorem primary_relocates {sum moved : Rule} (hsum : Relocates move sum moved) :
    Relocates move (primary textEnd sum) (primary (move textEnd) moved) := by
  intro tokens
  refine primary_eq_iff.2 ?_
  have hreads := primaryReads textEnd sum tokens
  generalize primary textEnd sum tokens = outcome at hreads ⊢
  cases hreads with
  | number hnext => exact .number hnext
  | closed hnext hinside hclose => exact .closed hnext (hsum.eq hinside) hclose
  | empty => exact .empty
  | @refused next rest hnumber hparen =>
    have hrefused := @PrimaryReads.refused (move textEnd) moved (next.relocate move)
      (rest.map (Lexeme.relocate move)) hnumber hparen
    rwa [Lexeme.refused_relocate] at hrefused
  | insideFailed hnext hinside => exact .insideFailed hnext (hsum.eq hinside)
  | neverClosed hnext hinside => exact .neverClosed hnext (hsum.eq hinside)
  | @notClosed next close inside rest tree hnext hinside hclose =>
    have hrefused := @PrimaryReads.notClosed (move textEnd) moved (next.relocate move)
      (close.relocate move) _ _ tree hnext (hsum.eq hinside) hclose
    rwa [Lexeme.refused_relocate] at hrefused

theorem power_relocates {signed sum movedSigned movedSum : Rule}
    (hsigned : Relocates move signed movedSigned) (hsum : Relocates move sum movedSum) :
    Relocates move (power highest textEnd signed sum)
      (power highest (move textEnd) movedSigned movedSum) := by
  intro tokens
  refine power_eq_iff.2 ?_
  have hprimary := @primary_relocates textEnd move sum movedSum hsum
  have hreads := powerReads highest textEnd signed sum tokens
  generalize power highest textEnd signed sum tokens = outcome at hreads ⊢
  cases hreads with
  | baseFailed hbase => exact .baseFailed (hprimary.eq hbase)
  | alone hbase hstops => exact .alone (hprimary.eq hbase) (forall_head?_relocate
      (fun token => ∀ op : BinaryOp, token = op.token → Phrase.signed.extendedBy op = false) hstops)
  | exponentFailed hbase hnext hexponent =>
    exact .exponentFailed (hprimary.eq hbase) hnext (hsigned.eq hexponent)
  | raised hbase hnext hexponent houtcome =>
    refine .raised (hprimary.eq hbase) hnext (hsigned.eq hexponent) ?_
    rw [withinHeight_relocate, houtcome]

theorem signed_relocates {inner sum movedInner movedSum : Rule}
    (hinner : Relocates move inner movedInner) (hsum : Relocates move sum movedSum) :
    Relocates move (signed highest textEnd inner sum)
      (signed highest (move textEnd) movedInner movedSum) := by
  intro tokens
  refine signed_eq_iff.2 ?_
  have hreads := signedReads highest textEnd inner sum tokens
  generalize signed highest textEnd inner sum tokens = outcome at hreads ⊢
  cases hreads with
  | unsigned hfirst hpower =>
    exact .unsigned (forall_head?_relocate (fun token => ∀ op : UnaryOp, token ≠ op.token) hfirst)
      ((power_relocates hinner hsum).eq hpower)
  | operandFailed htoken hoperand => exact .operandFailed htoken (hinner.eq hoperand)
  | sign htoken hoperand houtcome =>
    refine .sign htoken (hinner.eq hoperand) ?_
    rw [withinHeight_relocate, houtcome]

section Chains

variable {op? : Token → Option BinaryOp} {operand moved : Rule}

theorem chainFrom_relocates (hoperand : Relocates move operand moved) (steps : Nat)
    (left : Subtree) :
    Relocates move (chainFrom highest textEnd op? operand steps left)
      (chainFrom highest (move textEnd) op? moved steps left) := by
  induction steps generalizing left with
  | zero =>
    intro tokens
    rfl
  | succ steps ih =>
    intro tokens
    refine chainFrom_eq_iff.2 ?_
    have hreads := chainFrom_eq_iff.1 (Eq.refl
      (chainFrom highest textEnd op? operand (steps + 1) left tokens))
    generalize chainFrom highest textEnd op? operand (steps + 1) left tokens = outcome
      at hreads ⊢
    cases hreads with
    | stop hnext => exact .stop (forall_head?_relocate (op? · = none) hnext)
    | operandFailed hnext hright => exact .operandFailed hnext (hoperand.eq hright)
    | @tooHigh next behind rest op right hnext hright hlt =>
      rw [Outcome.relocate, EvalError.relocate, ← @positionOf_relocate textEnd move rest]
      exact .tooHigh hnext (hoperand.eq hright) hlt
    | link hnext hright hle hagain =>
      exact .link hnext (hoperand.eq hright) hle ((ih _).eq hagain)

theorem chain_relocates (hoperand : Relocates move operand moved) :
    Relocates move (chain highest textEnd op? operand)
      (chain highest (move textEnd) op? moved) := by
  intro tokens
  cases hfirst : operand tokens with
  | error err =>
    rw [chain_of_error hfirst, chain_of_error (hoperand.eq hfirst)]
    rfl
  | ok read =>
    obtain ⟨left, rest⟩ := read
    rw [chain_of_ok hfirst, chain_of_ok (hoperand.eq hfirst), chainRest, chainRest,
      List.length_map, chainFrom_relocates hoperand]

end Chains

theorem sumOf_relocates {signed moved : Rule} (hsigned : Relocates move signed moved) :
    Relocates move (sumOf highest textEnd signed) (sumOf highest (move textEnd) moved) :=
  chain_relocates (chain_relocates hsigned)

/-- **Moving the tokens commutes with the rules** on every level. -/
theorem signedAt_relocates (levels : Nat) :
    Relocates move (signedAt highest textEnd levels) (signedAt highest (move textEnd) levels) := by
  induction levels with
  | zero => exact signed_relocates tooDeep_relocates tooDeep_relocates
  | succ levels ih => exact signed_relocates ih (sumOf_relocates ih)

/-! ## Whole expressions -/

/-- **An error moves with the tokens**, and a tree stays what it is. -/
theorem parseWithin_relocate (highest textEnd levels : Nat) (move : Nat → Nat)
    (tokens : List Lexeme) :
    parseWithin highest (move textEnd) levels (tokens.map (Lexeme.relocate move)) =
      (parseWithin highest textEnd levels tokens).mapError (EvalError.relocate move) := by
  have hsum : Relocates move (sumAt highest textEnd levels)
      (sumAt highest (move textEnd) levels) := sumOf_relocates (signedAt_relocates levels)
  rw [parseWithin, parseWithin, hsum tokens]
  cases sumAt highest textEnd levels tokens with
  | error err => rfl
  | ok read =>
    obtain ⟨tree, rest⟩ := read
    cases rest with
    | nil => rfl
    | cons next rest =>
      show Except.error (next.relocate move).refused = _
      rw [Lexeme.refused_relocate]
      rfl

end Parser

end Calculator
