import Calculator.Expr.Grammar

/-!
# Phrases and what follows them

The rules of `Derives` for sums and products are left recursive: the left operand of a sum is a sum
again.  A reader that goes from left to right sees the same phrase as a first operand and a chain of
further ones, and it has read the whole phrase only when the next token cannot lengthen it.  This
module prepares both views.

* `Derives.product_iff` and `Derives.sum_iff` turn the two left recursive kinds of phrases into a
  `Chain` of operands of the next tighter kind.
* `Phrase.StopsAt` says that the tokens behind a phrase do not go on with it.
* `Derives.height_le` bounds a tree by the number of tokens.
-/

namespace Calculator

/-! ## Tokens -/

theorem map_token_placed (tokens : List Token) :
    (tokens.map fun token => Lexeme.mk token 0).map Lexeme.token = tokens := by
  simp [Function.comp_def]

@[simp] theorem BinaryOp.token_inj {op op' : BinaryOp} : op.token = op'.token ↔ op = op' := by
  cases op <;> cases op' <;> simp [token]

theorem BinaryOp.token_ne_rightParen (op : BinaryOp) : op.token ≠ .rightParen := by
  cases op <;> simp [token]

/-- How deeply an operation is nested: an exponent costs one. -/
def BinaryOp.nesting : BinaryOp → Nat → Nat → Nat
  | power, m, n => max m (n + 1)
  | _, m, n => max m n

/-! ## What goes on with a phrase -/

/-- Whether a phrase of this kind can be read further when the operator follows it. -/
def Phrase.extendedBy : Phrase → BinaryOp → Bool
  | sum, _ => true
  | product, op => !op.isAdditive
  | signed, op | power, op => op == .power
  | primary, _ => false

/-- **The end of a phrase**: no operator that would go on with the phrase follows. -/
def Phrase.StopsAt (phrase : Phrase) (rest : List Lexeme) : Prop :=
  ∀ next ∈ rest.head?, ∀ op : BinaryOp, next.token = op.token → phrase.extendedBy op = false

@[simp] theorem Phrase.stopsAt_nil (phrase : Phrase) : phrase.StopsAt [] := by
  simp [StopsAt]

theorem Phrase.stopsAt_cons {phrase : Phrase} {next : Lexeme} {rest : List Lexeme} :
    phrase.StopsAt (next :: rest) ↔
      ∀ op : BinaryOp, next.token = op.token → phrase.extendedBy op = false := by
  simp [StopsAt]

@[simp] theorem Phrase.stopsAt_primary (rest : List Lexeme) : Phrase.primary.StopsAt rest := by
  simp [StopsAt, extendedBy]

theorem Phrase.stopsAt_of_ne_operator (phrase : Phrase) {next : Lexeme} (rest : List Lexeme)
    (h : ∀ op : BinaryOp, next.token ≠ op.token) : phrase.StopsAt (next :: rest) :=
  stopsAt_cons.2 fun op hop => absurd hop (h op)

theorem Phrase.stopsAt_signed_cons {next : Lexeme} {rest : List Lexeme} :
    Phrase.signed.StopsAt (next :: rest) ↔ next.token ≠ .doubleStar := by
  rw [stopsAt_cons]
  constructor
  · intro h hnext
    simpa [extendedBy] using h .power hnext
  · intro h op hop
    cases op <;> simp_all [extendedBy, BinaryOp.token]

/-! ## Chains of operands -/

/-- **A chain of operands** joined by operators of one kind, grouped to the left. -/
inductive Chain (isOp : BinaryOp → Bool) (operand : Nat → List Token → Expr → Prop) :
    Nat → List Token → Expr → Prop where
  | single {n : Nat} {tokens : List Token} {e : Expr} :
    operand n tokens e → Chain isOp operand n tokens e
  | link {op : BinaryOp} {m n : Nat} {left right : List Token} {l r : Expr} :
    isOp op = true → Chain isOp operand m left l → operand n right r →
    Chain isOp operand (max m n) (left ++ op.token :: right) (.binary op l r)

namespace Derives

variable {phrase : Phrase} {n : Nat} {tokens : List Token} {e : Expr}

theorem product_iff :
    Derives .product n tokens e ↔ Chain BinaryOp.isMultiplicative (Derives .signed) n tokens e := by
  constructor
  · intro h
    generalize hphrase : Phrase.product = phrase at h
    induction h with
    | factor h => exact .single h
    | product hop _ hright ihleft => exact .link hop (ihleft rfl) hright
    | _ => cases hphrase
  · intro h
    induction h with
    | single h => exact .factor h
    | link hop _ hright ih => exact .product hop ih hright

theorem sum_iff :
    Derives .sum n tokens e ↔ Chain BinaryOp.isAdditive (Derives .product) n tokens e := by
  constructor
  · intro h
    generalize hphrase : Phrase.sum = phrase at h
    induction h with
    | term h => exact .single h
    | sum hop _ hright ihleft => exact .link hop (ihleft rfl) hright
    | _ => cases hphrase
  · intro h
    induction h with
    | single h => exact .term h
    | link hop _ hright ih => exact .sum hop ih hright

theorem sum_of_primary (h : Derives .primary n tokens e) : Derives .sum n tokens e :=
  .term (.factor (.unsigned (.primary h)))

/-! ## Operations on whole operands -/

/-- Signed operands are operands of every operator but the power. -/
theorem binary_of_signed {op : BinaryOp} {m n : Nat} {left right : List Token} {l r : Expr}
    (hop : op ≠ .power) (hl : Derives .signed m left l) (hr : Derives .signed n right r) :
    Derives .sum (max m n) (left ++ op.token :: right) (.binary op l r) := by
  cases op with
  | power => exact absurd rfl hop
  | add | subtract => exact .sum rfl (.term (.factor hl)) (.factor hr)
  | multiply | divide | floorDivide | modulo => exact .term (.product rfl (.factor hl) hr)

/-- **Primaries are operands of every operator.** -/
theorem binary_of_primary (op : BinaryOp) {m n : Nat} {left right : List Token} {l r : Expr}
    (hl : Derives .primary m left l) (hr : Derives .primary n right r) :
    Derives .sum (op.nesting m n) (left ++ op.token :: right) (.binary op l r) := by
  have hsigned : Derives .signed n right r := .unsigned (.primary hr)
  cases op with
  | power => exact .term (.factor (.unsigned (.power hl hsigned)))
  | _ => exact binary_of_signed (by simp) (.unsigned (.primary hl)) hsigned

/-! ## Heights -/

theorem height_le (h : Derives phrase n tokens e) : e.height ≤ tokens.length := by
  induction h with
  | number => simp [Expr.height]
  | parentheses _ ih => simp only [List.length_cons, List.length_append]; omega
  | primary _ ih | unsigned _ ih | factor _ ih | term _ ih => exact ih
  | sign _ _ ih => simp only [Expr.height, List.length_cons]; omega
  | power _ _ ihl ihr | product _ _ _ ihl ihr | sum _ _ _ ihl ihr =>
    simp only [Expr.height, List.length_append, List.length_cons]
    omega

end Derives

end Calculator
