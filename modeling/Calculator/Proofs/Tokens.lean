import Calculator.Proofs.Rendering
import Calculator.Proofs.Whitelist

/-!
# From the tokens of a text to its expression

`tokens` are the tokens of a text without their places.  They are all that the grammar looks at, so
that whoever derives an expression from them knows what the text is parsed as: the expression within
the limits, and the refusal as too deep beyond them (`Derives.parsesWithinLimits`).
-/

namespace Calculator

/-! ## The tokens of a text -/

/-- **The tokens of a text** without their places. -/
def tokens (text : List Char) : List Token := (Lexeme.scan text).map Lexeme.token

@[simp] theorem tokens_nil : tokens [] = [] := rfl

theorem tokens_eq_nil {text : List Char} (h : ∀ c ∈ text, isSeparator c = true) :
    tokens text = [] := by
  have hscan : ∀ position, Lexeme.scanFrom position 0 text = [] := by
    induction text with
    | nil => simp
    | cons c rest ih =>
      obtain ⟨hc, hrest⟩ := List.forall_mem_cons.1 h
      intro position
      rw [Lexeme.scanFrom_separator hc, ih hrest]
  rw [tokens, Lexeme.scan, hscan, List.map_nil]

@[simp] theorem Lexeme.map_token_scanFrom (position : Nat) (text : List Char) :
    (scanFrom position 0 text).map Lexeme.token = tokens text := by
  have hplaces : ∀ (skip position position' : Nat) (text : List Char),
      (scanFrom position skip text).map Lexeme.token =
        (scanFrom position' skip text).map Lexeme.token := by
    intro skip position position' text
    induction text generalizing skip position position' with
    | nil => simp
    | cons c rest ih =>
      cases skip with
      | succ skip => exact ih skip _ _
      | zero =>
        rw [scanFrom, scanFrom]
        split
        · exact ih 0 _ _
        · simp only [List.map_cons]
          rw [ih]
  exact hplaces 0 position 0 text

/-- **A written token is the first one** of the text it stands in front of. -/
theorem tokens_written {token : Token} {text rest : List Char} (hwritten : token.Written text)
    (hends : token.EndsAt rest) : tokens (text ++ rest) = token :: tokens rest := by
  rw [tokens, Lexeme.scan, Lexeme.scanFrom_written hwritten hends, List.map_cons,
    Lexeme.map_token_scanFrom]

/-! ## Parsing -/

/-- **What is parsed as far as the limits go**: the text is parsed as the expression if the given
nesting and the height of the tree are within the limits, and is refused as too deep if not. -/
structure ParsesWithinLimits (text : String) (nesting : Nat) (e : Expr) : Prop where
  parsed : nesting ≤ 200 ∧ e.height ≤ 1000 → parse text = .ok e
  refused : ¬ (nesting ≤ 200 ∧ e.height ≤ 1000) →
    ∃ position, parse text = .error (.malformed .tooDeep position)

theorem Derives.isAllowed {n : Nat} {text : List Char} {e : Expr}
    (h : Derives .sum n (tokens text) e) : ∀ c ∈ text, isAllowed c = true :=
  Lexeme.isAllowed_of_scan fun _ hmem => h.isArithmetic_of_mem _ (List.mem_map_of_mem hmem)

theorem Derives.allBlank_eq_false {n : Nat} {text : List Char} {e : Expr}
    (h : Derives .sum n (tokens text) e) : Text.allBlank text = false := by
  refine Bool.eq_false_iff.2 fun hblank => h.ne_nil ?_
  exact tokens_eq_nil fun c hc =>
    isSeparator_of_isBlank (h.isAllowed c hc) (List.all_eq_true.1 hblank c hc)

/-- **The grammar decides what a text is parsed as**, the limits only whether it is. -/
theorem Derives.parsesWithinLimits {text : String} {n : Nat} {e : Expr}
    (h : Derives .sum n (tokens text.toList) e) : ParsesWithinLimits text n e where
  parsed hfits := by
    rw [parse_of_not_blank h.allBlank_eq_false]
    exact Parser.parseWithin_of_derives _ (by decide) h hfits.1 hfits.2
  refused hexceeds := by
    rw [parse_of_not_blank h.allBlank_eq_false]
    exact Parser.parseWithin_of_exceeds _ (by decide) h hexceeds

end Calculator
