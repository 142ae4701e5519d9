import Calculator.Proofs.Surroundings
import Mathlib.Data.List.Chain

/-!
# Laying out tokens

A sequence of tokens is laid out as a text by writing each of them, with separators in front of it
or not, and perhaps some at the end.  Two tokens have to be kept apart only if they would be taken
for others: two numbers, a star in front of a star, and a slash in front of a slash
(`Token.runsInto`).  The scan of a layout finds the tokens again, each where its text starts, and
the separators make no difference to the expression (`scan_layout`).

A number may be written as any numeral, with zeros in front or behind, as long as a whole number
other than zero has none in front (`Numeral.Typed`).
-/

namespace Calculator

/-! ## Numerals as they are typed -/

/-- **A numeral as it may be typed**: digits, or digits around a point with at least one of them on
one of its sides.  A whole number with a zero in front has nothing but zeros. -/
inductive Numeral.Typed : List Char → Prop where
  | whole {digits : List Char} : digits ≠ [] → (∀ c ∈ digits, c.isDigit = true) →
    (digits.head? = some '0' → ∀ c ∈ digits, c = '0') → Typed digits
  | point {whole fraction : List Char} : (∀ c ∈ whole, c.isDigit = true) →
    (∀ c ∈ fraction, c.isDigit = true) → whole ++ fraction ≠ [] →
    Typed (whole ++ '.' :: fraction)

namespace Numeral.Typed

variable {text : List Char}

theorem exists_reads (h : Typed text) : ∃ q, Reads text q := by
  cases h with
  | whole hne hdigits _ => exact ⟨_, .whole hne hdigits⟩
  | point hwhole hfraction hne => exact ⟨_, .point hwhole hfraction hne⟩

theorem hasLeadingZeros_eq_false (h : Typed text) : hasLeadingZeros text = false := by
  cases h with
  | whole _ _ hzeros =>
    refine Bool.eq_false_iff.2 fun hleading => ?_
    simp only [hasLeadingZeros, Bool.and_eq_true, beq_iff_eq] at hleading
    obtain ⟨⟨-, hfirst⟩, hother⟩ := hleading
    obtain ⟨c, hc, hne⟩ := List.any_eq_true.1 hother
    exact absurd (hzeros hfirst c hc) (by simpa using hne)
  | point => simp [hasLeadingZeros]

/-- **What is typed as a numeral has a value**, and is the text of a number of that value. -/
theorem exists_value (h : Typed text) :
    ∃ value, Binary64.ofNumeral? text = some value ∧ (Token.number value).Written text := by
  obtain ⟨q, hreads⟩ := h.exists_reads
  have hvalue : Binary64.ofNumeral? text = some (.ofRat false q) := by
    rw [Binary64.ofNumeral?, read?_eq_some_iff.2 hreads, Option.map_some]
  exact ⟨_, hvalue, .number h.hasLeadingZeros_eq_false hvalue⟩

end Numeral.Typed

/-! ## Where tokens have to be kept apart -/

/-- **Tokens that cannot stand next to each other**: behind a number no other number, and behind a
star or a slash nothing that starts with another one. -/
def Token.runsInto : Token → Token → Bool
  | number _, number _ => true
  | star, star | star, doubleStar => true
  | slash, slash | slash, doubleSlash => true
  | _, _ => false

theorem EndsTokens.endsAt {after : List Char} (h : EndsTokens after) (token : Token) :
    token.EndsAt after := by
  cases token with
  | number value => exact fun c hc => ⟨(h c hc).1, (h c hc).2.1⟩
  | star => exact fun hhead => (h '*' hhead).2.2.1 rfl
  | slash => exact fun hhead => (h '/' hhead).2.2.2 rfl
  | _ => trivial

/-- **A token ends where the next one starts**, unless the two have to be kept apart. -/
theorem Token.Written.endsAt {token next : Token} {text : List Char} (h : next.Written text)
    (hapart : token.runsInto next = false) (rest : List Char) : token.EndsAt (text ++ rest) := by
  cases h with
  | symbol hsymbol =>
    cases token with
    | number | star | slash =>
      cases next <;> cases hsymbol <;> simp [runsInto, EndsAt] at hapart ⊢
    | _ => trivial
  | number _ hvalue =>
    obtain ⟨q, hreads⟩ := Binary64.exists_reads hvalue
    obtain ⟨c, digits, rfl⟩ := List.exists_cons_of_ne_nil (l := text) (by rintro rfl; cases hvalue)
    -- a numeral starts with a digit or a point
    have hsign : ∀ sign : Char, sign.isDigit = false → sign ≠ '.' → c ≠ sign := by
      rintro sign hdigit hpoint rfl
      rcases hreads.starts with hc | ⟨hc, -⟩
      · rw [hc] at hdigit
        cases hdigit
      · exact hpoint hc
    cases token with
    | number => cases hapart
    | star => simpa [EndsAt] using hsign '*' rfl (by decide)
    | slash => simpa [EndsAt] using hsign '/' rfl (by decide)
    | _ => trivial

/-! ## Layouts -/

/-- **A token as it is laid out**: the separators in front of it, and its text. -/
structure Item where
  gap : List Char
  token : Token
  text : List Char
  separates : ∀ c ∈ gap, c ∈ [' ', '\t', '\n', '\r']
  written : token.Written text

/-- The text of items, one behind the other. -/
def Item.layOut (items : List Item) : List Char := items.flatMap fun item => item.gap ++ item.text

@[simp] theorem Item.layOut_nil : layOut [] = [] := rfl

@[simp] theorem Item.layOut_cons (item : Item) (items : List Item) :
    layOut (item :: items) = item.gap ++ (item.text ++ layOut items) := by
  simp [layOut]

/-- **A layout**: items, of which neighbours that run into each other are kept apart, and the
separators behind them. -/
structure Layout where
  items : List Item
  behind : List Char
  apart : items.IsChain fun item next => item.token.runsInto next.token = true → next.gap ≠ []
  separates : ∀ c ∈ behind, c ∈ [' ', '\t', '\n', '\r']

/-- The text of a layout. -/
def Layout.text (layout : Layout) : List Char := Item.layOut layout.items ++ layout.behind

/-- The tokens of items, each where its text starts when the first of them is at a position. -/
def Item.lexemes (position : Nat) (items : List Item) : List Lexeme :=
  items.mapIdx fun i item =>
    ⟨item.token, position + (layOut (items.take i) ++ item.gap).length⟩

@[simp] theorem Item.lexemes_nil (position : Nat) : lexemes position [] = [] := rfl

theorem Item.lexemes_cons (position : Nat) (item : Item) (items : List Item) :
    lexemes position (item :: items) =
      ⟨item.token, position + item.gap.length⟩ ::
        lexemes (position + item.gap.length + item.text.length) items := by
  simp [lexemes, Nat.add_assoc]

theorem Item.map_token_lexemes (position : Nat) (items : List Item) :
    (lexemes position items).map Lexeme.token = items.map token := by
  induction items generalizing position with
  | nil => rfl
  | cons item items ih => rw [lexemes_cons, List.map_cons, ih, List.map_cons]

theorem Renders.separators {gap : List Char} (hgap : ∀ c ∈ gap, c ∈ [' ', '\t', '\n', '\r'])
    {position : Nat} {lexemes : List Lexeme} {rest : List Char}
    (h : Renders (position + gap.length) lexemes rest) :
    Renders position lexemes (gap ++ rest) := by
  induction gap generalizing position with
  | nil => exact h
  | cons c gap ih =>
    obtain ⟨hc, hrest⟩ := List.forall_mem_cons.1 hgap
    refine .separator (isSeparator_iff.2 hc) (ih hrest ?_)
    rwa [Nat.add_assoc, Nat.add_comm 1]

/-- **A layout writes down its tokens** at the places where their texts start. -/
theorem Item.renders {items : List Item} {behind : List Char} (position : Nat)
    (hapart : items.IsChain fun item next =>
      item.token.runsInto next.token = true → next.gap ≠ [])
    (hbehind : ∀ c ∈ behind, c ∈ [' ', '\t', '\n', '\r']) :
    Renders position (lexemes position items) (layOut items ++ behind) := by
  induction items generalizing position with
  | nil =>
    have hnone : Renders position [] (behind ++ []) := .separators hbehind .nil
    rwa [List.append_nil] at hnone
  | cons item items ih =>
    have hrest := ih (position + item.gap.length + item.text.length) hapart.tail
    rw [lexemes_cons, layOut_cons, List.append_assoc, List.append_assoc]
    refine .separators item.separates (.token item.written ?_ hrest)
    cases items with
    | nil =>
      have hends := endsTokens_of_separators fun c hc => isSeparator_iff.2 (hbehind c hc)
      exact hends.endsAt item.token
    | cons next items =>
      have hnext := (List.isChain_cons_cons.1 hapart).1
      rw [layOut_cons, List.append_assoc]
      cases hgap : next.gap with
      | nil =>
        have hends : item.token.runsInto next.token = false :=
          Bool.eq_false_iff.2 fun hruns => hnext hruns hgap
        rw [List.nil_append, List.append_assoc]
        exact next.written.endsAt hends _
      | cons c gap =>
        -- the token ends at the first separator of the next gap
        have hc : isSeparator c = true := isSeparator_iff.2 (next.separates c (by simp [hgap]))
        have hends : EndsTokens [c] := endsTokens_of_separators (by simpa using hc)
        refine EndsTokens.endsAt ?_ item.token
        intro d hd
        exact hends d hd

/-! ## The scan of a layout -/

/-- **Expressions are made of tokens**: texts with the same tokens are parsed as the same
expression. -/
theorem parse_of_tokens_eq {text text' : String} (h : tokens text.toList = tokens text'.toList)
    {e : Expr} (hparse : parse text = .ok e) : parse text' = .ok e := by
  obtain ⟨-, n, hnesting, hderives, hheight⟩ := derives_of_parse hparse
  have hderives' : Derives .sum n (tokens text'.toList) e := h ▸ hderives
  exact hderives'.parsesWithinLimits.parsed ⟨hnesting, hheight⟩

/-- **Scanning undoes laying out.**  The scan of a layout finds its tokens, each at the number of
characters in front of its text; a numeral may be typed in any form, and its token has its value.
Layouts that differ in their separators only are parsed as the same expression, or none of them is
one. -/
theorem scan_layout (layout : Layout) :
    Lexeme.scan layout.text = layout.items.mapIdx (fun i item =>
      ⟨item.token, (Item.layOut (layout.items.take i) ++ item.gap).length⟩) ∧
    (∀ text, Numeral.Typed text →
      ∃ value, Binary64.ofNumeral? text = some value ∧ (Token.number value).Written text) ∧
    (∀ other : Layout, other.items.map Item.token = layout.items.map Item.token →
      (parse (String.ofList other.text)).toOption =
        (parse (String.ofList layout.text)).toOption) := by
  have hscan : ∀ layout : Layout,
      Lexeme.scan layout.text = Item.lexemes 0 layout.items := fun layout =>
    Lexeme.scanFrom_of_renders (Item.renders 0 layout.apart layout.separates)
  have htokens : ∀ layout : Layout, tokens layout.text = layout.items.map Item.token := by
    intro layout
    rw [tokens, hscan, Item.map_token_lexemes]
  refine ⟨?_, fun text htyped => htyped.exists_value, fun other hsame => ?_⟩
  · rw [hscan, Item.lexemes]
    simp
  · have hequal : tokens (String.ofList other.text).toList =
        tokens (String.ofList layout.text).toList := by
      rw [String.toList_ofList, String.toList_ofList, htokens, htokens, hsame]
    cases hother : parse (String.ofList other.text) with
    | ok e => rw [parse_of_tokens_eq hequal hother]
    | error err =>
      cases hlayout : parse (String.ofList layout.text) with
      | ok e =>
        rw [parse_of_tokens_eq hequal.symm hlayout] at hother
        cases hother
      | error err' => rfl

/-- Each of the four separators, and numerals whose points have digits on one side only. -/
theorem scan_layout_all_separators :
    ∃ one half, Binary64.ofNumeral? ['1', '.'] = some one ∧
      Binary64.ofNumeral? ['.', '5'] = some half ∧
      Lexeme.scan [' ', '1', '.', '\t', '*', '\n', '.', '5', '\r'] =
        [⟨.number one, 1⟩, ⟨.star, 4⟩, ⟨.number half, 6⟩] := by
  have honeTyped : Numeral.Typed (['1'] ++ '.' :: []) :=
    .point (by simp) (by simp) (by simp)
  have hhalfTyped : Numeral.Typed ([] ++ '.' :: ['5']) :=
    .point (by simp) (by simp) (by simp)
  obtain ⟨one, hone, honeWritten⟩ := honeTyped.exists_value
  obtain ⟨half, hhalf, hhalfWritten⟩ := hhalfTyped.exists_value
  let layout : Layout :=
    { items :=
        [⟨[' '], .number one, ['1', '.'], by simp, honeWritten⟩,
          ⟨['\t'], .star, ['*'], by simp, .symbol rfl⟩,
          ⟨['\n'], .number half, ['.', '5'], by simp, hhalfWritten⟩]
      behind := ['\r']
      apart := by simp
      separates := by simp }
  exact ⟨one, half, hone, hhalf, (scan_layout layout).1⟩

end Calculator
