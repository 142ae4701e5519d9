import Calculator.Keypad.View
import Calculator.Proofs.Number.Numeral
import Mathlib.Data.List.Chain

/-!
# What a highlighted expression is

The cut of an expression into pieces reads one character after the other and keeps a number back
until it is complete.  `IsHighlighting` says what comes out without the cut: the pieces together are
the text, each of them is well formed, and no two numbers stand next to each other.  Only one
sequence of pieces is like that (`IsHighlighting.unique`), which is why a piece can be found from
the text around it alone (`pieces_insert`).

`Highlighting.Reads` is what holds between two characters.  The number that is kept back is not
among the pieces yet, and the last complete piece is none, so it does not matter which of the two
places completes it.
-/

namespace Calculator.Text

variable {c : Char} {text rest before after : List Char} {piece : Piece} {ps other : List Piece}

/-! ## Roles -/

theorem Role.of_eq_number_iff : Role.of c = .number ↔ isNumeric c = true := by
  rw [of]
  split
  case isTrue hnumeric => simp [hnumeric]
  case isFalse hnumeric => split <;> simp [hnumeric]

theorem Role.of_ne_number_iff : Role.of c ≠ .number ↔ isNumeric c = false := by
  rw [ne_eq, of_eq_number_iff, Bool.not_eq_true]

theorem Role.of_of_operator (h : c ∈ ['+', '-', '*', '/', '%']) : Role.of c = .operator := by
  simp only [List.mem_cons, List.not_mem_nil, or_false] at h
  rcases h with rfl | rfl | rfl | rfl | rfl <;> rfl

theorem Role.of_of_plain (hnumeric : isNumeric c = false) (h : c ∉ ['+', '-', '*', '/', '%']) :
    Role.of c = .plain := by
  simp only [List.mem_cons, List.not_mem_nil, or_false, not_or] at h
  simp [of, hnumeric, isOperatorChar, h]

/-! ## Pieces -/

/-- **A piece by itself**: a run of numeric characters, or any other character alone. -/
inductive Piece.IsFormed : Piece → Prop where
  | number {run : List Char} : run ≠ [] → (∀ c ∈ run, isNumeric c = true) →
    IsFormed ⟨run, .number⟩
  | single {c : Char} : isNumeric c = false → IsFormed ⟨[c], Role.of c⟩

namespace Piece.IsFormed

theorem text_ne_nil (h : piece.IsFormed) : piece.text ≠ [] := by
  cases h with
  | number hne _ => exact hne
  | single => simp

theorem role_of_mem (h : piece.IsFormed) : ∀ c ∈ piece.text, Role.of c = piece.role := by
  cases h with
  | number _ hrun => exact fun c hc => Role.of_eq_number_iff.2 (hrun c hc)
  | single => simp

theorem role_eq_number_iff (h : piece.IsFormed) :
    piece.role = .number ↔ ∀ c ∈ piece.text, isNumeric c = true := by
  obtain ⟨first, hfirst⟩ := List.exists_mem_of_ne_nil piece.text h.text_ne_nil
  constructor
  · intro hrole c hc
    exact Role.of_eq_number_iff.1 ((h.role_of_mem c hc).trans hrole)
  · intro hrun
    exact (h.role_of_mem first hfirst).symm.trans (Role.of_eq_number_iff.2 (hrun first hfirst))

end Piece.IsFormed

/-- **The pieces of a text**, said without cutting it. -/
structure IsHighlighting (text : List Char) (ps : List Piece) : Prop where
  lossless : ps.flatMap Piece.text = text
  formed : ∀ piece ∈ ps, piece.IsFormed
  /-- Two numbers next to each other would be one. -/
  apart : ps.IsChain fun piece next => ¬ (piece.role = .number ∧ next.role = .number)

namespace IsHighlighting

theorem nil : IsHighlighting [] [] := ⟨rfl, by simp, .nil⟩

theorem single (h : piece.IsFormed) : IsHighlighting piece.text [piece] :=
  ⟨by simp, by simpa using h, .singleton _⟩

theorem role_head? (h : IsHighlighting text ps) :
    text.head?.map Role.of = ps.head?.map Piece.role := by
  rw [← h.lossless]
  cases ps with
  | nil => rfl
  | cons piece ps =>
    have hformed := h.formed piece List.mem_cons_self
    obtain ⟨c, more, htext⟩ := List.exists_cons_of_ne_nil hformed.text_ne_nil
    have hrole : Role.of c = piece.role := hformed.role_of_mem c (by simp [htext])
    simp [htext, hrole]

theorem role_getLast? (h : IsHighlighting text ps) :
    text.getLast?.map Role.of = ps.getLast?.map Piece.role := by
  rw [← h.lossless]
  rcases List.eq_nil_or_concat ps with rfl | ⟨front, piece, rfl⟩
  · rfl
  · have hformed := h.formed piece (by simp)
    obtain ⟨more, c, htext⟩ := (List.eq_nil_or_concat piece.text).resolve_left hformed.text_ne_nil
    have hrole : Role.of c = piece.role := hformed.role_of_mem c (by simp [htext])
    simp [htext, hrole]

theorem isNumeric_iff_of_role {first : Option Char} {edge : Option Piece}
    (h : first.map Role.of = edge.map Piece.role) :
    (∀ c ∈ first, isNumeric c = false) ↔ ∀ piece ∈ edge, piece.role ≠ .number := by
  cases first with
  | none =>
    cases edge with
    | none => simp
    | some piece => cases h
  | some c =>
    cases edge with
    | none => cases h
    | some piece =>
      have hrole : Role.of c = piece.role := Option.some.inj h
      simp [← hrole, ← Role.of_ne_number_iff]

/-- A text does not start with a number exactly if its first piece is none. -/
theorem head?_isNumeric (h : IsHighlighting text ps) :
    (∀ c ∈ text.head?, isNumeric c = false) ↔ ∀ piece ∈ ps.head?, piece.role ≠ .number :=
  isNumeric_iff_of_role h.role_head?

theorem getLast?_isNumeric (h : IsHighlighting text ps) :
    (∀ c ∈ text.getLast?, isNumeric c = false) ↔ ∀ piece ∈ ps.getLast?, piece.role ≠ .number :=
  isNumeric_iff_of_role h.role_getLast?

/-- **Pieces are put together** where no number would go on. -/
theorem append (h : IsHighlighting text ps) (hrest : IsHighlighting rest other)
    (hedge : (∀ c ∈ text.getLast?, isNumeric c = false) ∨ ∀ c ∈ rest.head?, isNumeric c = false) :
    IsHighlighting (text ++ rest) (ps ++ other) where
  lossless := by rw [List.flatMap_append, h.lossless, hrest.lossless]
  formed := List.forall_mem_append.2 ⟨h.formed, hrest.formed⟩
  apart := by
    refine List.isChain_append.2 ⟨h.apart, hrest.apart, fun piece hpiece next hnext hjoin => ?_⟩
    rcases hedge with hlast | hfirst
    · exact h.getLast?_isNumeric.1 hlast piece hpiece hjoin.1
    · exact hrest.head?_isNumeric.1 hfirst next hnext hjoin.2

theorem tail (h : IsHighlighting text (piece :: ps)) :
    IsHighlighting (ps.flatMap Piece.text) ps where
  lossless := rfl
  formed := (List.forall_mem_cons.1 h.formed).2
  apart := h.apart.tail

/-- **A number stands between other characters.** -/
theorem edges {front back : List Piece} (h : IsHighlighting text (front ++ piece :: back))
    (hnumber : piece.role = .number) :
    (∀ c ∈ (front.flatMap Piece.text).getLast?, isNumeric c = false) ∧
      ∀ c ∈ (back.flatMap Piece.text).head?, isNumeric c = false := by
  obtain ⟨hfront, hback, hjunction⟩ := List.isChain_append.1 h.apart
  have hleft : IsHighlighting (front.flatMap Piece.text) front :=
    ⟨rfl, (List.forall_mem_append.1 h.formed).1, hfront⟩
  have hright : IsHighlighting (back.flatMap Piece.text) back :=
    ⟨rfl, (List.forall_mem_cons.1 (List.forall_mem_append.1 h.formed).2).2, hback.tail⟩
  rw [hleft.getLast?_isNumeric, hright.head?_isNumeric]
  refine ⟨fun last hlast hrole => hjunction last hlast piece rfl ⟨hrole, hnumber⟩, ?_⟩
  intro next hnext hrole
  obtain ⟨more, rfl⟩ := List.head?_eq_some_iff.1 hnext
  exact (List.isChain_cons_cons.1 hback).1 ⟨hnumber, hrole⟩

/-- **The first piece of a text**: the numeric characters at its front, or the first character if
there are none. -/
theorem first_eq (h : IsHighlighting (c :: text) (piece :: ps)) :
    piece = if isNumeric c then ⟨(c :: text).takeWhile isNumeric, .number⟩
      else ⟨[c], Role.of c⟩ := by
  have hwhole : piece.text ++ ps.flatMap Piece.text = c :: text := h.lossless
  cases h.formed piece List.mem_cons_self with
  | @number run hne hrun =>
    have hend : ∀ d ∈ (ps.flatMap Piece.text).head?, isNumeric d = false :=
      (edges (show IsHighlighting _ ([] ++ _ :: ps) from h) rfl).2
    obtain ⟨d, more, rfl⟩ := List.exists_cons_of_ne_nil hne
    obtain ⟨rfl, -⟩ := List.cons.inj hwhole
    rw [if_pos (hrun d List.mem_cons_self), ← hwhole, (span_exact hrun _ hend).1]
  | single hnumeric =>
    obtain ⟨rfl, -⟩ := List.cons.inj hwhole
    rw [if_neg (by simp [hnumeric])]

theorem eq_nil (h : IsHighlighting [] ps) : ps = [] := by
  cases ps with
  | nil => rfl
  | cons piece ps => cases h.role_head?

/-- **There is only one sequence of pieces.** -/
theorem unique (h : IsHighlighting text ps) (hother : IsHighlighting text other) : ps = other := by
  induction ps generalizing text other with
  | nil =>
    obtain rfl : [] = text := h.lossless
    exact hother.eq_nil.symm
  | cons piece ps ih =>
    cases text with
    | nil => exact absurd h.eq_nil (List.cons_ne_nil _ _)
    | cons c rest =>
      cases other with
      | nil => cases hother.lossless
      | cons next other =>
        obtain rfl : piece = next := h.first_eq.trans hother.first_eq.symm
        have hrest : other.flatMap Piece.text = ps.flatMap Piece.text :=
          List.append_cancel_left (hother.lossless.trans h.lossless.symm)
        rw [ih h.tail (hrest ▸ hother.tail)]

end IsHighlighting

/-! ## The cut -/

namespace Highlighting

variable {h : Highlighting} {consumed : List Char}

/-- **What holds between two characters**: the complete pieces and the number that is being read are
the text so far, and no complete number is at the end, so that what is being read is all of it. -/
structure Reads (h : Highlighting) (consumed : List Char) : Prop where
  lossless : h.complete.flatMap Piece.text ++ h.number = consumed
  complete : IsHighlighting (h.complete.flatMap Piece.text) h.complete
  numeric : ∀ c ∈ h.number, isNumeric c = true
  ended : ∀ c ∈ (h.complete.flatMap Piece.text).getLast?, isNumeric c = false

theorem Reads.start : Reads {} [] := ⟨rfl, .nil, by simp, by simp⟩

/-- **Completing the number** gives the pieces of the text so far. -/
theorem Reads.finish (hreads : h.Reads consumed) : IsHighlighting consumed h.finish := by
  rw [← hreads.lossless, Highlighting.finish]
  split
  case isTrue hnone =>
    rw [List.isEmpty_iff.1 hnone, List.append_nil]
    exact hreads.complete
  case isFalse hsome =>
    have hnumber : IsHighlighting h.number [⟨h.number, .number⟩] :=
      .single (.number (mt List.isEmpty_iff.2 hsome) hreads.numeric)
    exact hreads.complete.append hnumber (.inl hreads.ended)

/-- **One more character.** -/
theorem Reads.step (hreads : h.Reads consumed) (c : Char) :
    (h.step c).Reads (consumed ++ [c]) := by
  rw [Highlighting.step]
  split
  case h_1 hrole =>
    refine ⟨?_, hreads.complete, ?_, hreads.ended⟩
    · rw [← hreads.lossless, List.append_assoc]
    · have hnumeric : isNumeric c = true := Role.of_eq_number_iff.1 hrole
      exact List.forall_mem_append.2 ⟨hreads.numeric, by simpa using hnumeric⟩
  case h_2 hrole =>
    have hnumeric : isNumeric c = false := Role.of_ne_number_iff.1 hrole
    have hsingle : IsHighlighting [c] [⟨[c], Role.of c⟩] := .single (.single hnumeric)
    have hcomplete : IsHighlighting (consumed ++ [c]) (h.finish ++ [⟨[c], Role.of c⟩]) :=
      hreads.finish.append hsingle (.inr (by simpa using hnumeric))
    refine ⟨?_, ?_, by simp, ?_⟩
    · rw [List.append_nil]
      exact hcomplete.lossless
    · rw [hcomplete.lossless]
      exact hcomplete
    · rw [hcomplete.lossless]
      simpa using hnumeric

theorem Reads.foldl (hreads : h.Reads consumed) (text : List Char) :
    (text.foldl Highlighting.step h).Reads (consumed ++ text) := by
  induction text generalizing h consumed with
  | nil => simpa using hreads
  | cons c text ih => simpa using ih (hreads.step c)

end Highlighting

/-- **The cut gives the pieces of the text.** -/
theorem isHighlighting_pieces (text : List Char) : IsHighlighting text (pieces text) := by
  have hreads := Highlighting.Reads.start.foldl text
  rw [List.nil_append] at hreads
  exact hreads.finish

/-- **A piece can be found where it stands**, whatever the pieces around it are. -/
theorem pieces_insert (hformed : piece.IsFormed)
    (hedges : piece.role = .number →
      (∀ c ∈ before.getLast?, isNumeric c = false) ∧ ∀ c ∈ after.head?, isNumeric c = false) :
    pieces (before ++ piece.text ++ after) = pieces before ++ piece :: pieces after := by
  have hpiece := IsHighlighting.single hformed
  have hsides : ((∀ c ∈ before.getLast?, isNumeric c = false) ∨
        ∀ c ∈ piece.text.head?, isNumeric c = false) ∧
      ((∀ c ∈ piece.text.getLast?, isNumeric c = false) ∨
        ∀ c ∈ after.head?, isNumeric c = false) := by
    by_cases hnumber : piece.role = .number
    · exact ⟨.inl (hedges hnumber).1, .inr (hedges hnumber).2⟩
    · rw [hpiece.head?_isNumeric, hpiece.getLast?_isNumeric]
      exact ⟨.inr (by simpa using hnumber), .inl (by simpa using hnumber)⟩
  have hbehind : IsHighlighting (piece.text ++ after) (piece :: pieces after) :=
    hpiece.append (isHighlighting_pieces after) hsides.2
  have hfirst : (piece.text ++ after).head? = piece.text.head? := by
    rw [List.head?_append, Option.or_of_isSome (List.isSome_head?.2 hformed.text_ne_nil)]
  have hwhole := (isHighlighting_pieces before).append hbehind (hfirst ▸ hsides.1)
  rw [List.append_assoc]
  exact (isHighlighting_pieces _).unique hwhole

end Calculator.Text

namespace Calculator.Keypad

open Terminal Text

variable {base : Style} {text before after : List Char} {span : Span}

/-- **A span of a line stands between two texts**, those of the spans on its left and on its
right. -/
def StandsBetween (line : TextLine) (before : List Char) (span : Span) (after : List Char) : Prop :=
  ∃ left right, line = left ++ span :: right ∧
    left.flatMap Span.text = before ∧ right.flatMap Span.text = after

/-- The characters of numbers. -/
def numberCharacters : List Char := ['0', '1', '2', '3', '4', '5', '6', '7', '8', '9', '.']

theorem mem_numberCharacters {c : Char} : c ∈ numberCharacters ↔ isNumeric c = true := by
  have happend : numberCharacters =
      ['0', '1', '2', '3', '4', '5', '6', '7', '8', '9'] ++ ['.'] := rfl
  rw [happend, List.mem_append, List.mem_singleton, ← isDigit_iff_mem, isNumeric, Bool.or_eq_true,
    beq_iff_eq]

theorem not_mem_numberCharacters {c : Char} : c ∉ numberCharacters ↔ isNumeric c = false := by
  rw [mem_numberCharacters, Bool.not_eq_true]

/-- **The spans that highlighting makes** of what stands between two texts: a number goes from the
first of its characters to the last, and whatever belongs to no number stands alone. -/
inductive Highlights (base : Style) (before after : List Char) : Span → Prop where
  | number {run : List Char} : run ≠ [] → (∀ c ∈ run, c ∈ numberCharacters) →
    (∀ c ∈ before.getLast?, c ∉ numberCharacters) → (∀ c ∈ after.head?, c ∉ numberCharacters) →
    Highlights base before after ⟨run, .ink .lightGreen⟩
  | operator {c : Char} : c ∈ ['+', '-', '*', '/', '%'] →
    Highlights base before after ⟨[c], .boldInk .yellow⟩
  | plain {c : Char} : c ∉ numberCharacters → c ∉ ['+', '-', '*', '/', '%'] →
    Highlights base before after ⟨[c], base⟩

theorem flatMap_pieceSpan (ps : List Piece) :
    (ps.map (pieceSpan base)).flatMap Span.text = ps.flatMap Piece.text := by
  rw [List.flatMap_map]
  rfl

/-- **What a span shows comes from a well formed piece**, whose edges matter if it is a number. -/
theorem highlights_iff : Highlights base before after span ↔
    ∃ piece : Piece, piece.IsFormed ∧ span = pieceSpan base piece ∧
      (piece.role = .number →
        (∀ c ∈ before.getLast?, isNumeric c = false) ∧ ∀ c ∈ after.head?, isNumeric c = false) := by
  constructor
  · intro h
    cases h with
    | @number run hne hrun hbefore hafter =>
      simp only [mem_numberCharacters, Bool.not_eq_true] at hrun hbefore hafter
      exact ⟨⟨run, .number⟩, .number hne hrun, rfl, fun _ => ⟨hbefore, hafter⟩⟩
    | @operator c hc =>
      have hrole := Role.of_of_operator hc
      have hnumeric : isNumeric c = false := Role.of_ne_number_iff.1 (by simp [hrole])
      exact ⟨⟨[c], Role.of c⟩, .single hnumeric, by simp [pieceSpan, hrole, roleStyle],
        by simp [hrole]⟩
    | @plain c hplain hc =>
      have hnumeric : isNumeric c = false := not_mem_numberCharacters.1 hplain
      have hrole := Role.of_of_plain hnumeric hc
      exact ⟨⟨[c], Role.of c⟩, .single hnumeric, by simp [pieceSpan, hrole, roleStyle],
        by simp [hrole]⟩
  · rintro ⟨piece, hformed, rfl, hedges⟩
    cases hformed with
    | number hne hrun =>
      obtain ⟨hbefore, hafter⟩ := hedges rfl
      simp only [← mem_numberCharacters, ← not_mem_numberCharacters] at hrun hbefore hafter
      exact .number hne hrun hbefore hafter
    | @single c hnumeric =>
      by_cases hc : c ∈ ['+', '-', '*', '/', '%']
      · rw [pieceSpan, Role.of_of_operator hc]
        exact .operator hc
      · rw [pieceSpan, Role.of_of_plain hnumeric hc]
        exact .plain (not_mem_numberCharacters.2 hnumeric) hc

/-- A span that stands in a highlighted text is one that highlighting makes there. -/
theorem StandsBetween.highlights (h : StandsBetween (highlighted text base) before span after) :
    before ++ span.text ++ after = text ∧ Highlights base before after span := by
  obtain ⟨left, right, hline, rfl, rfl⟩ := h
  obtain ⟨front, more, hpieces, rfl, hmore⟩ := List.map_eq_append_iff.1 hline
  obtain ⟨piece, back, rfl, rfl, rfl⟩ := List.map_eq_cons_iff.1 hmore
  have hcut : IsHighlighting text (front ++ piece :: back) := hpieces ▸ isHighlighting_pieces text
  rw [flatMap_pieceSpan, flatMap_pieceSpan]
  constructor
  · rw [← hcut.lossless, List.flatMap_append, List.flatMap_cons, List.append_assoc]
    rfl
  · exact highlights_iff.2 ⟨piece, hcut.formed piece (by simp), rfl, hcut.edges⟩

/-- A span that highlighting makes somewhere in a text stands there in the highlighted text. -/
theorem Highlights.standsBetween (h : Highlights base before after span) :
    StandsBetween (highlighted (before ++ span.text ++ after) base) before span after := by
  obtain ⟨piece, hformed, rfl, hedges⟩ := highlights_iff.1 h
  have hinsert : pieces (before ++ (pieceSpan base piece).text ++ after) =
      pieces before ++ piece :: pieces after := pieces_insert hformed hedges
  refine ⟨highlighted before base, highlighted after base, ?_, ?_, ?_⟩
  · rw [highlighted, hinsert, List.map_append, List.map_cons]
    rfl
  · rw [highlighted, flatMap_pieceSpan, (isHighlighting_pieces before).lossless]
  · rw [highlighted, flatMap_pieceSpan, (isHighlighting_pieces after).lossless]

/-- **A highlighted text loses nothing and can be read off the text**: its spans put together are
the text, none is empty and no two numbers are next to each other; and a span stands between two
parts of the text exactly if highlighting makes it there. -/
theorem highlighted_canonical (base : Style) (text : List Char) :
    (highlighted text base).flatMap Span.text = text ∧
    (∀ span ∈ highlighted text base, span.text ≠ []) ∧
    ((highlighted text base).IsChain fun span next =>
      ¬ ((∀ c ∈ span.text, c ∈ numberCharacters) ∧ ∀ c ∈ next.text, c ∈ numberCharacters)) ∧
    ∀ before span after, StandsBetween (highlighted text base) before span after ↔
      before ++ span.text ++ after = text ∧ Highlights base before after span := by
  have hcut := isHighlighting_pieces text
  refine ⟨?_, ?_, ?_, fun before span after => ⟨StandsBetween.highlights, ?_⟩⟩
  · rw [highlighted, flatMap_pieceSpan, hcut.lossless]
  · intro span hspan
    obtain ⟨piece, hpiece, rfl⟩ := List.mem_map.1 hspan
    exact (hcut.formed piece hpiece).text_ne_nil
  · refine (List.isChain_map (pieceSpan base)).2 (hcut.apart.imp_of_mem_imp ?_)
    intro piece next hpiece hnext hapart hboth
    simp only [mem_numberCharacters] at hboth
    exact hapart ⟨(hcut.formed piece hpiece).role_eq_number_iff.2 hboth.1,
      (hcut.formed next hnext).role_eq_number_iff.2 hboth.2⟩
  · rintro ⟨rfl, h⟩
    exact h.standsBetween

example : (highlighted "12.5*(3)".toList).map Span.text =
    ["12.5", "*", "(", "3", ")"].map String.toList := by rfl

end Calculator.Keypad
