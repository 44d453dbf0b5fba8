import VerbExpansion.Placeholder.Basic

/-!
# Patterns

A pattern is a text with placeholders in it. `Pattern.ofText` cuts a text into placeholders and
single characters: from left to right, wherever a placeholder can be read it is taken. The pieces
put together are the text again (`source_ofText`).
-/

namespace VerbExpansion

/-- A piece of a pattern. -/
inductive Piece where
  | literal (character : Character)
  | gap (placeholder : Placeholder)
  deriving DecidableEq

/-- The piece as it is written. -/
def Piece.source : Piece → Text
  | literal character => [character]
  | gap placeholder => placeholder.source

/-- The placeholder that the piece is, if it is one. -/
def Piece.placeholder? : Piece → Option Placeholder
  | literal _ => none
  | gap placeholder => some placeholder

/-- A pattern: its pieces, in order. -/
abbrev Pattern := List Piece

namespace Pattern

/-- The pieces of a text. -/
def ofText (text : Text) : Pattern :=
  match read : Placeholder.read? text with
  | some (placeholder, rest) =>
    have := Placeholder.length_lt_of_read? read
    .gap placeholder :: ofText rest
  | none =>
    match text with
    | [] => []
    | character :: rest => .literal character :: ofText rest
termination_by text.length

/-- The text of a pattern. -/
def source (pattern : Pattern) : Text :=
  pattern.flatMap Piece.source

/-- The placeholders of a pattern, in order. -/
def placeholders (pattern : Pattern) : List Placeholder :=
  pattern.filterMap Piece.placeholder?

/-- Each character that no placeholder covers is a piece of its own, so nothing of the text is lost. -/
@[simp] theorem source_ofText (text : Text) : (ofText text).source = text := by
  fun_induction ofText text with
  | case1 text placeholder rest read _ inductionHypothesis =>
    rw [Placeholder.eq_source_of_read? read]
    simp only [source, List.flatMap_cons] at inductionHypothesis ⊢
    rw [inductionHypothesis]
    rfl
  | case2 => rfl
  | case3 character rest _ inductionHypothesis =>
    simp only [source, List.flatMap_cons] at inductionHypothesis ⊢
    rw [inductionHypothesis]
    rfl

end Pattern

end VerbExpansion
