import VerbExpansion.Filling
import VerbExpansion.Proofs.Pattern.Occurrences
import VerbExpansion.Proofs.Token.Joined

/-!
# What a filled pattern says

When every placeholder has an answer, filling is a matter of texts: each gap is replaced by
`Filling.text`, and all else stays (`fill_eq_ok`).
-/

namespace VerbExpansion

/-- What a piece says when placeholders stand for these texts. -/
def Piece.filled (texts : Placeholder → Text) : Piece → Text
  | literal character => [character]
  | gap placeholder => texts placeholder

/-- What a pattern says when placeholders stand for these texts. -/
def Pattern.filled (texts : Placeholder → Text) (pattern : Pattern) : Text :=
  pattern.flatMap (Piece.filled texts)

namespace Pattern

variable {texts : Placeholder → Text}

@[simp] theorem filled_nil : filled texts [] = [] := rfl

@[simp] theorem filled_cons (piece : Piece) (pattern : Pattern) :
    filled texts (piece :: pattern) = piece.filled texts ++ filled texts pattern := rfl

@[simp] theorem filled_append (before after : Pattern) :
    filled texts (before ++ after) = filled texts before ++ filled texts after :=
  List.flatMap_append

/-- A pattern without placeholders says what is written. -/
theorem filled_of_placeholders_eq_nil {pattern : Pattern} (noPlaceholders : pattern.placeholders = []) :
    pattern.filled texts = pattern.source := by
  induction pattern with
  | nil => rfl
  | cons piece pattern inductionHypothesis =>
    cases piece with
    | literal character => exact congrArg (character :: ·) (inductionHypothesis noPlaceholders)
    | gap placeholder => cases noPlaceholders

/-- Every character of a piece is a character of the text. -/
theorem mem_of_mem_source {text : Text} {piece : Piece} (member : piece ∈ ofText text)
    {character : Character} (inPiece : character ∈ piece.source) : character ∈ text := by
  rw [← source_ofText text]
  exact List.mem_flatMap.2 ⟨piece, member, inPiece⟩

theorem mem_of_literal_mem {text : Text} {character : Character}
    (member : .literal character ∈ ofText text) : character ∈ text :=
  mem_of_mem_source member List.mem_cons_self

end Pattern

namespace Filling

/-- What a placeholder stands for: what fills it, or its own source. -/
def text (filling : Filling) (placeholder : Placeholder) : Text :=
  match filling placeholder with
  | .ok (some text) => text
  | _ => placeholder.source

/-- Whether it is known what the placeholders of a text stand for. -/
def Answers (filling : Filling) (text : Text) : Prop :=
  ∀ placeholder ∈ (Pattern.ofText text).placeholders, ∃ answer, filling placeholder = .ok answer

variable {filling : Filling}

theorem Answers.of_isInfix {part whole : Text} (answers : filling.Answers whole)
    (infixOf : part <:+: whole) : filling.Answers part :=
  fun placeholder member => answers placeholder (Pattern.placeholders_subset_of_isInfix infixOf member)

theorem text_eq_getD {placeholder : Placeholder} {answer : Option Text}
    (answered : filling placeholder = .ok answer) :
    filling.text placeholder = answer.getD placeholder.source := by
  rw [text, answered]
  cases answer <;> rfl

theorem fillPiece_gap_eq_ok {placeholder : Placeholder} {answer : Option Text}
    (answered : filling placeholder = .ok answer) :
    fillPiece filling (.gap placeholder) = .ok (answer.getD placeholder.source) := by
  rw [fillPiece, answered]
  rfl

theorem fillPattern_eq_ok {pattern : Pattern}
    (answered : ∀ placeholder ∈ pattern.placeholders, ∃ answer, filling placeholder = .ok answer) :
    fillPattern filling pattern = .ok (pattern.filled filling.text) := by
  induction pattern with
  | nil => rfl
  | cons piece pattern inductionHypothesis =>
    cases piece with
    | literal character =>
      rw [fillPattern, inductionHypothesis answered]
      rfl
    | gap placeholder =>
      obtain ⟨answer, found⟩ := answered placeholder List.mem_cons_self
      rw [fillPattern, fillPiece_gap_eq_ok found,
        inductionHypothesis fun other member => answered other (List.mem_cons_of_mem _ member),
        Pattern.filled_cons, Piece.filled, text_eq_getD found]
      rfl

/-- A text whose placeholders have answers is filled. -/
theorem fill_eq_ok {whole : Text} (answers : filling.Answers whole) :
    fill filling whole = .ok ((Pattern.ofText whole).filled filling.text) :=
  fillPattern_eq_ok answers

/-- Tokens whose placeholders have answers are filled one by one. -/
theorem fillTokens_eq_ok {tokens : List Token}
    (answers : ∀ token ∈ tokens, filling.Answers token.value) :
    fillTokens filling tokens =
      .ok (tokens.map fun token => (Pattern.ofText token.value).filled filling.text) := by
  induction tokens with
  | nil => rfl
  | cons token tokens inductionHypothesis =>
    rw [fillTokens, fill_eq_ok (answers token List.mem_cons_self),
      inductionHypothesis fun other member => answers other (List.mem_cons_of_mem _ member)]
    rfl

/-- The arguments of a pattern whose placeholders have answers. -/
theorem arguments_eq_ok {pattern : Text} (answers : filling.Answers pattern) :
    arguments filling pattern =
      .ok ((Token.listOfText .ordinary pattern).map fun token =>
        (Pattern.ofText token.value).filled filling.text) :=
  fillTokens_eq_ok fun _ member => answers.of_isInfix (Token.value_infix_of_mem member)

/-- The tokens of the command line of a pattern whose placeholders have answers. -/
theorem commandTokens_eq_ok {pattern : Text} (answers : filling.Answers pattern) :
    commandTokens filling pattern =
      .ok ((Token.listOfText .paired ((Pattern.ofText pattern).filled filling.text)).map
        Token.value) := by
  rw [commandTokens, fill_eq_ok answers]
  rfl

/-- The command line of a pattern whose placeholders have answers. -/
theorem commandLine_eq_ok {pattern : Text} (answers : filling.Answers pattern) :
    commandLine filling pattern =
      .ok (Token.joined .paired ((Pattern.ofText pattern).filled filling.text)) := by
  rw [commandLine, commandTokens_eq_ok answers]
  rfl

end Filling

end VerbExpansion
