import VerbExpansion.Shell.Word

/-!
# How a shell reads a line

`words?` cuts a line into words as a shell does: at blanks outside quotes, with the quotes taken away
and adjacent parts put together. Expansions and escapes inside double quotes are not part of it. A
line whose last quote is not closed has no words.

A text that was quoted for a shell is read as one word (`words?_quote`).
-/

namespace VerbExpansion.Shell

/-- The words of the rest of a line. The quote that the place is inside of is `quote`, and the word
being read is `word`, once it has started. -/
def wordsFrom? : (quote : Option Character) → (word : Option Text) → Text → Option (List Text)
  | none, word, [] => some word.toList
  | some _, _, [] => none
  | some quote, word, character :: rest =>
    if character == quote then wordsFrom? none word rest
    else wordsFrom? (some quote) (some (word.getD [] ++ [character])) rest
  | none, word, character :: rest =>
    if character == '\'' || character == '"' then
      wordsFrom? (some character) (some (word.getD [])) rest
    else if Text.isBlank character then
      (wordsFrom? none none rest).map (word.toList ++ ·)
    else wordsFrom? none (some (word.getD [] ++ [character])) rest

/-- The words of a line. -/
def words? (line : Text) : Option (List Text) :=
  wordsFrom? none none line

/-- A plain character is no quote and no blank. -/
theorem ordinary_of_isPlain {character : Character} (plain : isPlain character = true) :
    character ≠ '\'' ∧ character ≠ '"' ∧ Text.isBlank character = false := by
  rw [isPlain, Bool.or_eq_true] at plain
  rcases plain with alphanumeric | mark
  · refine ⟨?_, ?_, ?_⟩
    · rintro rfl
      revert alphanumeric
      decide
    · rintro rfl
      revert alphanumeric
      decide
    · simp only [isLetterOrDigit, Bool.or_eq_true, Bool.and_eq_true, decide_eq_true_eq]
        at alphanumeric
      simp only [Text.isBlank, Bool.or_eq_false_iff, Bool.and_eq_false_iff,
        decide_eq_false_iff_not, beq_eq_false_iff_ne]
      omega
  · have everyMark : (plainMarks.all fun mark =>
        mark != '\'' && mark != '"' && !Text.isBlank mark) = true := by decide
    simpa [and_assoc] using List.all_eq_true.1 everyMark character (List.contains_iff_mem.1 mark)

/-- Plain characters go into the word that is being read. -/
theorem wordsFrom?_plain {text : Text} (plain : ∀ character ∈ text, isPlain character = true)
    (word rest : Text) :
    wordsFrom? none (some word) (text ++ rest) = wordsFrom? none (some (word ++ text)) rest := by
  induction text generalizing word with
  | nil => simp
  | cons character text inductionHypothesis =>
    obtain ⟨notSingle, notDouble, notBlank⟩ :=
      ordinary_of_isPlain (plain character List.mem_cons_self)
    rw [List.cons_append, wordsFrom?]
    simp only [notSingle, notDouble, notBlank, beq_iff_eq, Bool.or_eq_true, or_self, if_false,
      Bool.false_eq_true, Option.getD_some]
    rw [inductionHypothesis fun other member => plain other (List.mem_cons_of_mem _ member)]
    simp

/-- What is written between single quotes goes into the word that is being read. -/
theorem wordsFrom?_singleQuoted (text word rest : Text) :
    wordsFrom? (some '\'') (some word) (text.flatMap singleQuoted ++ .scalar '\'' :: rest) =
      wordsFrom? none (some (word ++ text)) rest := by
  induction text generalizing word with
  | nil => simp [wordsFrom?]
  | cons character text inductionHypothesis =>
    rw [List.flatMap_cons, List.append_assoc]
    by_cases single : character = '\''
    · subst single
      have spelled : singleQuoted '\'' =
          [.scalar '\'', .scalar '"', .scalar '\'', .scalar '"', .scalar '\''] := rfl
      simp only [spelled, List.cons_append, List.nil_append]
      simp [wordsFrom?, inductionHypothesis]
    · have spelled : singleQuoted character = [character] := by simp [singleQuoted, single]
      rw [spelled, List.singleton_append, wordsFrom?]
      simp [single, inductionHypothesis]

/-- A quoted text is read as one word with that text. -/
theorem words?_quote (text : Text) : words? (quote text) = some [text] := by
  unfold quote
  split
  · next safe =>
    rw [Bool.and_eq_true, List.all_eq_true] at safe
    cases text with
    | nil => simp at safe
    | cons character text =>
      obtain ⟨notSingle, notDouble, notBlank⟩ :=
        ordinary_of_isPlain (safe.2 character List.mem_cons_self)
      have rest := wordsFrom?_plain
        (fun other member => safe.2 other (List.mem_cons_of_mem _ member)) [character] []
      rw [List.append_nil] at rest
      simp [words?, wordsFrom?, notSingle, notDouble, notBlank, rest]
  · have rest := wordsFrom?_singleQuoted text [] []
    simp [words?, wordsFrom?, rest]

end VerbExpansion.Shell
