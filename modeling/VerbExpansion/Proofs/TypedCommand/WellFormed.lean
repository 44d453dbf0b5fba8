import VerbExpansion.Proofs.Text.Blank
import VerbExpansion.TypedCommand

/-!
# Well-formed commands

What can be typed, and what is typed for it. The body of a text is a word and what follows the word
(`ofText_of_body`), so a command that was read has a name without blanks and trimmed arguments, and
a bang at an end of its name only beside the bang that was taken. These are all the conditions:
the commands that meet them are those that are read back from their own text with a colon before it
(`ofText_colon_text_iff`).
-/

namespace VerbExpansion.TypedCommand

/-! ## Bangs -/

/-- The bang at the end of a word is taken, whatever stands before it. -/
@[simp] theorem splitBang_append_bang (name : Text) :
    splitBang (name ++ [.scalar '!']) = (name, true) := by
  simp [splitBang]

/-- A word with no bang at its ends is all name. -/
theorem splitBang_eq_self {word : Text} (noLeading : word.head? ≠ some (.scalar '!'))
    (noTrailing : word.getLast? ≠ some (.scalar '!')) : splitBang word = (word, false) := by
  unfold splitBang
  rw [if_neg noTrailing]
  split
  · exact absurd rfl noLeading
  · rfl

/-- A name is a part of its word. -/
theorem splitBang_subset (word : Text) : (splitBang word).1 ⊆ word := by
  unfold splitBang
  split
  · exact List.dropLast_subset word
  · split
    · exact List.subset_cons_self _ _
    · exact List.Subset.refl word

/-- Where no bang was taken there was none to take. -/
theorem eq_of_splitBang_eq_false {word : Text} (noBang : (splitBang word).2 = false) :
    (splitBang word).1 = word ∧ word.head? ≠ some (.scalar '!') ∧
      word.getLast? ≠ some (.scalar '!') := by
  unfold splitBang at noBang ⊢
  split at noBang
  · cases noBang
  · next noTrailing =>
    split at noBang
    · cases noBang
    · next noLeading =>
      refine ⟨by rw [if_neg noTrailing], fun isFirst => ?_, noTrailing⟩
      obtain ⟨rest, spelled⟩ := List.head?_eq_some_iff.1 isFirst
      exact noLeading rest spelled

/-! ## Reading -/

section Reading

variable {word rest : Text}

/-- The body of a text is trimmed. -/
theorem isTrimmed_body (text : Text) : Text.IsTrimmed (body text) := by
  have isTrimmed := Text.isTrimmed_trim text
  unfold body
  split
  · next rest spelled =>
    exact isTrimmed.trimStart_of_isSuffix (spelled ▸ List.suffix_cons _ rest)
  · exact isTrimmed

@[simp] theorem body_trim (text : Text) : body (Text.trim text) = body text := by
  rw [body, Text.trim_trim, body]

@[simp] theorem ofText_trim (text : Text) : ofText (Text.trim text) = ofText text := by
  rw [ofText, body_trim, ofText]

/-- A colon before a word is not part of the body. -/
theorem body_colon_append (notEmpty : word ≠ [])
    (blankless : ∀ character ∈ word, Text.isBlank character = false) (rest : Text) :
    body (.scalar ':' :: (word ++ rest)) = word ++ Text.trimEnd rest := by
  have colonBlankless : ∀ character ∈ .scalar ':' :: word, Text.isBlank character = false :=
    List.forall_mem_cons.2 ⟨by decide, blankless⟩
  have trimmed := Text.trim_append_of_blankless (List.cons_ne_nil _ _) colonBlankless rest
  rw [List.cons_append, List.cons_append] at trimmed
  rw [body, trimmed]
  refine Text.trimStart_eq_self fun character isFirst => ?_
  rw [List.head?_append_of_ne_nil _ notEmpty] at isFirst
  exact blankless character (List.mem_of_head? isFirst)

/-- A word that does not start with a colon starts the body. -/
theorem body_append (notEmpty : word ≠ []) (noColon : word.head? ≠ some (.scalar ':'))
    (blankless : ∀ character ∈ word, Text.isBlank character = false) (rest : Text) :
    body (word ++ rest) = word ++ Text.trimEnd rest := by
  rw [body, Text.trim_append_of_blankless notEmpty blankless]
  split
  · next spelled =>
    refine absurd ?_ noColon
    rw [← List.head?_append_of_ne_nil word notEmpty, spelled]
    rfl
  · rfl

/-- What a text types, by the first word of its body. -/
theorem ofText_of_body {text : Text} (spelled : body text = word ++ rest)
    (blankless : ∀ character ∈ word, Text.isBlank character = false)
    (ended : ∀ character ∈ rest.head?, Text.isBlank character = true) :
    ofText text =
      ⟨(splitBang word).1, (splitBang word).2, Text.unlessEmpty (Text.trimStart rest)⟩ := by
  unfold ofText
  rw [spelled, Text.firstWord_append blankless ended]
  dsimp only
  cases Text.trimStart rest with
  | nil => rfl
  | cons first arguments => rfl

/-- What a text types whose body is a word and the start of what follows the word. -/
theorem ofText_of_body_trimEnd {text : Text} (spelled : body text = word ++ Text.trimEnd rest)
    (blankless : ∀ character ∈ word, Text.isBlank character = false)
    (ended : ∀ character ∈ rest.head?, Text.isBlank character = true) :
    ofText text =
      ⟨(splitBang word).1, (splitBang word).2, Text.unlessEmpty (Text.trim rest)⟩ := by
  rw [← Text.trimStart_trimEnd]
  refine ofText_of_body spelled blankless fun character isFirst => ended character ?_
  obtain ⟨left, split⟩ := Text.trimEnd_isPrefix rest
  rw [← split, List.head?_append, Option.mem_def.1 isFirst]
  rfl

end Reading

/-! ## The commands that can be typed -/

/-- What is true of the commands that can be typed. -/
structure IsWellFormed (command : TypedCommand) : Prop where
  nameBlankless : ∀ character ∈ command.name, Text.isBlank character = false
  argumentsNotEmpty : ∀ arguments ∈ command.arguments, arguments ≠ []
  argumentsTrimmed : ∀ arguments ∈ command.arguments, Text.IsTrimmed arguments
  noLeadingBang : command.bang = false → command.name.head? ≠ some (.scalar '!')
  noTrailingBang : command.bang = false → command.name.getLast? ≠ some (.scalar '!')
  /-- Only a bang makes a word without a name. -/
  argumentsNamed : command.bang = false → command.name = [] → command.arguments = none

/-- Every text types a well-formed command. -/
theorem isWellFormed_ofText (text : Text) : (ofText text).IsWellFormed := by
  obtain ⟨word, rest, spelled, blankless, ended⟩ := Text.exists_firstWord (body text)
  have trimmedBody : Text.IsTrimmed (word ++ rest) := spelled ▸ isTrimmed_body text
  rw [ofText_of_body spelled blankless ended]
  constructor
  case nameBlankless =>
    exact fun character member => blankless character (splitBang_subset word member)
  case argumentsNotEmpty =>
    intro arguments member
    obtain ⟨notEmpty, rfl⟩ := Text.mem_unlessEmpty_iff.1 member
    exact notEmpty
  case argumentsTrimmed =>
    intro arguments member
    obtain ⟨-, rfl⟩ := Text.mem_unlessEmpty_iff.1 member
    exact trimmedBody.trimStart_of_isSuffix (List.suffix_append word rest)
  case noLeadingBang =>
    intro noBang
    obtain ⟨same, noLeading, -⟩ := eq_of_splitBang_eq_false noBang
    dsimp only
    rw [same]
    exact noLeading
  case noTrailingBang =>
    intro noBang
    obtain ⟨same, -, noTrailing⟩ := eq_of_splitBang_eq_false noBang
    dsimp only
    rw [same]
    exact noTrailing
  case argumentsNamed =>
    intro noBang nameless
    have noWord : word = [] := (eq_of_splitBang_eq_false noBang).1 ▸ nameless
    -- The body starts with no blank, so that nothing at all was typed.
    cases rest with
    | nil => rfl
    | cons first rest =>
      have blank := ended first rfl
      rw [trimmedBody.first first (by rw [noWord]; rfl)] at blank
      cases blank

/-- The name of a command with its bang behind it. -/
def word (command : TypedCommand) : Text :=
  command.name ++ if command.bang then [.scalar '!'] else []

/-- What follows the word of a command that has these arguments. -/
def tail : (arguments : Option Text) → Text
  | none => []
  | some arguments => .scalar ' ' :: arguments

/-- A name without blanks has none with its bang behind it. -/
theorem blankless_word {command : TypedCommand}
    (blankless : ∀ character ∈ command.name, Text.isBlank character = false) :
    ∀ character ∈ command.word, Text.isBlank character = false := by
  intro character member
  rcases List.mem_append.1 member with inName | isBang
  · exact blankless character inName
  · split at isBang
    · rw [List.mem_singleton.1 isBang]
      decide
    · cases isBang

theorem text_eq_word_append (command : TypedCommand) :
    command.text = command.word ++ tail command.arguments := by
  rw [text, textAs, word]
  cases command.arguments <;> rfl

theorem isBlank_of_mem_head?_tail (arguments : Option Text) :
    ∀ character ∈ (tail arguments).head?, Text.isBlank character = true := by
  cases arguments with
  | none => simp [tail]
  | some arguments =>
    rintro character ⟨⟩
    decide

/-- What follows the word of a command is its arguments, up to the blanks around them. -/
theorem trim_tail (arguments : Option Text) :
    Text.trim (tail arguments) = Text.trim (arguments.getD []) := by
  cases arguments with
  | none => rfl
  | some arguments => rfl

namespace IsWellFormed

variable {command : TypedCommand}

theorem word_blankless (wellFormed : command.IsWellFormed) :
    ∀ character ∈ command.word, Text.isBlank character = false :=
  blankless_word wellFormed.nameBlankless

/-- A name and its bang are taken apart again. -/
theorem splitBang_word (wellFormed : command.IsWellFormed) :
    splitBang command.word = (command.name, command.bang) := by
  unfold word
  cases bang : command.bang with
  | true => exact splitBang_append_bang command.name
  | false =>
    simpa using splitBang_eq_self (wellFormed.noLeadingBang bang) (wellFormed.noTrailingBang bang)

/-- The arguments of a well-formed command are as they would be read. -/
theorem unlessEmpty_trim_arguments (wellFormed : command.IsWellFormed) :
    Text.unlessEmpty (Text.trim (command.arguments.getD [])) = command.arguments := by
  cases typed : command.arguments with
  | none => rfl
  | some arguments =>
    rw [Option.getD_some, Text.trim_eq_self_iff.2 (wellFormed.argumentsTrimmed arguments typed),
      Text.unlessEmpty_of_ne_nil (wellFormed.argumentsNotEmpty arguments typed)]

/-- The name and the bang of a well-formed command are read back before any arguments, and the
arguments are trimmed. -/
theorem ofText_of_body {text : Text} {arguments : Option Text} (wellFormed : command.IsWellFormed)
    (spelled : body text = command.word ++ Text.trimEnd (tail arguments)) :
    ofText text =
      ⟨command.name, command.bang, Text.unlessEmpty (Text.trim (arguments.getD []))⟩ := by
  have read := ofText_of_body_trimEnd spelled wellFormed.word_blankless
    (isBlank_of_mem_head?_tail arguments)
  rw [read, wellFormed.splitBang_word, trim_tail]

theorem ofText_colon_word_append (wellFormed : command.IsWellFormed) (notEmpty : command.word ≠ [])
    (arguments : Option Text) :
    ofText (.scalar ':' :: (command.word ++ tail arguments)) =
      ⟨command.name, command.bang, Text.unlessEmpty (Text.trim (arguments.getD []))⟩ :=
  wellFormed.ofText_of_body (body_colon_append notEmpty wellFormed.word_blankless (tail arguments))

theorem ofText_word_append (wellFormed : command.IsWellFormed) (notEmpty : command.word ≠ [])
    (noColon : command.word.head? ≠ some (.scalar ':')) (arguments : Option Text) :
    ofText (command.word ++ tail arguments) =
      ⟨command.name, command.bang, Text.unlessEmpty (Text.trim (arguments.getD []))⟩ :=
  wellFormed.ofText_of_body
    (body_append notEmpty noColon wellFormed.word_blankless (tail arguments))

/-- With neither a name nor a bang there are no arguments, and nothing is typed. -/
theorem eq_of_word_eq_nil (wellFormed : command.IsWellFormed) (wordless : command.word = []) :
    command = ⟨[], false, none⟩ := by
  obtain ⟨nameless, noBang⟩ := List.append_eq_nil_iff.1 wordless
  have bangless : command.bang = false := by
    cases bang : command.bang with
    | true => simp [bang] at noBang
    | false => rfl
  have noArguments := wellFormed.argumentsNamed bangless nameless
  obtain ⟨name, bang, arguments⟩ := command
  cases nameless
  cases bangless
  cases noArguments
  rfl

/-- A well-formed command is read back from its text after a colon. -/
theorem ofText_colon_text (wellFormed : command.IsWellFormed) :
    ofText (.scalar ':' :: command.text) = command := by
  by_cases wordless : command.word = []
  · rw [wellFormed.eq_of_word_eq_nil wordless]
    decide
  · rw [text_eq_word_append, wellFormed.ofText_colon_word_append wordless,
      wellFormed.unlessEmpty_trim_arguments]

end IsWellFormed

/-- The commands that texts type are the well-formed ones, and these are the ones that are read back
from their own text after a colon. -/
theorem ofText_colon_text_iff :
    (∀ text, (ofText text).IsWellFormed) ∧
      (∀ command, ofText (.scalar ':' :: text command) = command ↔ command.IsWellFormed) ∧
      ∀ command, (∃ text, ofText text = command) ↔ command.IsWellFormed := by
  refine ⟨isWellFormed_ofText, fun command => ⟨fun readBack => ?_, ?_⟩, fun command => ⟨?_, ?_⟩⟩
  · exact readBack ▸ isWellFormed_ofText _
  · exact IsWellFormed.ofText_colon_text
  · rintro ⟨text, rfl⟩
    exact isWellFormed_ofText text
  · exact fun wellFormed => ⟨_, wellFormed.ofText_colon_text⟩

end VerbExpansion.TypedCommand
