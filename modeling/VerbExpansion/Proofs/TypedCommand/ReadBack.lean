import VerbExpansion.Proofs.TypedCommand.WellFormed

/-!
# Commands read back from their own text

The text of a command has no colon before it, so a colon at the start of the name is taken for one.
What was typed is read back from its text exactly when the name does not start with a colon
(`ofText_text_ofText_iff`): a command never has a longer text than the body that types it, and a
colon that is taken is missing from the body.
-/

namespace VerbExpansion.TypedCommand

/-- Taking the bang off a word loses nothing else. -/
theorem length_splitBang (word : Text) :
    (splitBang word).1.length + (if (splitBang word).2 then 1 else 0) = word.length := by
  unfold splitBang
  split
  · next isLast =>
    have notEmpty := List.length_pos_of_mem (List.mem_of_getLast? isLast)
    simp only [List.length_dropLast]
    simp
    omega
  · split <;> simp

/-- The text of a command is no longer than the body that types the command. -/
theorem length_text_ofText_le (typed : Text) :
    (text (ofText typed)).length ≤ (body typed).length := by
  obtain ⟨word, rest, spelled, blankless, ended⟩ := Text.exists_firstWord (body typed)
  have wordFits : (TypedCommand.word ⟨(splitBang word).1, (splitBang word).2,
      Text.unlessEmpty (Text.trimStart rest)⟩).length = word.length := by
    rw [← length_splitBang word, TypedCommand.word, List.length_append]
    split <;> rfl
  -- The one space before the arguments stands for at least one blank of the body.
  have tailFits : (tail (Text.unlessEmpty (Text.trimStart rest))).length ≤ rest.length := by
    cases rest with
    | nil => simp [Text.unlessEmpty, tail]
    | cons first rest =>
      have shorter : (Text.trimStart (first :: rest)).length ≤ rest.length := by
        rw [Text.trimStart, List.dropWhile_cons_of_pos (ended first rfl)]
        exact List.length_dropWhile_le ..
      unfold Text.unlessEmpty
      split
      · exact Nat.zero_le _
      · exact Nat.succ_le_succ shorter
  rw [ofText_of_body spelled blankless ended, spelled, text_eq_word_append, List.length_append,
    List.length_append, wordFits]
  exact Nat.add_le_add_left tailFits word.length

/-- What follows a colon is the body, up to the blanks around it. -/
theorem body_colon (rest : Text) : body (.scalar ':' :: rest) = Text.trim rest := by
  have trimmed := Text.trim_append_of_blankless (List.cons_ne_nil (.scalar ':') [])
    (List.forall_mem_singleton.2 rfl) rest
  rw [List.singleton_append] at trimmed
  rw [body, trimmed, List.singleton_append]
  exact Text.trimStart_trimEnd rest

/-- A name that starts with a colon is not read back. -/
theorem ofText_text_ne_of_colon {command : TypedCommand}
    (colon : command.name.head? = some (.scalar ':')) : ofText command.text ≠ command := by
  obtain ⟨name, named⟩ := List.head?_eq_some_iff.1 colon
  obtain ⟨rest, spelled⟩ : ∃ rest, command.text = .scalar ':' :: rest := by
    rw [text_eq_word_append, word, named]
    exact ⟨_, rfl⟩
  intro readBack
  have fits := length_text_ofText_le command.text
  have trimmed : (Text.trim rest).length ≤ rest.length :=
    (Text.trimEnd_isPrefix _).length_le.trans (List.length_dropWhile_le ..)
  have bodyLength : (body command.text).length = (Text.trim rest).length := by
    rw [spelled, body_colon]
  have textLength : command.text.length = rest.length + 1 := by rw [spelled, List.length_cons]
  rw [readBack] at fits
  omega

theorem head?_word_ne_colon {command : TypedCommand}
    (noColon : command.name.head? ≠ some (.scalar ':')) :
    command.word.head? ≠ some (.scalar ':') := by
  rw [word]
  cases named : command.name with
  | nil => cases command.bang <;> decide
  | cons first name =>
    rw [named] at noColon
    exact noColon

/-- Any other well-formed command is read back. -/
theorem IsWellFormed.ofText_text {command : TypedCommand} (wellFormed : command.IsWellFormed)
    (noColon : command.name.head? ≠ some (.scalar ':')) : ofText command.text = command := by
  by_cases wordless : command.word = []
  · rw [wellFormed.eq_of_word_eq_nil wordless]
    decide
  · rw [text_eq_word_append, wellFormed.ofText_word_append wordless (head?_word_ne_colon noColon),
      wellFormed.unlessEmpty_trim_arguments]

/-- The arguments of a command are read back under any name that is a word and does not start with a
colon, also where a bang of the name is taken for the bang of the command. -/
theorem arguments_ofText_textAs {command : TypedCommand} (wellFormed : command.IsWellFormed)
    {name : Text} (named : name ≠ [])
    (blankless : ∀ character ∈ name, Text.isBlank character = false)
    (noColon : name.head? ≠ some (.scalar ':')) :
    (ofText (command.textAs name)).arguments = command.arguments := by
  let renamed : TypedCommand := { command with name }
  have renamedText : command.textAs name = renamed.word ++ tail command.arguments :=
    text_eq_word_append renamed
  have notEmpty : renamed.word ≠ [] := List.append_ne_nil_of_left_ne_nil named _
  have renamedBlankless : ∀ character ∈ renamed.word, Text.isBlank character = false :=
    blankless_word blankless
  have spelled := body_append notEmpty (head?_word_ne_colon noColon) renamedBlankless
    (tail command.arguments)
  rw [renamedText, ofText_of_body_trimEnd spelled renamedBlankless
    (isBlank_of_mem_head?_tail command.arguments), trim_tail, wellFormed.unlessEmpty_trim_arguments]

/-- What was typed is read back from its own text exactly when its name does not start with a
colon. -/
theorem ofText_text_ofText_iff (typed : Text) :
    ofText (text (ofText typed)) = ofText typed ↔
      (ofText typed).name.head? ≠ some (.scalar ':') := by
  constructor
  · intro readBack colon
    exact ofText_text_ne_of_colon colon readBack
  · intro noColon
    exact (isWellFormed_ofText typed).ofText_text noColon

end VerbExpansion.TypedCommand
