import Mathlib.Data.List.Forall2
import VerbExpansion.Shell.Reading

/-!
# The letters that a shell reads

`letters?` reads a line into words as `words?` does, and says of every character whether it stood
between quotes (`words?_eq_map_letters?`). A shell word is read as the text that it writes, and its
letters outside quotes are plain (`exists_readsAs_quote`). A text without blanks and quotes is read as
it stands, and from any other line reading takes something away (`length_of_words?`).
-/

namespace VerbExpansion.Shell

/-! ## Bare words -/

/-- A text that is one word as it stands, without blanks and quotes. -/
structure IsBare (text : Text) : Prop where
  notEmpty : text ≠ []
  ordinary : ∀ character ∈ text,
    Text.isBlank character = false ∧ character ≠ '\'' ∧ character ≠ '"'

instance (text : Text) : Decidable (IsBare text) :=
  decidable_of_iff (text ≠ [] ∧ ∀ character ∈ text,
      Text.isBlank character = false ∧ character ≠ '\'' ∧ character ≠ '"')
    ⟨fun conditions => ⟨conditions.1, conditions.2⟩, fun bare => ⟨bare.1, bare.2⟩⟩

theorem isBare_of_isPlain {text : Text} (notEmpty : text ≠ [])
    (plain : ∀ character ∈ text, isPlain character = true) : IsBare text := by
  refine ⟨notEmpty, fun character member => ?_⟩
  obtain ⟨notSingle, notDouble, notBlank⟩ := ordinary_of_isPlain (plain character member)
  exact ⟨notBlank, notSingle, notDouble⟩

/-- A shell word is bare, or stands between single quotes. -/
theorem quote_eq_or (text : Text) :
    quote text = text ∧ IsBare text ∧ (∀ character ∈ text, isPlain character = true) ∨
      quote text = .scalar '\'' :: text.flatMap singleQuoted ++ [.scalar '\''] := by
  unfold quote
  split
  · next plain =>
    rw [Bool.and_eq_true, List.all_eq_true] at plain
    exact .inl ⟨rfl, isBare_of_isPlain (by simpa using plain.1) plain.2, plain.2⟩
  · exact .inr rfl

/-! ## Letters -/

/-- A character that a shell reads, and whether it stood between quotes. -/
structure Letter where
  character : Character
  quoted : Bool
  deriving DecidableEq

/-- The words of the rest of a line, letter for letter. The quote that the place is inside of is
`quote`, and the word being read is `word`, once it has started. -/
def lettersFrom? : (quote : Option Character) → (word : Option (List Letter)) → Text →
    Option (List (List Letter))
  | none, word, [] => some word.toList
  | some _, _, [] => none
  | some quote, word, character :: rest =>
    if character == quote then lettersFrom? none word rest
    else lettersFrom? (some quote) (some (word.getD [] ++ [⟨character, true⟩])) rest
  | none, word, character :: rest =>
    if character == '\'' || character == '"' then
      lettersFrom? (some character) (some (word.getD [])) rest
    else if Text.isBlank character then
      (lettersFrom? none none rest).map (word.toList ++ ·)
    else lettersFrom? none (some (word.getD [] ++ [⟨character, false⟩])) rest

/-- The words of a line, letter for letter. -/
def letters? (line : Text) : Option (List (List Letter)) :=
  lettersFrom? none none line

/-- The text of a word. -/
def textOf (word : List Letter) : Text :=
  word.map Letter.character

/-- The letters of a text that is read all inside quotes, or all outside. -/
def lettersOf (quoted : Bool) (text : Text) : List Letter :=
  text.map (⟨·, quoted⟩)

@[simp] theorem textOf_lettersOf (quoted : Bool) (text : Text) :
    textOf (lettersOf quoted text) = text := by
  rw [textOf, lettersOf, List.map_map]
  exact List.map_id text

theorem textOf_append (word other : List Letter) :
    textOf (word ++ other) = textOf word ++ textOf other :=
  List.map_append

theorem wordsFrom?_eq_map (quote : Option Character) (word : Option (List Letter)) (text : Text) :
    wordsFrom? quote (word.map textOf) text = (lettersFrom? quote word text).map (·.map textOf) := by
  fun_induction lettersFrom? quote word text with
  | case1 word => cases word <;> rfl
  | case2 => rfl
  | case3 mark word character rest closes inductionHypothesis =>
    rw [wordsFrom?, if_pos closes, inductionHypothesis]
  | case4 mark word character rest goesOn inductionHypothesis =>
    rw [wordsFrom?, if_neg goesOn, ← inductionHypothesis]
    cases word <;> simp [textOf]
  | case5 word character rest opens inductionHypothesis =>
    rw [wordsFrom?, if_pos opens, ← inductionHypothesis]
    cases word <;> rfl
  | case6 word character rest noQuote blank inductionHypothesis =>
    rw [wordsFrom?, if_neg noQuote, if_pos blank]
    rw [Option.map_none] at inductionHypothesis
    rw [inductionHypothesis, Option.map_map, Option.map_map]
    cases word <;> rfl
  | case7 word character rest noQuote notBlank inductionHypothesis =>
    rw [wordsFrom?, if_neg noQuote, if_neg notBlank, ← inductionHypothesis]
    cases word <;> simp [textOf]

/-- The words of a line are the texts of its letters. -/
theorem words?_eq_map_letters? (line : Text) :
    words? line = (letters? line).map (·.map textOf) :=
  wordsFrom?_eq_map none none line

/-! ## Texts that are read as they come -/

/-- Outside quotes, a text is read as these letters of one word, whatever stands around it. -/
def ReadsAs (text : Text) (letters : List Letter) : Prop :=
  ∀ word rest, lettersFrom? none word (text ++ rest) =
    lettersFrom? none (some (word.getD [] ++ letters)) rest

theorem ReadsAs.append {text other : Text} {letters more : List Letter}
    (first : ReadsAs text letters) (second : ReadsAs other more) :
    ReadsAs (text ++ other) (letters ++ more) := by
  intro word rest
  rw [List.append_assoc, first, second, Option.getD_some, List.append_assoc]

/-- A character that is no blank and no quote is read as it is. -/
theorem readsAs_singleton {character : Character} (notBlank : Text.isBlank character = false)
    (notSingle : character ≠ '\'') (notDouble : character ≠ '"') :
    ReadsAs [character] [⟨character, false⟩] := by
  intro word rest
  rw [List.singleton_append, lettersFrom?, if_neg (by simp [notSingle, notDouble]),
    if_neg (by simp [notBlank])]

/-- Texts that are read one by one are read together. -/
theorem readsAs_flatMap {α : Type} {pieces : List α} {text : α → Text}
    {parts : List (List Letter)} (notEmpty : pieces ≠ [])
    (each : List.Forall₂ (fun piece part => ReadsAs (text piece) part) pieces parts) :
    ReadsAs (pieces.flatMap text) parts.flatten := by
  induction each with
  | nil => exact absurd rfl notEmpty
  | @cons piece part pieces parts first others inductionHypothesis =>
    rw [List.flatMap_cons, List.flatten_cons]
    cases others with
    | nil => simpa using first
    | cons => exact first.append (inductionHypothesis (List.cons_ne_nil _ _))

/-- A text without blanks and quotes is read as it is. -/
theorem readsAs_of_isBare {text : Text} (isBare : IsBare text) :
    ReadsAs text (lettersOf false text) := by
  obtain ⟨notEmpty, ordinary⟩ := isBare
  induction text with
  | nil => exact absurd rfl notEmpty
  | cons character text inductionHypothesis =>
    obtain ⟨notBlank, notSingle, notDouble⟩ := ordinary character List.mem_cons_self
    have first := readsAs_singleton notBlank notSingle notDouble
    cases text with
    | nil => exact first
    | cons =>
      exact first.append (inductionHypothesis (List.cons_ne_nil _ _)
        fun other member => ordinary other (List.mem_cons_of_mem _ member))

/-- What is written between single quotes is read as quoted letters. -/
theorem lettersFrom?_singleQuoted (text : Text) (word : List Letter) (rest : Text) :
    lettersFrom? (some '\'') (some word) (text.flatMap singleQuoted ++ .scalar '\'' :: rest) =
      lettersFrom? none (some (word ++ lettersOf true text)) rest := by
  induction text generalizing word with
  | nil => simp [lettersFrom?, lettersOf]
  | cons character text inductionHypothesis =>
    rw [List.flatMap_cons, List.append_assoc]
    by_cases single : character = '\''
    · subst single
      have spelled : singleQuoted '\'' =
          [.scalar '\'', .scalar '"', .scalar '\'', .scalar '"', .scalar '\''] := rfl
      simp only [spelled, List.cons_append, List.nil_append]
      simp [lettersFrom?, inductionHypothesis, lettersOf]
    · have spelled : singleQuoted character = [character] := by simp [singleQuoted, single]
      rw [spelled, List.singleton_append, lettersFrom?]
      simp [single, inductionHypothesis, lettersOf]

/-- A shell word is read as the text that it writes, and its letters outside quotes are plain. -/
theorem exists_readsAs_quote (text : Text) :
    ∃ letters, ReadsAs (quote text) letters ∧ textOf letters = text ∧
      ∀ letter ∈ letters, letter.quoted = false → isPlain letter.character = true := by
  rcases quote_eq_or text with ⟨unchanged, isBare, plain⟩ | quoted
  · rw [unchanged]
    refine ⟨lettersOf false text, readsAs_of_isBare isBare, textOf_lettersOf false text, ?_⟩
    simpa [lettersOf] using plain
  · rw [quoted]
    refine ⟨lettersOf true text, ?_, textOf_lettersOf true text, by simp [lettersOf]⟩
    intro word rest
    rw [List.append_assoc, List.singleton_append, List.cons_append, lettersFrom?,
      if_pos (by decide), lettersFrom?_singleQuoted]

/-- Texts with one space between neighbours are read as one word each. -/
theorem letters?_spaced {texts : List Text} {words : List (List Letter)}
    (each : List.Forall₂ ReadsAs texts words) : letters? (Text.spaced texts) = some words := by
  induction each with
  | nil => rfl
  | @cons text word texts words first others inductionHypothesis =>
    have start := first none
    rw [Option.getD_none, List.nil_append] at start
    cases others with
    | nil =>
      have read := start []
      rw [List.append_nil] at read
      simpa [letters?, lettersFrom?] using read
    | @cons second _ texts _ =>
      rw [Text.spaced_cons_cons, letters?, start, lettersFrom?, if_neg (by decide), if_pos (by decide)]
      exact congrArg (Option.map _) inductionHypothesis

/-! ## Lines of one word -/

/-- A bare text is read as it stands. -/
theorem words?_of_isBare {text : Text} (isBare : IsBare text) : words? text = some [text] := by
  have read := letters?_spaced (List.Forall₂.cons (readsAs_of_isBare isBare) .nil)
  rw [Text.spaced_singleton] at read
  rw [words?_eq_map_letters?, read, Option.map_some, List.map_singleton, textOf_lettersOf]

/-- The words of a line have no more characters than the line, and as many only where the line has no
blanks and no quotes. -/
theorem length_of_wordsFrom? {quote : Option Character} {word : Option Text} {line : Text}
    {words : List Text} (read : wordsFrom? quote word line = some words) :
    words.flatten.length ≤ (word.getD []).length + line.length ∧
      (quote = none → words.flatten.length = (word.getD []).length + line.length →
        ∀ character ∈ line,
          Text.isBlank character = false ∧ character ≠ '\'' ∧ character ≠ '"') := by
  fun_induction wordsFrom? quote word line generalizing words with
  | case1 word =>
    cases read
    cases word <;> simp
  | case2 => cases read
  | case3 mark word character rest closes inductionHypothesis =>
    have bound := (inductionHypothesis read).1
    rw [List.length_cons]
    exact ⟨by omega, fun outside => by cases outside⟩
  | case4 mark word character rest goesOn inductionHypothesis =>
    have bound := (inductionHypothesis read).1
    rw [Option.getD_some, List.length_append, List.length_singleton] at bound
    rw [List.length_cons]
    exact ⟨by omega, fun outside => by cases outside⟩
  | case5 word character rest opens inductionHypothesis =>
    have bound := (inductionHypothesis read).1
    rw [Option.getD_some] at bound
    rw [List.length_cons]
    exact ⟨by omega, fun _ same => by omega⟩
  | case6 word character rest noQuote blank inductionHypothesis =>
    obtain ⟨others, found, rfl⟩ := Option.map_eq_some_iff.1 read
    have bound := (inductionHypothesis found).1
    rw [Option.getD_none, List.length_nil] at bound
    have start : word.toList.flatten.length = (word.getD []).length := by
      cases word <;> simp
    rw [List.flatten_append, List.length_append, start, List.length_cons]
    exact ⟨by omega, fun _ same => by omega⟩
  | case7 word character rest noQuote notBlank inductionHypothesis =>
    obtain ⟨bound, whole⟩ := inductionHypothesis read
    rw [Option.getD_some, List.length_append, List.length_singleton] at bound whole
    rw [List.length_cons]
    refine ⟨by omega, fun outside same => ?_⟩
    rintro other (_ | ⟨_, member⟩)
    · simpa using And.intro notBlank noQuote
    · exact whole rfl (by omega) other member

/-- A line that is read as one word is at least as long as the word, and as long only when the line is
the word and is bare. -/
theorem length_of_words? {line word : Text} (read : words? line = some [word]) :
    word.length < line.length ∨ line = word ∧ IsBare word := by
  obtain ⟨bound, whole⟩ := length_of_wordsFrom? read
  simp only [List.flatten_cons, List.flatten_nil, List.append_nil, Option.getD_none,
    List.length_nil, Nat.zero_add] at bound whole
  rcases Nat.lt_or_eq_of_le bound with shorter | same
  · exact .inl shorter
  · have notEmpty : line ≠ [] := by
      rintro rfl
      cases read
    have bare : IsBare line := ⟨notEmpty, whole trivial same⟩
    rw [words?_of_isBare bare] at read
    cases read
    exact .inr ⟨rfl, bare⟩

end VerbExpansion.Shell
