import Mathlib.Tactic.Choose
import VerbExpansion.Proofs.Expansion.Order
import VerbExpansion.Proofs.Shell.Letters

/-!
# Command lines as a shell reads them

Where a pattern has no quotes of its own and names only what is set aside, a shell reads the command
line as the list of arguments (`words?_commandLine`): no path is cut or joined, and no character of it
has a meaning to the shell.
-/

namespace VerbExpansion.Context

open Shell

variable {surroundings : Surroundings} {context : Context}

/-- Whether these letters may be read for a piece of a pattern: they are the characters that the
piece stands for, and where something fills it, those outside quotes are plain. -/
structure IsReadingOf (surroundings : Surroundings) (context : Context) (piece : Piece)
    (part : List Letter) : Prop where
  text : Filling.fillPiece (filling? surroundings context .plain) piece = .ok (textOf part)
  plain : ∀ placeholder filled, piece = .gap placeholder →
    filling? surroundings context .plain placeholder = .ok (some filled) →
    ∀ letter ∈ part, letter.quoted = false → isPlain letter.character = true

/-- Whether a word is read for a token, piece by piece. -/
def Spells (surroundings : Surroundings) (context : Context) (token : Token)
    (word : List Letter) : Prop :=
  ∃ parts, word = parts.flatten ∧
    List.Forall₂ (IsReadingOf surroundings context) (Pattern.ofText token.value) parts

/-- What is written for a name that is set aside is read as that for which it stands. -/
theorem Referent.exists_reading {referent : Referent} {source : Text} (isBare : IsBare source) :
    ∃ part, ReadsAs ((referent.write? .shellWord).getD source) part ∧
      textOf part = (referent.write? .plain).getD source ∧
      (referent ≠ .absent →
        ∀ letter ∈ part, letter.quoted = false → isPlain letter.character = true) := by
  cases referent with
  | place path =>
    obtain ⟨part, reads, text, plain⟩ := exists_readsAs_quote path.text
    exact ⟨part, reads, text, fun _ => plain⟩
  | lineNumber number =>
    have digits : ∀ character ∈ Text.ofInteger number, isPlain character = true :=
      fun _ member => Text.isPlain_of_mem_ofInteger member
    refine ⟨lettersOf false (Text.ofInteger number), ?_, textOf_lettersOf _ _, fun _ => ?_⟩
    · exact readsAs_of_isBare (isBare_of_isPlain (Text.ofInteger_ne_nil number) digits)
    · simpa [lettersOf] using digits
  | absent =>
    exact ⟨lettersOf false source, readsAs_of_isBare isBare, textOf_lettersOf _ _,
      fun present => absurd rfl present⟩

/-- A piece of a text without blanks and quotes is read as what it stands for. -/
theorem exists_isReadingOf {word : Text} (isBare : IsBare word)
    (named : ∀ placeholder ∈ (Pattern.ofText word).placeholders,
      placeholder.contextName?.isSome = true)
    (answerable : ∀ placeholder ∈ (Pattern.ofText word).placeholders,
      IsAnswerable surroundings context placeholder) {piece : Piece}
    (member : piece ∈ Pattern.ofText word) :
    ∃ part, ReadsAs (piece.filled (filling? surroundings context .shellWord).text) part ∧
      IsReadingOf surroundings context piece part := by
  cases piece with
  | literal character =>
    obtain ⟨notBlank, notSingle, notDouble⟩ :=
      isBare.ordinary character (Pattern.mem_of_literal_mem member)
    refine ⟨[⟨character, false⟩], readsAs_singleton notBlank notSingle notDouble, rfl, ?_⟩
    rintro placeholder filled ⟨⟩
  | gap placeholder =>
    have inWord := Pattern.mem_placeholders_iff.2 member
    obtain ⟨name, isName⟩ := Option.isSome_iff_exists.1 (named placeholder inWord)
    obtain ⟨referent, written⟩ := exists_referent isName (answerable placeholder inWord)
    have sourceBare : IsBare placeholder.source :=
      ⟨placeholder.source_ne_nil, fun character inSource =>
        isBare.ordinary character (Pattern.mem_of_mem_source member inSource)⟩
    obtain ⟨part, reads, text, plain⟩ :=
      referent.exists_reading sourceBare
    refine ⟨part, ?_, ?_, ?_⟩
    · rw [Piece.filled, Filling.text_eq_getD (written .shellWord)]
      exact reads
    · rw [Filling.fillPiece_gap_eq_ok (written .plain), text]
    · rintro _ filled ⟨⟩ isFilled
      rw [written .plain] at isFilled
      refine plain ?_
      rintro rfl
      cases isFilled

/-- A word of a pattern is read as it is spelled. -/
theorem exists_spells {word : Text} (isBare : IsBare word)
    (named : ∀ placeholder ∈ (Pattern.ofText word).placeholders,
      placeholder.contextName?.isSome = true)
    (answerable : ∀ placeholder ∈ (Pattern.ofText word).placeholders,
      IsAnswerable surroundings context placeholder) :
    ∃ letters,
      ReadsAs ((Pattern.ofText word).filled (filling? surroundings context .shellWord).text)
        letters ∧
      Spells surroundings context (.bare word) letters := by
  choose! part reads isReading using
    fun piece (member : piece ∈ Pattern.ofText word) =>
      exists_isReadingOf isBare named answerable member
  refine ⟨((Pattern.ofText word).map part).flatten, ?_, (Pattern.ofText word).map part, rfl, ?_⟩
  · refine readsAs_flatMap ?_ ?_
    · intro noPieces
      have spelled := Pattern.source_ofText word
      rw [noPieces] at spelled
      exact isBare.notEmpty spelled.symm
    · rw [List.forall₂_map_right_iff, List.forall₂_same]
      exact reads
  · rw [List.forall₂_map_right_iff]
    exact List.forall₂_same.2 isReading

/-- What is read for a token has the text with which the token is filled. -/
theorem fill_eq_of_spells {token : Token} {word : List Letter}
    (spells : Spells surroundings context token word) :
    Filling.fill (filling? surroundings context .plain) token.value = .ok (textOf word) := by
  obtain ⟨parts, rfl, each⟩ := spells
  rw [Filling.fill]
  generalize Pattern.ofText token.value = pattern at each ⊢
  induction each with
  | nil => rfl
  | cons first _ inductionHypothesis =>
    rw [Filling.fillPattern, first.text, inductionHypothesis, List.flatten_cons, textOf_append]
    rfl

theorem fillTokens_eq_of_spells {tokens : List Token} {words : List (List Letter)}
    (spells : List.Forall₂ (Spells surroundings context) tokens words) :
    Filling.fillTokens (filling? surroundings context .plain) tokens =
      .ok (words.map textOf) := by
  induction spells with
  | nil => rfl
  | cons first _ inductionHypothesis =>
    rw [Filling.fillTokens, fill_eq_of_spells first, inductionHypothesis]
    rfl

/-- A shell reads the command line of an unquoted pattern as the arguments of the pattern, each
spelled out as its token says, and finds only plain characters outside quotes where something was
filled in. When the pattern asks for a line that is too long to be written, both end there. -/
theorem words?_commandLine (surroundings : Surroundings) (context : Context) (pattern : Text)
    (unquoted : ∀ character ∈ pattern, character ≠ '\'' ∧ character ≠ '"')
    (named : ∀ placeholder ∈ (Pattern.ofText pattern).placeholders,
      placeholder.contextName?.isSome = true)
    (blankless : Pattern.IsBlankless pattern)
    (undenied : Undenied surroundings context pattern) :
    (¬ AsksForLongLine context pattern →
      ∃ line arguments letters,
        commandLine surroundings context pattern = .ok line ∧
        Context.arguments surroundings context pattern = .ok arguments ∧
        words? line = some arguments ∧
        letters? line = some letters ∧
        List.Forall₂ (Spells surroundings context) (Token.listOfText .ordinary pattern) letters) ∧
    (AsksForLongLine context pattern →
      commandLine surroundings context pattern = .error .oversizedLine ∧
      Context.arguments surroundings context pattern = .error .oversizedLine) := by
  refine ⟨fun short => ?_, fun long => ⟨commandLine_eq_oversizedLine undenied long,
    arguments_eq_oversizedLine blankless undenied long .plain⟩⟩
  have noDouble : .scalar '"' ∉ pattern := fun double => (unquoted _ double).2 rfl
  have inPattern : ∀ {token}, token ∈ Token.listOfText .ordinary pattern →
      token.source <:+: pattern := Token.source_infix_of_mem
  -- Every token of the pattern is a word without blanks and quotes, and is read as it is spelled.
  have eachSpells : ∀ token ∈ Token.listOfText .ordinary pattern, ∃ letters,
      ReadsAs ((Pattern.ofText token.value).filled
        (filling? surroundings context .shellWord).text) letters ∧
      Spells surroundings context token letters := by
    intro token member
    obtain ⟨word, rfl, notEmpty, noBlank⟩ := Token.exists_eq_bare_of_mem noDouble member
    refine exists_spells ⟨notEmpty, fun character inWord => ?_⟩ (fun placeholder inWord => ?_)
      (fun placeholder inWord => ?_)
    · exact ⟨noBlank character inWord, unquoted character ((inPattern member).subset inWord)⟩
    · exact named placeholder (Pattern.placeholders_subset_of_isInfix (inPattern member) inWord)
    · exact isAnswerable_of_undenied undenied short
        (Pattern.placeholders_subset_of_isInfix (inPattern member) inWord)
  choose! letters reads spells using eachSpells
  have allSpell : List.Forall₂ (Spells surroundings context) (Token.listOfText .ordinary pattern)
      ((Token.listOfText .ordinary pattern).map letters) := by
    rw [List.forall₂_map_right_iff]
    exact List.forall₂_same.2 spells
  have quotes : Token.QuotesEnclose pattern := by
    refine ⟨fun single => (unquoted _ single).1 rfl, fun token member double => ?_⟩
    exact noDouble (((token.inside_infix_source).trans (inPattern member)).subset double)
  have untyped : ∀ placeholder ∈ (Pattern.ofText pattern).placeholders,
      placeholder.contextName? = none → context.value? placeholder.name = none := by
    intro placeholder member free
    have isNamed := named placeholder member
    rw [free] at isNamed
    cases isNamed
  have line := commandLine_eq_spaced_filled quotes blankless untyped undenied short
  have read : letters? (Text.spaced _) = some ((Token.listOfText .ordinary pattern).map letters) :=
    letters?_spaced (List.forall₂_map_right_iff.2 (List.forall₂_map_left_iff.2
      (List.forall₂_same.2 reads)))
  refine ⟨_, _, _, line, fillTokens_eq_of_spells allSpell, ?_, read, allSpell⟩
  rw [words?_eq_map_letters?, read]
  rfl

/-- Paths with quotes, blanks, braces and marks of the shell in them. -/
theorem words?_commandLine_of_marked_paths :
    let surroundings := Surroundings.ofDirectories "/home/me" [Path.ofText "/tmp/{file} $x"]
    let context : Context :=
      { selection := { path := Path.ofText "/tmp/it's \"a\"  b\" c", line := -7 },
        other := some (Path.ofText "/tmp/{file} $x/\u2003;") }
    let pattern : Text := "vi +{line}  {file:any}{other-panel-directory} -o={parent}"
    (∀ character ∈ pattern, character ≠ '\'' ∧ character ≠ '"') ∧
      (∀ placeholder ∈ (Pattern.ofText pattern).placeholders,
        placeholder.contextName?.isSome = true) ∧
      Pattern.IsBlankless pattern ∧ Undenied surroundings context pattern ∧
      ¬ AsksForLongLine context pattern ∧
      ∃ line arguments letters,
        commandLine surroundings context pattern = .ok line ∧
        Context.arguments surroundings context pattern = .ok arguments ∧
        words? line = some arguments ∧
        letters? line = some letters ∧
        List.Forall₂ (Spells surroundings context) (Token.listOfText .ordinary pattern)
          letters := by
  intro surroundings context pattern
  have unquoted : ∀ character ∈ pattern, character ≠ '\'' ∧ character ≠ '"' := by decide
  have named : ∀ placeholder ∈ (Pattern.ofText pattern).placeholders,
      placeholder.contextName?.isSome = true := by decide +kernel
  have blankless : Pattern.IsBlankless pattern := by decide +kernel
  have undenied := undenied_ofDirectories "/home/me" [Path.ofText "/tmp/{file} $x"] context pattern
  have short : ¬ AsksForLongLine context pattern :=
    not_asksForLongLine_of_hasShortLine (by decide +kernel) pattern
  exact ⟨unquoted, named, blankless, undenied, short,
    (words?_commandLine surroundings context pattern unquoted named blankless undenied).1 short⟩

end VerbExpansion.Context
