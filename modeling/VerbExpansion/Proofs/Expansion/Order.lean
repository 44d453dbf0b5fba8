import VerbExpansion.Proofs.Expansion.Lookups
import VerbExpansion.Proofs.Filling.Exchange

/-!
# Command lines cut before they are filled

A command line is filled first and cut afterwards, so that a path in it is cut again. This makes no
difference where the quotes of the pattern do no more than enclose its tokens
(`commandLine_eq_spaced_fillTokens`), whatever quotes and blanks the paths hold: what a name that is
set aside stands for is sealed.
-/

namespace VerbExpansion

/-- A placeholder without blanks and quotes is sealed as it is written. -/
theorem Placeholder.isSealed_source {placeholder : Placeholder}
    (blankless : ∀ character ∈ placeholder.source, Text.isBlank character = false)
    (noSingle : .scalar '\'' ∉ placeholder.source) (noDouble : .scalar '"' ∉ placeholder.source) :
    Token.IsSealed placeholder.source := by
  refine Token.isSealed_of_isBare ⟨placeholder.source_ne_nil, fun character member => ?_⟩
  refine ⟨blankless character member, ?_, ?_⟩
  · rintro rfl
    exact noSingle member
  · rintro rfl
    exact noDouble member

namespace Context

variable {surroundings : Surroundings} {context : Context}

/-- What is written for a name that is set aside is sealed in a line for a shell. -/
theorem Referent.isSealed_of_write? {referent : Referent} {text : Text}
    (written : referent.write? .shellWord = some text) : Token.IsSealed text := by
  cases referent with
  | place path =>
    cases written
    exact Token.isSealed_quote path.text
  | lineNumber number =>
    cases written
    exact Token.isSealed_of_isBare (Shell.isBare_of_isPlain (Text.ofInteger_ne_nil number)
      fun _ member => Text.isPlain_of_mem_ofInteger member)
  | absent => cases written

/-- What a placeholder stands for is sealed in a line for a shell, unless it was typed. -/
theorem isSealed_text {placeholder : Placeholder}
    (answerable : IsAnswerable surroundings context placeholder)
    (untyped : placeholder.contextName? = none → context.value? placeholder.name = none)
    (sourceSealed : Token.IsSealed placeholder.source) :
    Token.IsSealed ((filling? surroundings context .shellWord).text placeholder) := by
  cases named : placeholder.contextName? with
  | some name =>
    obtain ⟨referent, written⟩ := exists_referent named answerable
    rw [Filling.text_eq_getD (written .shellWord)]
    cases text : referent.write? .shellWord with
    | none => exact sourceSealed
    | some text => exact Referent.isSealed_of_write? ‹_›
  | none =>
    have unanswered : filling? surroundings context .shellWord placeholder = .ok none := by
      simp only [filling?, named, untyped named]
    rw [Filling.text_eq_getD unanswered]
    exact sourceSealed

/-- The tokens of a command line are those of the pattern, filled one by one. -/
theorem commandLine_eq_spaced_filled {pattern : Text} (quotes : Token.QuotesEnclose pattern)
    (blankless : Pattern.IsBlankless pattern)
    (untyped : ∀ placeholder ∈ (Pattern.ofText pattern).placeholders,
      placeholder.contextName? = none → context.value? placeholder.name = none)
    (undenied : Undenied surroundings context pattern) (short : ¬ AsksForLongLine context pattern) :
    commandLine surroundings context pattern =
      .ok (Text.spaced ((Token.listOfText .ordinary pattern).map fun token =>
        (Pattern.ofText token.value).filled (filling? surroundings context .shellWord).text)) := by
  have eachSealed : ∀ placeholder ∈ (Pattern.ofText pattern).placeholders,
      .scalar '"' ∉ placeholder.source →
        Token.IsSealed ((filling? surroundings context .shellWord).text placeholder) := by
    intro placeholder member noDouble
    have inPattern := (Pattern.mem_placeholders_ofText_iff.1 member).2
    refine isSealed_text (isAnswerable_of_undenied undenied short member) (untyped placeholder member) ?_
    exact Placeholder.isSealed_source (blankless placeholder member)
      (fun single => quotes.noSingle (inPattern.subset single)) noDouble
  rw [commandLine_eq_ok undenied short, Token.joined,
    Token.map_value_listOfText_filled quotes blankless eachSealed]

/-- Where no lookup is denied there are no arguments when the line is too long and no placeholder is
cut. -/
theorem arguments_eq_oversizedLine {pattern : Text} (blankless : Pattern.IsBlankless pattern)
    (undenied : Undenied surroundings context pattern) (long : AsksForLongLine context pattern)
    (style : PathStyle) :
    Filling.arguments (filling? surroundings context style) pattern = .error .oversizedLine := by
  obtain ⟨isLong, placeholder, member, named⟩ := long
  obtain ⟨token, isToken, inToken⟩ := Token.exists_mem_placeholders_value blankless member
  refine eq_oversizedLine_of_settled (Filling.settled_arguments pattern) (fun other inTokens => ?_)
    isLong (List.mem_flatMap.2 ⟨token, isToken, inToken⟩) named
  obtain ⟨around, isAround, inAround⟩ := List.mem_flatMap.1 inTokens
  exact undenied other
    (Pattern.placeholders_subset_of_isInfix (Token.value_infix_of_mem isAround) inAround)

/-- Cutting a pattern first and filling its tokens one by one gives the command line, where the
quotes of the pattern do no more than enclose its tokens. When the pattern asks for a line that is too
long to be written, there is neither. -/
theorem commandLine_eq_spaced_fillTokens (surroundings : Surroundings) (context : Context)
    (pattern : Text) (quotes : Token.QuotesEnclose pattern)
    (blankless : Pattern.IsBlankless pattern)
    (untyped : ∀ placeholder ∈ (Pattern.ofText pattern).placeholders,
      placeholder.contextName? = none → context.value? placeholder.name = none)
    (undenied : Undenied surroundings context pattern) :
    (¬ AsksForLongLine context pattern →
      ∃ tokens,
        Filling.fillTokens (filling? surroundings context .shellWord)
          (Token.listOfText .ordinary pattern) = .ok tokens ∧
        commandLine surroundings context pattern = .ok (Text.spaced tokens)) ∧
    (AsksForLongLine context pattern →
      Filling.fillTokens (filling? surroundings context .shellWord)
        (Token.listOfText .ordinary pattern) = .error .oversizedLine ∧
      commandLine surroundings context pattern = .error .oversizedLine) := by
  refine ⟨fun short => ?_, fun long => ?_⟩
  · have answers := answers_of_undenied undenied short .shellWord
    exact ⟨_, Filling.arguments_eq_ok answers,
      commandLine_eq_spaced_filled quotes blankless untyped undenied short⟩
  · exact ⟨arguments_eq_oversizedLine blankless undenied long .shellWord,
      commandLine_eq_oversizedLine undenied long⟩

/-- A path with quotes and blanks in it, and a quoted part that is never closed. -/
theorem commandLine_of_unclosed_pattern :
    let surroundings := Surroundings.ofDirectories "/home/me" []
    let context : Context :=
      { selection := { path := Path.ofText "/tmp/it's \"a\"  b\" c" }, values := some [] }
    let pattern : Text := "xterm -e \"kak {file}\" \"{line} {file}  {name} +"
    Token.QuotesEnclose pattern ∧ Pattern.IsBlankless pattern ∧
      (∀ placeholder ∈ (Pattern.ofText pattern).placeholders,
        placeholder.contextName? = none → context.value? placeholder.name = none) ∧
      Undenied surroundings context pattern ∧ ¬ AsksForLongLine context pattern ∧
      ∃ tokens,
        Filling.fillTokens (filling? surroundings context .shellWord)
          (Token.listOfText .ordinary pattern) = .ok tokens ∧
        commandLine surroundings context pattern = .ok (Text.spaced tokens) := by
  intro surroundings context pattern
  have quotes : Token.QuotesEnclose pattern := by decide +kernel
  have blankless : Pattern.IsBlankless pattern := by decide +kernel
  have untyped : ∀ placeholder ∈ (Pattern.ofText pattern).placeholders,
      placeholder.contextName? = none → context.value? placeholder.name = none := by
    decide +kernel
  have undenied := undenied_ofDirectories "/home/me" [] context pattern
  have short : ¬ AsksForLongLine context pattern :=
    not_asksForLongLine_of_hasShortLine (by decide +kernel) pattern
  exact ⟨quotes, blankless, untyped, undenied, short,
    (commandLine_eq_spaced_fillTokens surroundings context pattern quotes blankless untyped
      undenied).1 short⟩

end Context

end VerbExpansion
