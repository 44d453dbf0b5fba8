import VerbExpansion.Proofs.Expansion.Order
import VerbExpansion.Proofs.Token.Breakage

/-!
# The selected path in a command line

The selected path is written into a command line as a shell word, and the line is cut and joined again
with the word in it. The word comes out whole of every pattern exactly for the paths that are
resilient (`forall_keepsSelectedPath_iff`), and for every path of a pattern whose quotes do no more
than enclose its tokens (`keepsSelectedPath_of_quotesEnclose`).
-/

namespace VerbExpansion

/-- A pattern says what stands around one of its gaps, too. -/
theorem Pattern.exists_filled_eq_append {pattern : Pattern} {placeholder : Placeholder}
    (member : placeholder ∈ pattern.placeholders) (texts : Placeholder → Text) :
    ∃ before after, pattern.filled texts = before ++ (texts placeholder ++ after) := by
  obtain ⟨before, after, rfl⟩ := List.append_of_mem (mem_placeholders_iff.1 member)
  exact ⟨filled texts before, filled texts after, by rw [filled_append, filled_cons]; rfl⟩

/-- Texts without braces stay as they are around a gap. -/
theorem Pattern.filled_ofText_around {before after : Text} {placeholder : Placeholder}
    (writable : placeholder.IsWritable) (beforeNoBrace : .scalar '{' ∉ before)
    (afterNoBrace : .scalar '{' ∉ after) (texts : Placeholder → Text) :
    (ofText (before ++ (placeholder.source ++ after))).filled texts =
      before ++ (texts placeholder ++ after) := by
  have literals : ∀ text : Text, filled texts (text.map .literal) = text := by
    intro text
    rw [filled, List.flatMap_map]
    exact List.flatMap_singleton' text
  have afterPieces : ofText after = after.map .literal := by
    have pieces := ofText_append_of_notMem afterNoBrace []
    rwa [ofText_nil, List.append_nil, List.append_nil] at pieces
  rw [ofText_append_of_notMem beforeNoBrace, ofText_source_append writable, afterPieces,
    filled_append, filled_cons, literals, literals]
  rfl

namespace Context

variable {surroundings : Surroundings} {context : Context} {pattern : Text}

/-- Whether a pattern names the selected path. -/
def NamesSelectedPath (pattern : Text) : Prop :=
  ∃ placeholder ∈ (Pattern.ofText pattern).placeholders, placeholder.contextName? = some .file

/-- Whether there is a command line, and the selected path stands in it as it is written for a
shell. -/
def KeepsSelectedPath (surroundings : Surroundings) (context : Context) (pattern : Text) : Prop :=
  ∃ line, commandLine surroundings context pattern = .ok line ∧
    Shell.quote context.selection.path.text <:+: line

theorem text_eq_quote {placeholder : Placeholder} (named : placeholder.contextName? = some .file) :
    (filling? surroundings context .shellWord).text placeholder =
      Shell.quote context.selection.path.text := by
  have written : filling? surroundings context .shellWord placeholder =
      .ok (some (Shell.quote context.selection.path.text)) := by
    simp only [filling?, named]
    rfl
  rw [Filling.text_eq_getD written]
  rfl

/-- The shell word of a resilient path is never broken. -/
theorem keepsSelectedPath_of_isResilient (resilient : Token.IsResilient context.selection.path.text)
    (named : NamesSelectedPath pattern) (undenied : Undenied surroundings context pattern)
    (short : ¬ AsksForLongLine context pattern) :
    KeepsSelectedPath surroundings context pattern := by
  obtain ⟨placeholder, member, named⟩ := named
  refine ⟨_, commandLine_eq_ok undenied short, ?_⟩
  obtain ⟨before, after, filled⟩ := Pattern.exists_filled_eq_append member
    (filling? surroundings context .shellWord).text
  rw [filled, text_eq_quote named]
  exact resilient.isUnbroken_quote.infix_joined before after

/-- The placeholder for the selected path. -/
def selectedPath : Placeholder :=
  { name := ContextName.file.text }

theorem isWritable_selectedPath : selectedPath.IsWritable :=
  ⟨⟨by decide, by decide⟩, fun _ written => by cases written⟩

theorem contextName?_selectedPath : selectedPath.contextName? = some .file :=
  ContextName.ofText?_text .file

/-- The shell word of any other path is broken in some pattern. -/
theorem exists_not_keepsSelectedPath {path : Path} (fragile : ¬ Token.IsResilient path.text) :
    ∃ pattern, NamesSelectedPath pattern ∧ ∀ surroundings context,
      context.selection.path = path → Undenied surroundings context pattern →
        ¬ AsksForLongLine context pattern → ¬ KeepsSelectedPath surroundings context pattern := by
  obtain ⟨before, after, beforeNoBrace, afterNoBrace, broken⟩ :=
    Token.exists_not_infix_joined fragile
  have filled := Pattern.filled_ofText_around isWritable_selectedPath beforeNoBrace afterNoBrace
  refine ⟨before ++ (selectedPath.source ++ after),
    ⟨selectedPath, ?_, contextName?_selectedPath⟩, ?_⟩
  · rw [Pattern.ofText_append_of_notMem beforeNoBrace,
      Pattern.ofText_source_append isWritable_selectedPath, Pattern.mem_placeholders_iff]
    simp
  · rintro surroundings context rfl undenied short ⟨line, expanded, kept⟩
    rw [commandLine_eq_ok undenied short, filled] at expanded
    cases expanded
    rw [text_eq_quote contextName?_selectedPath] at kept
    exact broken kept

/-- Where the quotes of a pattern do no more than enclose its tokens, no path is broken. -/
theorem keepsSelectedPath_of_quotesEnclose (named : NamesSelectedPath pattern)
    (undenied : Undenied surroundings context pattern) (short : ¬ AsksForLongLine context pattern)
    (quotes : Token.QuotesEnclose pattern) (blankless : Pattern.IsBlankless pattern)
    (untyped : ∀ placeholder ∈ (Pattern.ofText pattern).placeholders,
      placeholder.contextName? = none → context.value? placeholder.name = none) :
    KeepsSelectedPath surroundings context pattern := by
  obtain ⟨placeholder, member, named⟩ := named
  obtain ⟨token, inTokens, inToken⟩ := Token.exists_mem_placeholders_value blankless member
  obtain ⟨before, after, filled⟩ := Pattern.exists_filled_eq_append inToken
    (filling? surroundings context .shellWord).text
  refine ⟨_, commandLine_eq_spaced_filled quotes blankless untyped undenied short, ?_⟩
  refine List.IsInfix.trans ⟨before, after, ?_⟩
    (Text.infix_spaced_of_mem (List.mem_map_of_mem inTokens))
  rw [filled, text_eq_quote named, List.append_assoc]

/-- The selected path is kept in every pattern exactly when it is resilient, and whatever the path, it
is kept in a pattern whose quotes do no more than enclose its tokens, where nothing typed is filled
in. Both are about patterns that become a command line: no lookup is denied, and no line is too long. -/
theorem forall_keepsSelectedPath_iff (path : Path) :
    ((∀ surroundings context pattern, context.selection.path = path → NamesSelectedPath pattern →
        Undenied surroundings context pattern → ¬ AsksForLongLine context pattern →
        KeepsSelectedPath surroundings context pattern) ↔
      Token.IsResilient path.text) ∧
    ∀ surroundings context pattern, context.selection.path = path → NamesSelectedPath pattern →
      Undenied surroundings context pattern → ¬ AsksForLongLine context pattern →
      Token.QuotesEnclose pattern → Pattern.IsBlankless pattern →
      (∀ placeholder ∈ (Pattern.ofText pattern).placeholders,
        placeholder.contextName? = none → context.value? placeholder.name = none) →
      KeepsSelectedPath surroundings context pattern := by
  refine ⟨⟨fun kept => ?_, ?_⟩, ?_⟩
  · by_cases resilient : Token.IsResilient path.text
    · exact resilient
    · obtain ⟨pattern, named, broken⟩ := exists_not_keepsSelectedPath resilient
      let context : Context := { selection := { path } }
      have undenied := undenied_ofDirectories [] [] context pattern
      have oneDigit : context.selection.hasShortLine = true :=
        decide_eq_true (show (Text.ofNatural 0).length ≤ Text.longestNumeral by decide)
      have short := not_asksForLongLine_of_hasShortLine oneDigit pattern
      exact absurd (kept _ context pattern rfl named undenied short)
        (broken _ context rfl undenied short)
  · rintro resilient surroundings context pattern rfl named undenied short
    exact keepsSelectedPath_of_isResilient resilient named undenied short
  · rintro surroundings context pattern rfl named undenied short quotes blankless untyped
    exact keepsSelectedPath_of_quotesEnclose named undenied short quotes blankless untyped

/-- A resilient path with quotes and spaces in it, behind a quote of the pattern. -/
theorem keepsSelectedPath_of_lone_spaces :
    let surroundings := Surroundings.ofDirectories "/home/me" []
    let context : Context := { selection := { path := Path.ofText "/tmp/it's 1\" wide" } }
    let pattern : Text := "it's {file}"
    Token.IsResilient context.selection.path.text ∧ NamesSelectedPath pattern ∧
      Undenied surroundings context pattern ∧ ¬ AsksForLongLine context pattern ∧
      KeepsSelectedPath surroundings context pattern := by
  intro surroundings context pattern
  have resilient : Token.IsResilient context.selection.path.text := by decide +kernel
  have named : NamesSelectedPath pattern :=
    ⟨selectedPath, by decide +kernel, contextName?_selectedPath⟩
  have undenied := undenied_ofDirectories "/home/me" [] context pattern
  have short : ¬ AsksForLongLine context pattern :=
    not_asksForLongLine_of_hasShortLine (by decide +kernel) pattern
  exact ⟨resilient, named, undenied, short,
    (forall_keepsSelectedPath_iff _).1.2 resilient surroundings context pattern rfl named undenied
      short⟩

/-- An apostrophe in front of the placeholder makes two spaces of the path one. -/
theorem not_keepsSelectedPath_of_apostrophe :
    let surroundings := Surroundings.ofDirectories "/home/me" []
    let context : Context := { selection := { path := Path.ofText "/a  b" } }
    let pattern : Text := "it's {file}"
    NamesSelectedPath pattern ∧ Undenied surroundings context pattern ∧
      commandLine surroundings context pattern = .ok "it's '/a b'" ∧
      ¬ KeepsSelectedPath surroundings context pattern := by
  intro surroundings context pattern
  have line : commandLine surroundings context pattern = .ok "it's '/a b'" := by decide +kernel
  refine ⟨⟨selectedPath, by decide +kernel, contextName?_selectedPath⟩,
    undenied_ofDirectories _ _ _ _, line, ?_⟩
  rintro ⟨kept, expanded, infixOf⟩
  rw [line] at expanded
  cases expanded
  exact absurd infixOf (by decide +kernel)

end Context

end VerbExpansion
