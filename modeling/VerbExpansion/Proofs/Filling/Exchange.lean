import VerbExpansion.Proofs.Filling.Text
import VerbExpansion.Proofs.Token.Passage

/-!
# Filling and cutting in either order

A command line is filled and then cut. Where the quotes of the pattern do no more than enclose
tokens, where no placeholder holds a blank, and where what fills the placeholders is sealed, the
pattern may as well be cut first and its tokens filled one by one (`map_value_listOfText_filled`).
-/

namespace VerbExpansion

/-- What a token covers, but for the double quotes that enclose it. -/
def Token.inside : Token → Text
  | bare text => text
  | quoted inner => inner
  | unclosed rest => rest

namespace Pattern

variable {texts : Placeholder → Text}

/-- The character is one that passes in a pattern as it does in any text. -/
def IsUnquoted (character : Character) : Prop :=
  character ≠ '\'' ∧ character ≠ '"'

/-- What fills the placeholders of a text passes inside a quoted part, and so does the text. -/
theorem passesQuoted_filled {text : Text} (unquoted : ∀ character ∈ text, IsUnquoted character)
    (isSealed : ∀ placeholder ∈ (ofText text).placeholders, Token.IsSealed (texts placeholder)) :
    Token.PassesQuoted .paired ((ofText text).filled texts) := by
  refine Token.passesQuoted_flatMap fun piece member => ?_
  cases piece with
  | literal character =>
    obtain ⟨notSingle, notDouble⟩ := unquoted character (mem_of_literal_mem member)
    exact Token.passesQuoted_singleton notSingle notDouble
  | gap placeholder => exact (isSealed placeholder (mem_placeholders_iff.2 member)).quoted

/-- What fills the placeholders of a text passes in a bare token, and so does a text without
blanks. -/
theorem passesBare_filled {text : Text} (unquoted : ∀ character ∈ text, IsUnquoted character)
    (blankless : ∀ character ∈ text, Text.isBlank character = false)
    (isSealed : ∀ placeholder ∈ (ofText text).placeholders, Token.IsSealed (texts placeholder)) :
    Token.PassesBare .paired ((ofText text).filled texts) := by
  refine Token.passesBare_flatMap fun piece member => ?_
  cases piece with
  | literal character =>
    have inText := mem_of_literal_mem member
    obtain ⟨notSingle, notDouble⟩ := unquoted character inText
    exact Token.passesBare_singleton (blankless character inText) notSingle notDouble
  | gap placeholder => exact (isSealed placeholder (mem_placeholders_iff.2 member)).bare

/-- A text without blanks and quotes starts a bare token, filled or not. -/
theorem exists_filled_eq_cons {text : Text} (notEmpty : text ≠ [])
    (unquoted : ∀ character ∈ text, IsUnquoted character)
    (blankless : ∀ character ∈ text, Text.isBlank character = false)
    (isSealed : ∀ placeholder ∈ (ofText text).placeholders, Token.IsSealed (texts placeholder)) :
    ∃ first rest, (ofText text).filled texts = first :: rest ∧
      Text.isBlank first = false ∧ first ≠ '"' := by
  cases pieces : ofText text with
  | nil =>
    have spelled := source_ofText text
    rw [pieces] at spelled
    exact absurd spelled.symm notEmpty
  | cons piece pattern =>
    have member : piece ∈ ofText text := by simp [pieces]
    cases piece with
    | literal character =>
      have inText := mem_of_literal_mem member
      exact ⟨character, filled texts pattern, rfl, blankless character inText,
        (unquoted character inText).2⟩
    | gap placeholder =>
      obtain ⟨first, rest, spelled, notBlank, notQuote⟩ :=
        (isSealed placeholder (mem_placeholders_iff.2 member)).starts
      refine ⟨first, rest ++ filled texts pattern, ?_, notBlank, notQuote⟩
      rw [filled_cons, Piece.filled, spelled, List.cons_append]

/-- The placeholders of a text hold no blank. -/
def IsBlankless (text : Text) : Prop :=
  ∀ placeholder ∈ (ofText text).placeholders, ∀ character ∈ placeholder.source,
    Text.isBlank character = false

instance (text : Text) : Decidable (IsBlankless text) :=
  inferInstanceAs (Decidable (∀ placeholder ∈ (ofText text).placeholders,
    ∀ character ∈ placeholder.source, Text.isBlank character = false))

theorem IsBlankless.of_isInfix {part text : Text} (blankless : IsBlankless text)
    (infixOf : part <:+: text) : IsBlankless part :=
  fun placeholder member => blankless placeholder (placeholders_subset_of_isInfix infixOf member)

/-- A placeholder without blanks does not go across the end of a token. -/
theorem ofText_append_of_endsHere {before after : Text} (blankless : IsBlankless (before ++ after))
    (ends : Token.endsHere after = true) :
    ofText (before ++ after) = ofText before ++ ofText after := by
  refine ofText_append fun placeholder member inside infixOf suffixOf _ => ?_
  cases inside with
  | nil => rfl
  | cons first inside =>
    obtain ⟨rest, rfl⟩ := infixOf
    have notBlank := blankless placeholder member first (suffixOf.subset List.mem_cons_self)
    exact absurd (notBlank.symm.trans ends) Bool.false_ne_true

/-- A placeholder without blanks does not go across a closing quote. -/
theorem ofText_append_of_closing {before after : Text}
    (blankless : IsBlankless (before ++ .scalar '"' :: after))
    (ends : Token.endsHere after = true) :
    ofText (before ++ .scalar '"' :: after) = ofText before ++ ofText (.scalar '"' :: after) := by
  refine ofText_append fun placeholder member inside infixOf suffixOf _ => ?_
  match inside with
  | [] => rfl
  | [first] =>
    -- A placeholder ends with a brace and not with a quote.
    have brace := Placeholder.eq_of_singleton_suffix_source suffixOf
    obtain ⟨rest, infixOf⟩ := infixOf
    rw [brace] at infixOf
    exact absurd (List.cons.inj infixOf).1 (by decide)
  | first :: second :: inside =>
    obtain ⟨rest, infixOf⟩ := infixOf
    obtain ⟨_, rfl⟩ := List.cons.inj infixOf
    have notBlank := blankless placeholder member second
      (suffixOf.subset (List.mem_cons_of_mem _ List.mem_cons_self))
    exact absurd (notBlank.symm.trans ends) Bool.false_ne_true

/-- What fills the rest of a text starts with a blank where the text does. -/
theorem endsHere_filled {text : Text} (ends : Token.endsHere text = true) :
    Token.endsHere ((ofText text).filled texts) = true := by
  cases text with
  | nil => simp [Token.endsHere]
  | cons first rest =>
    have noBrace : first ≠ '{' := Text.ne_of_isBlank ends rfl
    rw [ofText_cons noBrace]
    exact ends

end Pattern

namespace Token

variable {texts : Placeholder → Text}

open Pattern

/-- The quotes of a text do no more than enclose its tokens: no quote is a single one, and each
double quote opens a token or closes one. -/
structure QuotesEnclose (text : Text) : Prop where
  noSingle : .scalar '\'' ∉ text
  enclosing : ∀ token ∈ listOfText .ordinary text, .scalar '"' ∉ token.inside

instance (text : Text) : Decidable (QuotesEnclose text) :=
  decidable_of_iff (.scalar '\'' ∉ text ∧
      ∀ token ∈ listOfText .ordinary text, .scalar '"' ∉ token.inside)
    ⟨fun conditions => ⟨conditions.1, conditions.2⟩, fun quotes => ⟨quotes.1, quotes.2⟩⟩

theorem inside_infix_source (token : Token) : token.inside <:+: token.source := by
  cases token with
  | bare text => exact List.infix_refl text
  | quoted inner => exact ⟨[.scalar '"'], [.scalar '"'], rfl⟩
  | unclosed rest => exact (List.suffix_cons _ _).isInfix

/-- There are no quotes inside the tokens of such a text. -/
theorem QuotesEnclose.isUnquoted {text : Text} (quotes : QuotesEnclose text) {token : Token}
    (member : token ∈ listOfText .ordinary text) :
    ∀ character ∈ token.inside, IsUnquoted character := by
  intro character inToken
  constructor
  · rintro rfl
    exact quotes.noSingle
      ((token.inside_infix_source.trans (source_infix_of_mem member)).subset inToken)
  · rintro rfl
    exact quotes.enclosing token member inToken

/-! ## From token to token -/

/-- A text that is cut, token for token, without a cut through a placeholder: the pieces of the text are
those of its tokens. -/
inductive CutsBetweenPieces : Text → Prop where
  | nil : CutsBetweenPieces []
  | blank {character : Character} {rest : Text} (isBlank : Text.isBlank character = true)
      (pieces : ofText (character :: rest) = .literal character :: ofText rest)
      (restCuts : CutsBetweenPieces rest) : CutsBetweenPieces (character :: rest)
  | quoted {inner left : Text} (ends : endsHere left = true)
      (tokens : listOfText .ordinary (.scalar '"' :: (inner ++ .scalar '"' :: left)) =
        quoted inner :: listOfText .ordinary left)
      (pieces : ofText (.scalar '"' :: (inner ++ .scalar '"' :: left)) =
        .literal '"' :: (ofText inner ++ .literal '"' :: ofText left))
      (leftCuts : CutsBetweenPieces left) :
      CutsBetweenPieces (.scalar '"' :: (inner ++ .scalar '"' :: left))
  | unclosed {rest : Text} (tokens : listOfText .ordinary (.scalar '"' :: rest) = [unclosed rest])
      (pieces : ofText (.scalar '"' :: rest) = .literal '"' :: ofText rest) :
      CutsBetweenPieces (.scalar '"' :: rest)
  | bare {word left : Text} (notEmpty : word ≠ [])
      (noBlank : ∀ character ∈ word, Text.isBlank character = false) (ends : endsHere left = true)
      (tokens : listOfText .ordinary (word ++ left) = bare word :: listOfText .ordinary left)
      (pieces : ofText (word ++ left) = ofText word ++ ofText left)
      (leftCuts : CutsBetweenPieces left) : CutsBetweenPieces (word ++ left)

/-- No cut goes through a placeholder without blanks. -/
theorem cutsBetweenPieces_of_isBlankless {text : Text} (blankless : IsBlankless text) :
    CutsBetweenPieces text := by
  induction text using listOfText.induct .ordinary with
  | case1 => exact .nil
  | case2 character rest isBlank inductionHypothesis =>
    have noBrace : character ≠ '{' := Text.ne_of_isBlank isBlank rfl
    have restBlankless := blankless.of_isInfix (List.suffix_cons _ _).isInfix
    exact .blank isBlank (ofText_cons noBrace rest) (inductionHypothesis restBlankless)
  | case3 character rest _ isQuote inner left closed _ inductionHypothesis =>
    obtain rfl : character = .scalar '"' := by simpa using isQuote
    have ends := endsHere_of_closeQuoted? closed
    have tokens := listOfText_cons_of_closeQuoted? closed
    obtain rfl := eq_append_of_closeQuoted? closed
    have restBlankless := blankless.of_isInfix (List.suffix_cons _ _).isInfix
    have leftBlankless : IsBlankless left :=
      restBlankless.of_isInfix ⟨inner ++ [.scalar '"'], [], by simp⟩
    refine .quoted ends tokens ?_ (inductionHypothesis leftBlankless)
    rw [ofText_cons (by decide), ofText_append_of_closing restBlankless ends,
      ofText_cons (by decide)]
  | case4 character rest _ isQuote opened =>
    obtain rfl : character = .scalar '"' := by simpa using isQuote
    exact .unclosed (listOfText_cons_of_not_closeQuoted? opened) (ofText_cons (by decide) rest)
  | case5 character rest notBlank notQuote taken left split _ inductionHypothesis =>
    have isText : Text.isBlank character = false := by simpa using notBlank
    have cut := takeBare_of_bareRun? isText split
    have ends := endsHere_of_takeBare cut
    have tokens := listOfText_cons_of_takeBare isText (by simpa using notQuote) cut
    have spelled := eq_append_of_takeBare cut
    rw [spelled] at blankless tokens ⊢
    refine .bare (List.cons_ne_nil _ _) (not_isBlank_of_takeBare cut) ends tokens
      (ofText_append_of_endsHere blankless ends) ?_
    exact inductionHypothesis (blankless.of_isInfix (List.suffix_append _ _).isInfix)

/-- Every placeholder of a text stands in one of its tokens. -/
theorem exists_mem_placeholders_value {text : Text} (blankless : IsBlankless text)
    {placeholder : Placeholder} (member : placeholder ∈ (ofText text).placeholders) :
    ∃ token ∈ listOfText .ordinary text, placeholder ∈ (ofText token.value).placeholders := by
  have cuts := cutsBetweenPieces_of_isBlankless blankless
  clear blankless
  rw [mem_placeholders_iff] at member
  simp only [mem_placeholders_iff]
  induction cuts with
  | nil => simp at member
  | blank isBlank pieces _ inductionHypothesis =>
    rw [pieces] at member
    rw [listOfText_cons_of_isBlank isBlank]
    exact inductionHypothesis ((List.mem_cons.1 member).resolve_left (by simp))
  | @quoted inner left _ tokens pieces _ inductionHypothesis =>
    have inParts : .gap placeholder ∈ ofText inner ∨ .gap placeholder ∈ ofText left := by
      simpa [pieces] using member
    rw [tokens]
    rcases inParts with inInner | inLeft
    · exact ⟨quoted inner, List.mem_cons_self, inInner⟩
    · obtain ⟨token, inTokens, inToken⟩ := inductionHypothesis inLeft
      exact ⟨token, List.mem_cons_of_mem _ inTokens, inToken⟩
  | unclosed tokens pieces =>
    rw [tokens]
    exact ⟨_, List.mem_cons_self, member⟩
  | @bare word left _ _ _ tokens pieces _ inductionHypothesis =>
    rw [pieces] at member
    rw [tokens]
    rcases List.mem_append.1 member with inWord | inLeft
    · exact ⟨bare word, List.mem_cons_self, inWord⟩
    · obtain ⟨token, inTokens, inToken⟩ := inductionHypothesis inLeft
      exact ⟨token, List.mem_cons_of_mem _ inTokens, inToken⟩

/-- Filling a text and cutting what comes out gives the tokens of the text, filled one by one. -/
theorem map_value_listOfText_filled {text : Text} (quotes : QuotesEnclose text)
    (blankless : IsBlankless text)
    (isSealed : ∀ placeholder ∈ (ofText text).placeholders,
      .scalar '"' ∉ placeholder.source → IsSealed (texts placeholder)) :
    (listOfText .paired ((ofText text).filled texts)).map value =
      (listOfText .ordinary text).map fun token => (ofText token.value).filled texts := by
  -- What is inside of a token of the text is sealed.
  have insideSealed : ∀ token ∈ listOfText .ordinary text,
      ∀ placeholder ∈ (ofText token.inside).placeholders, IsSealed (texts placeholder) := by
    intro token member placeholder inToken
    have infixOf := token.inside_infix_source.trans (source_infix_of_mem member)
    refine isSealed placeholder (placeholders_subset_of_isInfix infixOf inToken) fun inSource => ?_
    exact (quotes.isUnquoted member _
      ((mem_placeholders_ofText_iff.1 inToken).2.subset inSource)).2 rfl
  have unquoted := fun token (member : token ∈ listOfText .ordinary text) =>
    quotes.isUnquoted member
  have cuts := cutsBetweenPieces_of_isBlankless blankless
  clear quotes isSealed blankless
  induction cuts with
  | nil => simp
  | blank isBlank pieces _ inductionHypothesis =>
    rw [listOfText_cons_of_isBlank isBlank] at insideSealed unquoted ⊢
    rw [pieces, filled_cons]
    exact (congrArg _ (listOfText_cons_of_isBlank isBlank)).trans
      (inductionHypothesis insideSealed unquoted)
  | @quoted inner left ends tokens pieces _ inductionHypothesis =>
    rw [tokens, List.forall_mem_cons] at insideSealed unquoted
    have passes : PassesQuoted .paired (filled texts (ofText inner)) :=
      passesQuoted_filled unquoted.1 insideSealed.1
    rw [tokens, pieces]
    simp only [filled_cons, filled_append, Piece.filled, List.singleton_append, List.map_cons]
    rw [listOfText_append_of_passesQuoted passes (endsHere_filled ends), List.map_cons,
      inductionHypothesis insideSealed.2 unquoted.2]
    rfl
  | unclosed tokens pieces =>
    rw [tokens, List.forall_mem_singleton] at insideSealed unquoted
    rw [tokens, List.map_singleton, value, pieces, filled_cons]
    exact congrArg _ (listOfText_of_passesQuoted (passesQuoted_filled unquoted insideSealed))
  | @bare word left notEmpty noBlank ends tokens pieces _ inductionHypothesis =>
    rw [tokens, List.forall_mem_cons] at insideSealed unquoted
    have passes : PassesBare .paired (filled texts (ofText word)) :=
      passesBare_filled unquoted.1 noBlank insideSealed.1
    obtain ⟨first, more, starts, firstText, notDouble⟩ :=
      exists_filled_eq_cons notEmpty unquoted.1 noBlank insideSealed.1
    rw [tokens, pieces, filled_append, List.map_cons, value]
    rw [starts] at passes ⊢
    rw [listOfText_append_of_passesBare firstText notDouble passes (endsHere_filled ends),
      List.map_cons, inductionHypothesis insideSealed.2 unquoted.2, value]

end Token

end VerbExpansion
