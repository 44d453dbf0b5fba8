import VerbExpansion.Proofs.Token.Cut

/-!
# How a text is laid out in tokens

The cut of a text into tokens loses nothing: between what the tokens cover there are only blanks, and
some between any two of them (`IsLayout`). Where quotes inside a token mean nothing, three rules say
what a token is (`IsToken`), and a text is laid out by them in one way only, which is how it is cut
(`isLayout_listOfText_and_isCut_iff`).
-/

namespace VerbExpansion

namespace Token

/-! ## The rules -/

/-- A token as it is written, and the blanks that follow it. -/
structure Place where
  token : Text
  gap : Text

/-- The text that places make up. -/
def Place.text (places : List Place) : Text :=
  places.flatMap fun place => place.token ++ place.gap

/-- The text is leading blanks, and then one place after the other. -/
structure IsLayout (text leading : Text) (places : List Place) : Prop where
  spelled : text = leading ++ Place.text places
  leadingBlank : ∀ character ∈ leading, Text.isBlank character = true
  gapsBlank : ∀ place ∈ places, ∀ character ∈ place.gap, Text.isBlank character = true
  /-- No gap is empty but the last. -/
  separated : ∀ place ∈ places.dropLast, place.gap ≠ []
  starts : ∀ place ∈ places, ∃ first rest, place.token = first :: rest ∧ Text.isBlank first = false

/-- No double quote in the text closes a quoted part, when this follows the text. -/
def ClosesNothing (text following : Text) : Prop :=
  ∀ before after, text = before ++ .scalar '"' :: after → endsHere (after ++ following) = false

/-- What a token is, before this rest of the text. -/
inductive IsToken : (token following : Text) → Prop where
  /-- A word that no double quote opens. -/
  | bare {token following : Text} (blankless : ∀ character ∈ token, Text.isBlank character = false)
      (unquoted : token.head? ≠ some (.scalar '"')) : IsToken token following
  /-- All from a double quote to the first one after it that stands before a blank or at the end. -/
  | quoted {inner following : Text} (noneBefore : ClosesNothing inner (.scalar '"' :: following))
      (closes : endsHere following = true) :
      IsToken (.scalar '"' :: inner ++ [.scalar '"']) following
  /-- All from a double quote to the end of the text, when there is no such quote. -/
  | unclosed {rest : Text} (noneCloses : ClosesNothing rest []) : IsToken (.scalar '"' :: rest) []

/-- A layout in which every token is one by the rules. -/
structure IsCut (text leading : Text) (places : List Place) : Prop
    extends IsLayout text leading places where
  tokens : ∀ before place after, places = before ++ place :: after →
    IsToken place.token (place.gap ++ Place.text after)

/-! ## Closing quotes -/

theorem closesNothing_nil (following : Text) : ClosesNothing [] following := by
  intro before after spelled
  cases before <;> cases spelled

/-- A text closes nothing when its first character does not, and neither does what follows that. -/
theorem closesNothing_cons_iff {character : Character} {text following : Text} :
    ClosesNothing (character :: text) following ↔
      ¬ (character = '"' ∧ endsHere (text ++ following) = true) ∧ ClosesNothing text following := by
  constructor
  · intro closesNothing
    refine ⟨?_, fun before after spelled => ?_⟩
    · rintro ⟨rfl, ends⟩
      exact absurd ((closesNothing [] text rfl).symm.trans ends) Bool.false_ne_true
    · exact closesNothing (character :: before) after (congrArg (character :: ·) spelled)
  · rintro ⟨first, others⟩ before after spelled
    cases before with
    | nil =>
      obtain ⟨isQuote, rfl⟩ := List.cons.inj spelled
      exact Bool.eq_false_iff.2 fun ends => first ⟨isQuote, ends⟩
    | cons _ before => exact others before after (List.cons.inj spelled).2

/-- Where quotes mean nothing, nothing closes a quoted part exactly when no double quote does. -/
theorem closeQuoted?_eq_none_iff {text : Text} :
    closeQuoted? .ordinary none text = none ↔ ClosesNothing text [] := by
  induction text with
  | nil => exact ⟨fun _ => closesNothing_nil [], fun _ => rfl⟩
  | cons character text inductionHypothesis =>
    rw [closesNothing_cons_iff, List.append_nil]
    by_cases closing : character = '"' ∧ endsHere text = true
    · rw [closeQuoted?, if_pos (by simpa using closing)]
      constructor
      · intro found
        cases found
      · intro goesOn
        exact absurd closing goesOn.1
    · rw [closeQuoted?_of_not_closing closing, Option.map_eq_none_iff]
      exact inductionHypothesis.trans ⟨fun others => ⟨closing, others⟩, And.right⟩

/-- Where quotes mean nothing, a quoted part ends at the first double quote that closes it. -/
theorem closeQuoted?_eq_some_iff {text inner left : Text} :
    closeQuoted? .ordinary none text = some (inner, left) ↔
      text = inner ++ .scalar '"' :: left ∧ ClosesNothing inner (.scalar '"' :: left) ∧
        endsHere left = true := by
  constructor
  · intro closed
    refine ⟨eq_append_of_closeQuoted? closed, ?_, endsHere_of_closeQuoted? closed⟩
    induction text generalizing inner with
    | nil => cases closed
    | cons character text inductionHypothesis =>
      by_cases closing : character = '"' ∧ endsHere text = true
      · rw [closeQuoted?, if_pos (by simpa using closing)] at closed
        cases closed
        exact closesNothing_nil _
      · rw [closeQuoted?_of_not_closing closing] at closed
        obtain ⟨more, rfl, ended⟩ := exists_of_map_behind closed
        rw [eq_append_of_closeQuoted? ended] at closing
        exact closesNothing_cons_iff.2 ⟨closing, inductionHypothesis ended⟩
  · rintro ⟨rfl, noneBefore, closes⟩
    induction inner with
    | nil => rw [List.nil_append, closeQuoted?, if_pos (by simpa using closes)]
    | cons character inner inductionHypothesis =>
      obtain ⟨goesOn, noneBefore⟩ := closesNothing_cons_iff.1 noneBefore
      have closed := inductionHypothesis noneBefore
      rw [List.cons_append, closeQuoted?_of_not_closing goesOn]
      exact Option.map_eq_some_iff.2 ⟨_, closed, rfl⟩

/-! ## From the cut to the layout -/

@[simp] theorem Place.text_nil : Place.text [] = [] := rfl

@[simp] theorem Place.text_cons (place : Place) (places : List Place) :
    Place.text (place :: places) = place.token ++ (place.gap ++ Place.text places) := by
  simp [Place.text]

variable {text leading left : Text} {places : List Place}

theorem isLayout_of_isBlank (blank : ∀ character ∈ text, Text.isBlank character = true) :
    IsLayout text text [] where
  spelled := (List.append_nil text).symm
  leadingBlank := blank
  gapsBlank := by simp
  separated := by simp
  starts := by simp

theorem isCut_of_isBlank (blank : ∀ character ∈ text, Text.isBlank character = true) :
    IsCut text text [] where
  toIsLayout := isLayout_of_isBlank blank
  tokens := by simp

/-- One more leading blank. -/
theorem IsLayout.cons_blank (layout : IsLayout text leading places) {character : Character}
    (blank : Text.isBlank character = true) :
    IsLayout (character :: text) (character :: leading) places where
  spelled := congrArg (character :: ·) layout.spelled
  leadingBlank := List.forall_mem_cons.2 ⟨blank, layout.leadingBlank⟩
  gapsBlank := layout.gapsBlank
  separated := layout.separated
  starts := layout.starts

/-- Where a token must end, either a gap or nothing comes before the next one. -/
theorem IsLayout.leading_ne_nil (layout : IsLayout text leading places)
    (ends : endsHere text = true) (goesOn : places ≠ []) : leading ≠ [] := by
  rintro rfl
  obtain ⟨place, others, rfl⟩ := List.exists_cons_of_ne_nil goesOn
  obtain ⟨first, rest, token, notBlank⟩ := layout.starts place List.mem_cons_self
  rw [layout.spelled, List.nil_append, Place.text_cons, token] at ends
  exact absurd (notBlank.symm.trans ends) Bool.false_ne_true

/-- One more token in front, with the leading blanks as the gap behind it. -/
theorem IsLayout.cons_token (layout : IsLayout left leading places) (ends : endsHere left = true)
    {token : Text} (starts : ∃ first rest, token = first :: rest ∧ Text.isBlank first = false) :
    IsLayout (token ++ left) [] (⟨token, leading⟩ :: places) where
  spelled := by rw [layout.spelled, List.nil_append, Place.text_cons]
  leadingBlank := by simp
  gapsBlank := List.forall_mem_cons.2 ⟨layout.leadingBlank, layout.gapsBlank⟩
  separated := by
    intro place member
    cases places with
    | nil => simp at member
    | cons next others =>
      rcases List.mem_cons.1 member with rfl | member
      · exact layout.leading_ne_nil ends (List.cons_ne_nil _ _)
      · exact layout.separated place member
  starts := List.forall_mem_cons.2 ⟨starts, layout.starts⟩

/-- What a token by the rules is in front of a cut. -/
theorem IsCut.cons_token (cut : IsCut left leading places) (ends : endsHere left = true)
    {token : Text} (starts : ∃ first rest, token = first :: rest ∧ Text.isBlank first = false)
    (isToken : IsToken token left) :
    IsCut (token ++ left) [] (⟨token, leading⟩ :: places) where
  toIsLayout := cut.toIsLayout.cons_token ends starts
  tokens := by
    intro before place after split
    cases before with
    | nil =>
      cases split
      exact cut.spelled ▸ isToken
    | cons _ before => exact cut.tokens before place after (List.cons.inj split).2

/-- There is a layout of the text with these tokens. Where quotes mean nothing, the tokens are tokens by
the rules. -/
def IsLaidOut (quotes : InnerQuotes) (text : Text) (tokens : List Text) : Prop :=
  ∃ leading places, IsLayout text leading places ∧
    (quotes = .ordinary → IsCut text leading places) ∧ places.map Place.token = tokens

theorem isLaidOut_nil (quotes : InnerQuotes) : IsLaidOut quotes [] [] :=
  ⟨[], [], isLayout_of_isBlank (by simp), fun _ => isCut_of_isBlank (by simp), rfl⟩

theorem IsLaidOut.cons_blank {quotes : InnerQuotes} {tokens : List Text}
    (laidOut : IsLaidOut quotes text tokens) {character : Character}
    (blank : Text.isBlank character = true) : IsLaidOut quotes (character :: text) tokens := by
  obtain ⟨leading, places, layout, cut, same⟩ := laidOut
  exact ⟨character :: leading, places, layout.cons_blank blank,
    fun ordinary => ⟨layout.cons_blank blank, (cut ordinary).tokens⟩, same⟩

theorem IsLaidOut.cons_token {quotes : InnerQuotes} {tokens : List Text}
    (laidOut : IsLaidOut quotes left tokens) (ends : endsHere left = true) (token : Text)
    (starts : ∃ first rest, token = first :: rest ∧ Text.isBlank first = false)
    (isToken : quotes = .ordinary → IsToken token left) :
    IsLaidOut quotes (token ++ left) (token :: tokens) := by
  obtain ⟨leading, places, layout, cut, rfl⟩ := laidOut
  exact ⟨[], ⟨token, leading⟩ :: places, layout.cons_token ends starts,
    fun ordinary => (cut ordinary).cons_token ends starts (isToken ordinary), rfl⟩

/-- What the tokens of a text cover, and what stands between that, is all of the text. -/
theorem isLaidOut_listOfText (quotes : InnerQuotes) (text : Text) :
    IsLaidOut quotes text ((listOfText quotes text).map source) := by
  fun_induction listOfText quotes text with
  | case1 => exact isLaidOut_nil quotes
  | case2 character rest blank inductionHypothesis => exact inductionHypothesis.cons_blank blank
  | case3 character rest _ isQuote inner left closed _ inductionHypothesis =>
    obtain rfl : character = '"' := by simpa using isQuote
    rw [eq_append_of_closeQuoted? closed, List.map_cons]
    have isToken : quotes = .ordinary → IsToken (source (quoted inner)) left := by
      rintro rfl
      obtain ⟨-, noneBefore, closes⟩ := closeQuoted?_eq_some_iff.1 closed
      exact .quoted noneBefore closes
    have next := inductionHypothesis.cons_token (endsHere_of_closeQuoted? closed)
      (source (quoted inner)) ⟨_, _, rfl, isBlank_double⟩ isToken
    simpa [source] using next
  | case4 character rest _ isQuote opened =>
    obtain rfl : character = '"' := by simpa using isQuote
    have isToken : quotes = .ordinary → IsToken (source (unclosed rest)) [] := by
      rintro rfl
      exact .unclosed (closeQuoted?_eq_none_iff.1 opened)
    have next := (isLaidOut_nil quotes).cons_token rfl (source (unclosed rest))
      ⟨_, _, rfl, isBlank_double⟩ isToken
    simpa [source] using next
  | case5 character rest notBlank notQuote taken left split _ inductionHypothesis =>
    have isText : Text.isBlank character = false := by simpa using notBlank
    have isToken : quotes = .ordinary → IsToken (source (bare (character :: taken))) left := by
      rintro rfl
      have blankless := not_isBlank_of_takeBare (takeBare_of_bareRun? isText split)
      exact .bare blankless (by simpa [source] using notQuote)
    rw [eq_append_of_takeBare split]
    exact inductionHypothesis.cons_token (endsHere_of_takeBare split)
      (source (bare (character :: taken))) ⟨_, _, rfl, isText⟩ isToken

/-! ## From the layout to the cut -/

theorem listOfText_append_of_isBlank {quotes : InnerQuotes}
    (blank : ∀ character ∈ leading, Text.isBlank character = true) (text : Text) :
    listOfText quotes (leading ++ text) = listOfText quotes text := by
  induction leading with
  | nil => rfl
  | cons character leading inductionHypothesis =>
    obtain ⟨first, others⟩ := List.forall_mem_cons.1 blank
    rw [List.cons_append, listOfText_cons_of_isBlank first, inductionHypothesis others]

/-- A layout without its first token. -/
theorem IsLayout.tail {place : Place} (layout : IsLayout text leading (place :: places)) :
    IsLayout (place.gap ++ Place.text places) place.gap places where
  spelled := rfl
  leadingBlank := layout.gapsBlank place List.mem_cons_self
  gapsBlank := fun other member => layout.gapsBlank other (List.mem_cons_of_mem _ member)
  separated := by
    intro other member
    cases places with
    | nil => simp at member
    | cons next others => exact layout.separated other (List.mem_cons_of_mem _ member)
  starts := fun other member => layout.starts other (List.mem_cons_of_mem _ member)

theorem IsCut.tail {place : Place} (cut : IsCut text leading (place :: places)) :
    IsCut (place.gap ++ Place.text places) place.gap places where
  toIsLayout := cut.toIsLayout.tail
  tokens := fun before other after split =>
    cut.tokens (place :: before) other after (congrArg (place :: ·) split)

/-- A token of a layout ends where no token can go on. -/
theorem IsLayout.endsHere {place : Place} (layout : IsLayout text leading (place :: places)) :
    endsHere (place.gap ++ Place.text places) = true := by
  have blank := layout.gapsBlank place List.mem_cons_self
  cases gap : place.gap with
  | cons first rest => exact blank first (by simp [gap])
  | nil =>
    cases places with
    | nil => rfl
    | cons next others => exact absurd gap (layout.separated place List.mem_cons_self)

/-- A text in front of which a token by the rules stands is cut behind the token. -/
theorem map_source_listOfText_append {token : Text} (isToken : IsToken token left)
    (ends : endsHere left = true)
    (starts : ∃ first rest, token = first :: rest ∧ Text.isBlank first = false) :
    (listOfText .ordinary (token ++ left)).map source =
      token :: (listOfText .ordinary left).map source := by
  cases isToken with
  | bare blankless unquoted =>
    obtain ⟨first, rest, rfl, notBlank⟩ := starts
    have split := takeBare_append_of_blankless blankless ends
    rw [List.cons_append] at split ⊢
    rw [listOfText_cons_of_takeBare notBlank (by simpa using unquoted) split]
    rfl
  | @quoted inner _ noneBefore closes =>
    have closed := closeQuoted?_eq_some_iff.2 ⟨rfl, noneBefore, closes⟩
    rw [List.cons_append, List.cons_append, List.append_assoc, List.singleton_append,
      listOfText_cons_of_closeQuoted? closed]
    rfl
  | unclosed noneCloses =>
    rw [List.append_nil, listOfText_nil,
      listOfText_cons_of_not_closeQuoted? (closeQuoted?_eq_none_iff.2 noneCloses)]
    rfl

/-- A text that is laid out by the rules is cut so. -/
theorem IsCut.map_source_listOfText (cut : IsCut text leading places) :
    (listOfText .ordinary text).map source = places.map Place.token := by
  induction places generalizing text leading with
  | nil =>
    have spelled := cut.spelled
    rw [Place.text_nil] at spelled
    rw [spelled, listOfText_append_of_isBlank cut.leadingBlank, listOfText_nil]
    rfl
  | cons place places inductionHypothesis =>
    have isToken := cut.tokens [] place places rfl
    have starts := cut.starts place List.mem_cons_self
    rw [cut.spelled, Place.text_cons, listOfText_append_of_isBlank cut.leadingBlank,
      map_source_listOfText_append isToken cut.endsHere starts, inductionHypothesis cut.tail]
    rfl

/-- Every cut of a text is a layout of it, whatever quotes inside a token mean. Where they mean nothing,
the tokens of the text are the only ones by which it can be laid out by the rules. -/
theorem isLayout_listOfText_and_isCut_iff (text : Text) :
    (∀ quotes, ∃ leading places, IsLayout text leading places ∧
        places.map Place.token = (listOfText quotes text).map source) ∧
      ∀ tokens, (∃ leading places, IsCut text leading places ∧ places.map Place.token = tokens) ↔
        tokens = (listOfText .ordinary text).map source := by
  constructor
  · intro quotes
    obtain ⟨leading, places, layout, -, same⟩ := isLaidOut_listOfText quotes text
    exact ⟨leading, places, layout, same⟩
  · intro tokens
    constructor
    · rintro ⟨leading, places, cut, rfl⟩
      exact cut.map_source_listOfText.symm
    · rintro rfl
      obtain ⟨leading, places, -, cut, same⟩ := isLaidOut_listOfText .ordinary text
      exact ⟨leading, places, cut rfl, same⟩

end Token

end VerbExpansion
