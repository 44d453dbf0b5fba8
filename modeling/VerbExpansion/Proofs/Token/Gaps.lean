import VerbExpansion.Proofs.Token.Layout

/-!
# Other gaps between tokens

A run inside a token ends inside of it, so where the token ends does not depend on what follows, as
long as no quotes are added there (`takeBare_append_of_addsNoQuotes`,
`closeQuoted?_append_of_addsNoQuotes`). The blanks between the tokens of a text may therefore be
others, and those at its end may be left out: the text is cut as before (`listOfText_of_isLayout`).
-/

namespace VerbExpansion

namespace InnerQuotes

variable {quotes : InnerQuotes} {character mark : Character} {rest : Text}

/-- The run that a character of a bare token starts is one of quotes, with a partner further on. -/
theorem bareRun?_eq_some_iff : paired.bareRun? character rest = some mark ↔
    mark = character ∧ (mark = '\'' ∨ mark = '"') ∧ mark ∈ rest := by
  rw [bareRun?]
  split
  · next starts =>
    simp only [Bool.and_eq_true, Bool.or_eq_true, beq_iff_eq, List.contains_iff_mem] at starts
    rw [Option.some.injEq]
    constructor
    · rintro rfl
      exact ⟨rfl, starts⟩
    · rintro ⟨rfl, -⟩
      rfl
  · next noRun =>
    simp only [Bool.and_eq_true, Bool.or_eq_true, beq_iff_eq, List.contains_iff_mem] at noRun
    refine ⟨fun starts => absurd starts (by simp), ?_⟩
    rintro ⟨rfl, starts⟩
    exact absurd starts noRun

theorem mem_of_bareRun? (starts : quotes.bareRun? character rest = some mark) : mark ∈ rest := by
  cases quotes with
  | ordinary => cases starts
  | paired => exact (bareRun?_eq_some_iff.1 starts).2.2

/-- Whether a double quote starts a run is decided before the end of a quoted part. -/
theorem take_two_append_double (inner left other : Text) :
    ((inner ++ .scalar '"' :: other).take 2 == [.scalar '\'', .scalar '"']) =
      ((inner ++ .scalar '"' :: left).take 2 == [.scalar '\'', .scalar '"']) := by
  cases inner with
  | nil => cases left <;> cases other <;> rfl
  | cons first inner => cases inner <;> rfl

end InnerQuotes

namespace Token

variable {quotes : InnerQuotes} {awaited : Option Character} {mark character : Character}
  {text taken inner left other : Text}

/-! ## Runs end inside of a token -/

theorem behind_singleton_eq_iff {cut : Text × Text} :
    behind [character] cut = (mark :: text, left) ↔ character = mark ∧ cut = (text, left) := by
  rw [behind, Prod.mk.injEq, List.singleton_append, List.cons.injEq, Prod.ext_iff, and_assoc]

theorem behind_singleton_ne {cut : Text × Text} : behind [character] cut ≠ ([], left) :=
  fun same => List.cons_ne_nil _ _ (Prod.mk.inj same).1

/-- A bare token that is in a run takes the quote that ends the run, if there is one. -/
theorem mem_of_takeBare_awaiting
    (cut : takeBare quotes (some mark) (taken ++ left) = (taken, left))
    (partner : mark ∈ taken ++ left) : mark ∈ taken := by
  induction taken with
  | nil =>
    obtain ⟨first, rest, rfl⟩ := List.exists_cons_of_ne_nil (List.ne_nil_of_mem partner)
    exact absurd cut behind_singleton_ne
  | cons first taken inductionHypothesis =>
    by_cases ends : first = mark
    · exact List.mem_cons.2 (.inl ends.symm)
    · rw [List.cons_append, takeBare_going ends, behind_singleton_eq_iff] at cut
      have further := (List.mem_cons.1 partner).resolve_left (Ne.symm ends)
      exact List.mem_cons_of_mem _ (inductionHypothesis cut.2 further)

/-- A quoted part that is in a run holds the quote that ends the run. -/
theorem mem_of_closeQuoted?_awaiting
    (closed : closeQuoted? quotes (some mark) (inner ++ .scalar '"' :: left) = some (inner, left)) :
    mark ∈ inner := by
  induction inner with
  | nil =>
    rw [List.nil_append, closeQuoted?_awaiting] at closed
    obtain ⟨more, same, -⟩ := exists_of_map_behind closed
    cases same
  | cons first inner inductionHypothesis =>
    by_cases ends : first = mark
    · exact List.mem_cons.2 (.inl ends.symm)
    · rw [List.cons_append, closeQuoted?_going ends] at closed
      obtain ⟨more, same, closed⟩ := exists_of_map_behind closed
      cases same
      exact List.mem_cons_of_mem _ (inductionHypothesis closed)

/-! ## What follows a token -/

/-- Whether each quote that is in the other text is in the text as well. -/
def AddsNoQuotes (text other : Text) : Prop :=
  ∀ mark : Character, mark = '\'' ∨ mark = '"' → mark ∈ other → mark ∈ text

theorem addsNoQuotes_nil (text : Text) : AddsNoQuotes text [] :=
  fun _ _ member => absurd member List.not_mem_nil

theorem AddsNoQuotes.append (adds : AddsNoQuotes left other) (text : Text) :
    AddsNoQuotes (text ++ left) (text ++ other) := by
  intro mark isQuote member
  rcases List.mem_append.1 member with member | member
  · exact List.mem_append_left _ member
  · exact List.mem_append_right _ (adds mark isQuote member)

theorem bareRun?_append_of_addsNoQuotes (adds : AddsNoQuotes left other)
    (cut : takeBare quotes (quotes.bareRun? character (taken ++ left)) (taken ++ left) =
      (taken, left)) :
    quotes.bareRun? character (taken ++ other) = quotes.bareRun? character (taken ++ left) := by
  cases quotes with
  | ordinary => rfl
  | paired =>
    apply Option.ext
    intro mark
    constructor
    · intro starts
      obtain ⟨same, isQuote, partner⟩ := InnerQuotes.bareRun?_eq_some_iff.1 starts
      exact InnerQuotes.bareRun?_eq_some_iff.2
        ⟨same, isQuote, adds.append taken mark isQuote partner⟩
    · intro starts
      obtain ⟨same, isQuote, partner⟩ := InnerQuotes.bareRun?_eq_some_iff.1 starts
      rw [starts] at cut
      have inside := mem_of_takeBare_awaiting cut partner
      exact InnerQuotes.bareRun?_eq_some_iff.2
        ⟨same, isQuote, List.mem_append_left other inside⟩

theorem quotedRun?_append_of_addsNoQuotes (adds : AddsNoQuotes left other)
    (closed : closeQuoted? quotes (quotes.quotedRun? character (inner ++ .scalar '"' :: left))
      (inner ++ .scalar '"' :: left) = some (inner, left)) :
    quotes.quotedRun? character (inner ++ .scalar '"' :: other) =
      quotes.quotedRun? character (inner ++ .scalar '"' :: left) := by
  cases quotes with
  | ordinary => rfl
  | paired =>
    by_cases single : character = '\''
    · subst single
      by_cases partner : .scalar '\'' ∈ inner ++ .scalar '"' :: left
      · rw [InnerQuotes.quotedRun?_of_mem partner] at closed ⊢
        have inside := mem_of_closeQuoted?_awaiting closed
        exact InnerQuotes.quotedRun?_of_mem (List.mem_append_left _ inside)
      · have noPartner : .scalar '\'' ∉ inner ++ .scalar '"' :: other := by
          have behindQuote : AddsNoQuotes (.scalar '"' :: left) (.scalar '"' :: other) :=
            adds.append [.scalar '"']
          exact fun member => partner (behindQuote.append inner '\'' (.inl rfl) member)
        simp [InnerQuotes.quotedRun?, partner, noPartner]
    · simp only [InnerQuotes.quotedRun?, beq_eq_false_iff_ne.2 single, Bool.false_and,
        InnerQuotes.take_two_append_double inner left other]

/-- A bare token ends as before when no quotes are added behind it. -/
theorem takeBare_append_of_addsNoQuotes (adds : AddsNoQuotes left other)
    (ends : endsHere other = true) (awaits : ∀ mark ∈ awaited, mark ∈ taken)
    (cut : takeBare quotes awaited (taken ++ left) = (taken, left)) :
    takeBare quotes awaited (taken ++ other) = (taken, other) := by
  induction taken generalizing awaited with
  | nil =>
    cases awaited with
    | some mark => exact absurd (awaits mark rfl) List.not_mem_nil
    | none => exact takeBare_of_endsHere ends
  | cons first taken inductionHypothesis =>
    rw [List.cons_append] at cut ⊢
    cases awaited with
    | some mark =>
      rw [takeBare_awaiting, behind_singleton_eq_iff] at cut ⊢
      refine ⟨rfl, inductionHypothesis ?_ cut.2⟩
      split
      · simp
      · next goesOn =>
        rintro _ ⟨⟩
        have different : first ≠ mark := by simpa using goesOn
        exact (List.mem_cons.1 (awaits mark rfl)).resolve_left (Ne.symm different)
    | none =>
      have notBlank : Text.isBlank first = false := by
        refine Bool.eq_false_iff.2 fun blank => ?_
        rw [takeBare_of_endsHere (show endsHere (first :: (taken ++ left)) = true from blank)] at cut
        cases (Prod.mk.inj cut).1
      rw [takeBare_of_not_isBlank notBlank, behind_singleton_eq_iff] at cut
      rw [takeBare_of_not_isBlank notBlank, behind_singleton_eq_iff,
        bareRun?_append_of_addsNoQuotes adds cut.2]
      refine ⟨rfl, inductionHypothesis (fun mark starts => ?_) cut.2⟩
      rw [Option.mem_def.1 starts] at cut
      exact mem_of_takeBare_awaiting cut.2 (InnerQuotes.mem_of_bareRun? starts)

/-- A quoted part is closed as before when no quotes are added behind it. -/
theorem closeQuoted?_append_of_addsNoQuotes (adds : AddsNoQuotes left other)
    (ends : endsHere other = true)
    (closed : closeQuoted? quotes awaited (inner ++ .scalar '"' :: left) = some (inner, left)) :
    closeQuoted? quotes awaited (inner ++ .scalar '"' :: other) = some (inner, other) := by
  induction inner generalizing awaited with
  | nil =>
    cases awaited with
    | some mark => exact absurd (mem_of_closeQuoted?_awaiting closed) List.not_mem_nil
    | none => rw [List.nil_append, closeQuoted?, if_pos (by simpa using ends)]
  | cons first inner inductionHypothesis =>
    rw [List.cons_append] at closed ⊢
    cases awaited with
    | some mark =>
      rw [closeQuoted?_awaiting] at closed ⊢
      obtain ⟨more, same, closed⟩ := exists_of_map_behind closed
      cases same
      rw [inductionHypothesis closed]
      rfl
    | none =>
      have sameEnd : endsHere (inner ++ .scalar '"' :: other) =
          endsHere (inner ++ .scalar '"' :: left) := by
        cases inner <;> rfl
      have goesOn : ¬ (first = '"' ∧ endsHere (inner ++ .scalar '"' :: left) = true) := by
        intro closing
        rw [closeQuoted?, if_pos (by simpa using closing)] at closed
        cases closed
      rw [closeQuoted?_of_not_closing goesOn] at closed
      obtain ⟨more, same, closed⟩ := exists_of_map_behind closed
      cases same
      rw [closeQuoted?_of_not_closing (sameEnd ▸ goesOn),
        quotedRun?_append_of_addsNoQuotes adds closed, inductionHypothesis closed]
      rfl

/-! ## Other gaps -/

/-- What is not blank is in the tokens of a layout. -/
theorem IsLayout.mem_iff {leading : Text} {places : List Place}
    (layout : IsLayout text leading places) (notBlank : Text.isBlank character = false) :
    character ∈ text ↔ ∃ token ∈ places.map Place.token, character ∈ token := by
  have notLeading : character ∉ leading := fun member =>
    absurd ((layout.leadingBlank character member).symm.trans notBlank) Bool.noConfusion
  have notInGap : ∀ place ∈ places, character ∉ place.gap := fun place isPlace member =>
    absurd ((layout.gapsBlank place isPlace character member).symm.trans notBlank) Bool.noConfusion
  rw [layout.spelled, List.mem_append, or_iff_right notLeading, Place.text, List.mem_flatMap]
  constructor
  · rintro ⟨place, isPlace, member⟩
    have inToken := (List.mem_append.1 member).resolve_right (notInGap place isPlace)
    exact ⟨place.token, List.mem_map_of_mem isPlace, inToken⟩
  · rintro ⟨_, isToken, member⟩
    obtain ⟨place, isPlace, rfl⟩ := List.mem_map.1 isToken
    exact ⟨place, isPlace, List.mem_append_left _ member⟩

/-- A text that is laid out with the tokens of another one has no quotes that this one has not. -/
theorem IsLayout.addsNoQuotes {leading : Text} {places : List Place}
    (layout : IsLayout other leading places)
    (same : places.map Place.token = (listOfText quotes text).map source) :
    AddsNoQuotes text other := by
  obtain ⟨_, textPlaces, textLayout, -, textSame⟩ := isLaidOut_listOfText quotes text
  have sameTokens : places.map Place.token = textPlaces.map Place.token := same.trans textSame.symm
  rintro mark (rfl | rfl) member
  · rwa [textLayout.mem_iff isBlank_single, ← sameTokens, ← layout.mem_iff isBlank_single]
  · rwa [textLayout.mem_iff isBlank_double, ← sameTokens, ← layout.mem_iff isBlank_double]

/-- Whether no gap follows the last token. -/
def EndsWithToken (places : List Place) : Prop :=
  ∀ place ∈ places.getLast?, place.gap = []

theorem EndsWithToken.tail {place : Place} {places : List Place}
    (endsWithToken : EndsWithToken (place :: places)) : EndsWithToken places :=
  fun last isLast => endsWithToken last (by simp [List.getLast?_cons, Option.mem_def.1 isLast])

/-- A layout starts with its first token, behind blanks that do not matter. -/
theorem IsLayout.listOfText_eq {leading : Text} {place : Place} {places : List Place}
    (layout : IsLayout text leading (place :: places)) (quotes : InnerQuotes) :
    listOfText quotes text = listOfText quotes (place.token ++ (place.gap ++ Place.text places)) := by
  rw [layout.spelled, listOfText_append_of_isBlank layout.leadingBlank, Place.text_cons]

/-- A text whose tokens are laid out with other gaps, and with none at the end, is cut as before. -/
theorem listOfText_of_isLayout {leading : Text} {places : List Place}
    (layout : IsLayout other leading places)
    (same : places.map Place.token = (listOfText quotes text).map source)
    (endsWithToken : EndsWithToken places) :
    listOfText quotes other = listOfText quotes text := by
  induction text using listOfText.induct quotes generalizing other leading places with
  | case1 =>
    rw [listOfText_nil, List.map_nil, List.map_eq_nil_iff] at same
    subst same
    rw [layout.spelled, listOfText_append_of_isBlank layout.leadingBlank, Place.text_nil]
  | case2 character rest blank inductionHypothesis =>
    rw [listOfText_cons_of_isBlank blank] at same ⊢
    exact inductionHypothesis layout same endsWithToken
  | case3 character rest _ isQuote inner left closed _ inductionHypothesis =>
    obtain rfl : character = .scalar '"' := by simpa using isQuote
    rw [listOfText_cons_of_closeQuoted? closed] at same ⊢
    obtain ⟨place, places, rfl, token, sameBehind⟩ := List.map_eq_cons_iff.1 same
    have closedThere : closeQuoted? quotes none
        (inner ++ .scalar '"' :: (place.gap ++ Place.text places)) =
          some (inner, place.gap ++ Place.text places) := by
      refine closeQuoted?_append_of_addsNoQuotes (layout.tail.addsNoQuotes sameBehind)
        layout.endsHere ?_
      rwa [← eq_append_of_closeQuoted? closed]
    rw [layout.listOfText_eq, token, source, List.append_assoc, List.cons_append,
      List.singleton_append, listOfText_cons_of_closeQuoted? closedThere,
      inductionHypothesis layout.tail sameBehind endsWithToken.tail]
  | case4 character rest _ isQuote opened =>
    obtain rfl : character = .scalar '"' := by simpa using isQuote
    rw [listOfText_cons_of_not_closeQuoted? opened] at same ⊢
    obtain ⟨place, places, rfl, token, sameBehind⟩ := List.map_eq_cons_iff.1 same
    rw [List.map_nil, List.map_eq_nil_iff] at sameBehind
    subst sameBehind
    rw [layout.listOfText_eq, token, source, endsWithToken place rfl, Place.text_nil, List.append_nil,
      List.append_nil, listOfText_cons_of_not_closeQuoted? opened]
  | case5 character rest notBlank notQuote taken left split _ inductionHypothesis =>
    have isText : Text.isBlank character = false := by simpa using notBlank
    have isWord : character ≠ '"' := by simpa using notQuote
    have cut := takeBare_of_bareRun? isText split
    rw [listOfText_cons_of_takeBare isText isWord cut] at same ⊢
    obtain ⟨place, places, rfl, token, sameBehind⟩ := List.map_eq_cons_iff.1 same
    have cutThere : takeBare quotes none
        (character :: taken ++ (place.gap ++ Place.text places)) =
          (character :: taken, place.gap ++ Place.text places) := by
      refine takeBare_append_of_addsNoQuotes (layout.tail.addsNoQuotes sameBehind)
        layout.endsHere (by simp) ?_
      rwa [← eq_append_of_takeBare cut]
    rw [List.cons_append] at cutThere
    rw [layout.listOfText_eq, token, source, List.cons_append,
      listOfText_cons_of_takeBare isText isWord cutThere,
      inductionHypothesis layout.tail sameBehind endsWithToken.tail]

/-! ## One space between tokens -/

/-- Texts that start with no blank are laid out with single spaces between them. -/
theorem exists_isLayout_spaced {tokens : List Text}
    (starts : ∀ token ∈ tokens, ∃ first rest, token = first :: rest ∧ Text.isBlank first = false) :
    ∃ places, IsLayout (Text.spaced tokens) [] places ∧ EndsWithToken places ∧
      places.map Place.token = tokens := by
  induction tokens with
  | nil => exact ⟨[], isLayout_of_isBlank (by simp), by simp [EndsWithToken], rfl⟩
  | cons token tokens inductionHypothesis =>
    obtain ⟨startsFirst, startsOthers⟩ := List.forall_mem_cons.1 starts
    obtain ⟨places, layout, endsWithToken, same⟩ := inductionHypothesis startsOthers
    cases tokens with
    | nil =>
      have nothing : IsLayout [] [] [] := isLayout_of_isBlank (by simp)
      have alone := nothing.cons_token rfl startsFirst
      rw [List.append_nil] at alone
      exact ⟨[⟨token, []⟩], by rwa [Text.spaced_singleton], by simp [EndsWithToken], rfl⟩
    | cons second tokens =>
      have space : Text.isBlank ' ' = true := rfl
      refine ⟨⟨token, [.scalar ' ']⟩ :: places, ?_, ?_, congrArg (token :: ·) same⟩
      · rw [Text.spaced_cons_cons]
        exact (layout.cons_blank space).cons_token space startsFirst
      · obtain ⟨place, places, rfl⟩ : ∃ place others, places = place :: others :=
          List.exists_cons_of_ne_nil (by rintro rfl; cases same)
        simpa [EndsWithToken] using endsWithToken

/-- The tokens of a text, joined with one space between them, are cut into the same tokens again,
whatever quotes inside a token mean. -/
theorem listOfText_spaced_sources (quotes : InnerQuotes) (text : Text) :
    listOfText quotes (Text.spaced ((listOfText quotes text).map source)) =
      listOfText quotes text := by
  obtain ⟨_, places, layout, -, same⟩ := isLaidOut_listOfText quotes text
  have starts : ∀ token ∈ (listOfText quotes text).map source,
      ∃ first rest, token = first :: rest ∧ Text.isBlank first = false := by
    intro token member
    rw [← same] at member
    obtain ⟨place, isPlace, rfl⟩ := List.mem_map.1 member
    exact layout.starts place isPlace
  obtain ⟨_, spacedLayout, endsWithToken, spacedSame⟩ := exists_isLayout_spaced starts
  exact listOfText_of_isLayout spacedLayout spacedSame endsWithToken

end Token

end VerbExpansion
