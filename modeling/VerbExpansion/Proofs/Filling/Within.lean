import Mathlib.Data.List.Sort
import VerbExpansion.Proofs.Filling.Exchange
import VerbExpansion.Proofs.Filling.Outcome
import VerbExpansion.Proofs.Pattern.Positions
import VerbExpansion.Proofs.Token.Layout

/-!
# The placeholders within tokens

A list of arguments is cut out of its pattern before it is filled. The placeholders of its tokens are
those of the pattern that stand wholly in one token, in the order in which they stand there
(`occurrences_eq_filter`), and each of the others is cut by a blank that is in no token (`isTorn_iff`).
Where no placeholder holds a blank, a list of arguments looks up what a command line does
(`looksUp_within_tokens`).
-/

namespace VerbExpansion

namespace Token

/-- A part of a text, from one place up to another. -/
structure Span where
  start : Nat
  stop : Nat

namespace Span

/-- Whether the place is in the span. -/
def Covers (span : Span) (place : Nat) : Prop :=
  span.start ≤ place ∧ place < span.stop

/-- Whether all of the placeholder that occurs there is in the span. -/
def Holds (span : Span) (occurrence : Nat × Placeholder) : Prop :=
  span.start ≤ occurrence.1 ∧ occurrence.1 + occurrence.2.source.length ≤ span.stop

instance (span : Span) (occurrence : Nat × Placeholder) : Decidable (span.Holds occurrence) :=
  inferInstanceAs (Decidable (_ ∧ _))

end Span

/-- What the tokens cover, when the first of them starts there. -/
def Place.spans (start : Nat) : List Place → List Span
  | [] => []
  | place :: places =>
    ⟨start, start + place.token.length⟩ ::
      spans (start + place.token.length + place.gap.length) places

/-- Whether all of the placeholder that occurs there is in one of the spans. -/
def IsHeld (spans : List Span) (occurrence : Nat × Placeholder) : Prop :=
  ∃ span ∈ spans, span.Holds occurrence

instance (spans : List Span) (occurrence : Nat × Placeholder) : Decidable (IsHeld spans occurrence) :=
  inferInstanceAs (Decidable (∃ span ∈ spans, span.Holds occurrence))

/-- Whether a blank of the text that is in none of the spans cuts the placeholder that occurs there. -/
def IsTorn (text : Text) (spans : List Span) (occurrence : Nat × Placeholder) : Prop :=
  ∃ place character, occurrence.1 < place ∧
    place < occurrence.1 + occurrence.2.source.length ∧ text[place]? = some character ∧
    Text.isBlank character = true ∧ ∀ span ∈ spans, ¬ span.Covers place

variable {text leading : Text} {places : List Place}

/-! ## What the tokens of a layout cover -/

theorem le_of_mem_spans {start : Nat} {span : Span} (member : span ∈ Place.spans start places) :
    start ≤ span.start ∧ span.start ≤ span.stop := by
  induction places generalizing start with
  | nil => cases member
  | cons place places inductionHypothesis =>
    rcases List.mem_cons.1 member with rfl | member
    · exact ⟨Nat.le_refl _, Nat.le_add_right _ _⟩
    · have ordered := inductionHypothesis member
      omega

/-- There is something between a token and the next ones. -/
theorem IsLayout.stop_lt_start {place : Place} (layout : IsLayout text leading (place :: places))
    {stop : Nat} {span : Span} (member : span ∈ Place.spans (stop + place.gap.length) places) :
    stop < span.start := by
  cases places with
  | nil => cases member
  | cons next others =>
    have gapLength := List.length_pos_iff.2 (layout.separated place List.mem_cons_self)
    have isBehind := (le_of_mem_spans member).1
    omega

/-- The end of a token is in no token. -/
theorem IsLayout.not_covers_stop (layout : IsLayout text leading places) {start : Nat}
    {span other : Span} (member : span ∈ Place.spans start places)
    (isOther : other ∈ Place.spans start places) : ¬ other.Covers span.stop := by
  rintro ⟨isBehind, isBefore⟩
  induction places generalizing text leading start with
  | nil => cases member
  | cons place places inductionHypothesis =>
    rcases List.mem_cons.1 member with rfl | later
    · rcases List.mem_cons.1 isOther with rfl | otherLater
      · exact Nat.lt_irrefl _ isBefore
      · exact Nat.not_lt.2 isBehind (layout.stop_lt_start otherLater)
    · rcases List.mem_cons.1 isOther with rfl | otherLater
      · have isPast := (layout.stop_lt_start later).le.trans (le_of_mem_spans later).2
        exact Nat.not_lt.2 isPast isBefore
      · exact inductionHypothesis layout.tail later otherLater

/-- Where a text is not blank, there is a token. -/
theorem IsLayout.exists_covers (layout : IsLayout text leading places) {place : Nat}
    {character : Character} (found : text[place]? = some character)
    (notBlank : Text.isBlank character = false) (start : Nat) :
    ∃ span ∈ Place.spans (start + leading.length) places, span.Covers (start + place) := by
  induction places generalizing text leading start place with
  | nil =>
    have member := List.mem_of_getElem? found
    rw [layout.spelled, Place.text_nil, List.append_nil] at member
    exact absurd (notBlank.symm.trans (layout.leadingBlank character member)) Bool.false_ne_true
  | cons first places inductionHypothesis =>
    rw [layout.spelled, Place.text_cons] at found
    rcases Nat.lt_or_ge place leading.length with isBefore | isBehind
    · rw [List.getElem?_append_left isBefore] at found
      have blank := layout.leadingBlank character (List.mem_of_getElem? found)
      exact absurd (notBlank.symm.trans blank) Bool.false_ne_true
    · obtain ⟨offset, rfl⟩ := Nat.exists_eq_add_of_le isBehind
      rw [List.getElem?_append_right isBehind, Nat.add_sub_cancel_left] at found
      rcases Nat.lt_or_ge offset first.token.length with isInside | isPast
      · refine ⟨_, List.mem_cons_self, ?_, ?_⟩
        · exact Nat.add_le_add_left isBehind start
        · show start + (leading.length + offset) < start + leading.length + first.token.length
          omega
      · obtain ⟨distance, rfl⟩ := Nat.exists_eq_add_of_le isPast
        rw [List.getElem?_append_right isPast, Nat.add_sub_cancel_left] at found
        obtain ⟨span, member, covers⟩ :=
          inductionHypothesis layout.tail found (start + leading.length + first.token.length)
        refine ⟨span, List.mem_cons_of_mem _ member, ?_⟩
        simpa only [Nat.add_assoc] using covers

/-- A placeholder that is written in a text is in one token, or a blank between tokens cuts it. -/
theorem IsLayout.isTorn_iff (layout : IsLayout text leading places) {occurrence : Nat × Placeholder}
    (member : occurrence ∈ (Pattern.ofText text).occurrences 0) :
    ¬ IsHeld (Place.spans leading.length places) occurrence ↔
      IsTorn text (Place.spans leading.length places) occurrence := by
  have covered : ∀ {place character}, text[place]? = some character →
      Text.isBlank character = false →
      ∃ span ∈ Place.spans leading.length places, span.Covers place := by
    intro place character found notBlank
    simpa only [Nat.zero_add] using layout.exists_covers found notBlank 0
  constructor
  · intro notHeld
    obtain ⟨place, placeholder⟩ := occurrence
    obtain ⟨_, stands⟩ := Pattern.mem_occurrences_ofText_iff.1 member
    obtain ⟨span, isSpan, isBehind, isBefore⟩ := covered stands.opens rfl
    have uncovered : ∀ other ∈ Place.spans leading.length places, ¬ other.Covers span.stop :=
      fun _ isOther => layout.not_covers_stop isSpan isOther
    have isCut : span.stop < place + placeholder.source.length :=
      Nat.lt_of_not_le fun holds => notHeld ⟨span, isSpan, isBehind, holds⟩
    obtain ⟨character, -, found⟩ :=
      Pattern.exists_mem_source_of_mem_occurrences member isBefore.le isCut
    refine ⟨span.stop, character, isBefore, isCut, found, ?_, uncovered⟩
    -- Any other character would be in a token.
    by_contra notBlank
    obtain ⟨other, isOther, covers⟩ := covered found (by simpa using notBlank)
    exact uncovered other isOther covers
  · rintro ⟨place, character, isBehind, isBefore, -, -, uncovered⟩ ⟨span, isSpan, holds⟩
    exact uncovered span isSpan ⟨holds.1.trans isBehind.le, isBefore.trans_le holds.2⟩

/-- A placeholder without blanks is in one token. -/
theorem IsLayout.isHeld_of_isBlankless (layout : IsLayout text leading places)
    (blankless : Pattern.IsBlankless text) {occurrence : Nat × Placeholder}
    (member : occurrence ∈ (Pattern.ofText text).occurrences 0) :
    IsHeld (Place.spans leading.length places) occurrence := by
  by_contra notHeld
  obtain ⟨place, blank, isBehind, isBefore, found, isBlank, -⟩ := (layout.isTorn_iff member).1 notHeld
  obtain ⟨character, inSource, same⟩ :=
    Pattern.exists_mem_source_of_mem_occurrences member isBehind.le isBefore
  obtain rfl := Option.some.inj (found.symm.trans same)
  have isPlaceholder : occurrence.2 ∈ (Pattern.ofText text).placeholders := by
    rw [← Pattern.map_snd_occurrences 0]
    exact List.mem_map_of_mem member
  have notBlank := blankless occurrence.2 isPlaceholder blank inSource
  exact absurd (notBlank.symm.trans isBlank) Bool.false_ne_true

/-! ## The placeholders of tokens -/

/-- The placeholders of tokens, each with its place, when the first of the tokens starts there. -/
def Place.occurrences (start : Nat) : List Place → List (Nat × Placeholder)
  | [] => []
  | place :: places =>
    (Pattern.ofText place.token).occurrences start ++
      occurrences (start + place.token.length + place.gap.length) places

theorem Place.map_snd_occurrences (start : Nat) (places : List Place) :
    (Place.occurrences start places).map Prod.snd =
      (places.map Place.token).flatMap fun token => (Pattern.ofText token).placeholders := by
  induction places generalizing start with
  | nil => rfl
  | cons place places inductionHypothesis =>
    rw [Place.occurrences, List.map_append, Pattern.map_snd_occurrences, inductionHypothesis,
      List.map_cons, List.flatMap_cons]

/-- The placeholders of tokens are those of the text that are wholly in one token. -/
theorem Place.mem_occurrences_iff {before : Text} {occurrence : Nat × Placeholder} :
    occurrence ∈ Place.occurrences before.length places ↔
      occurrence ∈ (Pattern.ofText (before ++ Place.text places)).occurrences 0 ∧
        IsHeld (Place.spans before.length places) occurrence := by
  induction places generalizing before with
  | nil => simp [Place.occurrences, Place.spans, IsHeld]
  | cons place places inductionHypothesis =>
    have next := @inductionHypothesis (before ++ (place.token ++ place.gap))
    simp only [List.length_append, List.append_assoc, ← Nat.add_assoc] at next
    rw [Place.occurrences, List.mem_append, next, Place.text_cons,
      Pattern.mem_occurrences_ofText_append_iff]
    simp only [IsHeld, Place.spans, List.exists_mem_cons_iff, and_or_left]
    rfl

theorem Place.le_of_mem_occurrences {start : Nat} {occurrence : Nat × Placeholder}
    (member : occurrence ∈ Place.occurrences start places) : start ≤ occurrence.1 := by
  induction places generalizing start with
  | nil => cases member
  | cons place places inductionHypothesis =>
    rcases List.mem_append.1 member with member | member
    · exact Pattern.le_of_mem_occurrences member
    · have isBehind := inductionHypothesis member
      omega

/-- The placeholders of tokens are listed in the order of their places. -/
theorem Place.pairwise_occurrences (start : Nat) (places : List Place) :
    (Place.occurrences start places).Pairwise fun one other => one.1 < other.1 := by
  induction places generalizing start with
  | nil => exact .nil
  | cons place places inductionHypothesis =>
    refine List.pairwise_append.2 ⟨Pattern.pairwise_occurrences start _, inductionHypothesis _, ?_⟩
    intro one isOne other isOther
    have isBefore := Pattern.lt_of_mem_occurrences isOne
    have isBehind := Place.le_of_mem_occurrences isOther
    omega

/-- The placeholders of tokens are those of the text that are in one token, in the same order. -/
theorem Place.occurrences_eq_filter (before : Text) (places : List Place) :
    Place.occurrences before.length places =
      ((Pattern.ofText (before ++ Place.text places)).occurrences 0).filter
        (IsHeld (Place.spans before.length places) ·) := by
  have sorted := (Pattern.pairwise_occurrences 0 (Pattern.ofText (before ++ Place.text places))).filter
    fun occurrence => decide (IsHeld (Place.spans before.length places) occurrence)
  refine (Place.pairwise_occurrences before.length places).eq_of_mem_iff sorted fun occurrence => ?_
  rw [Place.mem_occurrences_iff, List.mem_filter, decide_eq_true_iff]

/-- The quotes that enclose a token are not part of its placeholders. -/
theorem placeholders_source (token : Token) :
    (Pattern.ofText token.source).placeholders = (Pattern.ofText token.value).placeholders := by
  cases token with
  | bare text => rfl
  | unclosed rest => rfl
  | quoted inner =>
    have opening : (Character.scalar '"') ≠ '{' := by decide
    have closing : (Character.scalar '"') ≠ '}' := by decide
    rw [source, value, List.cons_append, Pattern.ofText_cons opening, Pattern.placeholders_literal_cons,
      Pattern.ofText_append_singleton closing, Pattern.placeholders_append, Pattern.ofText_cons opening]
    simp

end Token

namespace Filling

/-- A command line looks up all placeholders of its pattern, and a list of arguments looks up those that
are in one token, in the same order. The others are those that are cut by a blank between tokens. Where
no placeholder holds a blank, the command line and the arguments look up the same. -/
theorem looksUp_within_tokens (pattern : Text) :
    let whole := (Pattern.ofText pattern).placeholders
    let withinTokens := (Token.listOfText .ordinary pattern).flatMap fun token =>
      (Pattern.ofText token.value).placeholders
    let occurrences := (Pattern.ofText pattern).occurrences 0
    occurrences.map Prod.snd = whole ∧
      (∃ leading places, Token.IsLayout pattern leading places ∧
        places.map Token.Place.token = (Token.listOfText .ordinary pattern).map Token.source ∧
        let spans := Token.Place.spans leading.length places
        withinTokens = (occurrences.filter (Token.IsHeld spans ·)).map Prod.snd ∧
          ∀ occurrence ∈ occurrences,
            ¬ Token.IsHeld spans occurrence ↔ Token.IsTorn pattern spans occurrence) ∧
      LooksUp whole (commandLine · pattern) ∧ LooksUp withinTokens (arguments · pattern) ∧
      (Pattern.IsBlankless pattern → withinTokens = whole) := by
  intro whole withinTokens occurrences
  obtain ⟨leading, places, layout, -, same⟩ := Token.isLaidOut_listOfText .ordinary pattern
  have all : occurrences.map Prod.snd = whole := Pattern.map_snd_occurrences 0 _
  have held : withinTokens =
      (occurrences.filter (Token.IsHeld (Token.Place.spans leading.length places) ·)).map Prod.snd := by
    have laidOut := Token.Place.occurrences_eq_filter leading places
    rw [← layout.spelled] at laidOut
    rw [← laidOut, Token.Place.map_snd_occurrences, same, List.flatMap_map]
    simp only [Token.placeholders_source]
    rfl
  refine ⟨all, ⟨leading, places, layout, same, held, fun _ member => layout.isTorn_iff member⟩,
    looksUp_commandLine pattern, looksUp_arguments pattern, fun blankless => ?_⟩
  rw [held, ← all, List.filter_eq_self.2]
  exact fun occurrence member => decide_eq_true (layout.isHeld_of_isBlankless blankless member)

/-- Enclosing quotes, a quote that nothing closes, and two placeholders in one token. -/
theorem looksUp_quoted_placeholders :
    let pattern : Text := "\"{file}\" {line}{n:x} \"{m} "
    let placeholders : List Placeholder := [⟨"file", none⟩, ⟨"line", none⟩, ⟨"n", some "x"⟩, ⟨"m", none⟩]
    Pattern.IsBlankless pattern ∧ LooksUp placeholders (commandLine · pattern) ∧
      LooksUp placeholders (arguments · pattern) := by
  intro pattern placeholders
  have blankless : Pattern.IsBlankless pattern := by decide +kernel
  have listed : (Pattern.ofText pattern).placeholders = placeholders := by decide +kernel
  obtain ⟨-, -, asLine, asArguments, same⟩ := looksUp_within_tokens pattern
  rw [same blankless] at asArguments
  rw [listed] at asLine asArguments
  exact ⟨blankless, asLine, asArguments⟩

/-- A blank cuts the one placeholder, and quotes keep the other. -/
example :
    ((Token.listOfText .ordinary "{a b} \"{c d}\"").flatMap fun token =>
      (Pattern.ofText token.value).placeholders) = [⟨"c d", none⟩] := by
  decide +kernel

end Filling

end VerbExpansion
