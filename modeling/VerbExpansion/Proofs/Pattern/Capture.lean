import VerbExpansion.Pattern.Match
import VerbExpansion.Proofs.Filling.Text
import VerbExpansion.Proofs.Text.Blank

/-!
# What a pattern captures

`Fits` says without any search that texts fill the gaps of a pattern so that it becomes a text.
`capture?` finds such texts whenever there are any (`isSome_capture?_iff`), and of all of them the
greedy ones (`capture?_eq_some_iff`): each is as long as it can be after those before it.
-/

namespace VerbExpansion.Pattern

/-- The pattern becomes the text when its gaps are filled with these texts, in order. No gap is
filled with nothing. -/
inductive Fits : Pattern → (captures : List Text) → Text → Prop where
  | nil : Fits [] [] []
  | literal {pattern captures rest} (character : Character) (others : Fits pattern captures rest) :
      Fits (.literal character :: pattern) captures (character :: rest)
  | gap {pattern captures rest} (placeholder : Placeholder) {capture : Text}
      (notEmpty : capture ≠ []) (others : Fits pattern captures rest) :
      Fits (.gap placeholder :: pattern) (capture :: captures) (capture ++ rest)

/-- The pattern becomes the text, or the text without a line end at its end. -/
def Accepts (pattern : Pattern) (captures : List Text) (text : Text) : Prop :=
  pattern.Fits captures text ∨ ∃ body, text = body ++ [.scalar '\n'] ∧ pattern.Fits captures body

/-- Of all ways in which the pattern accepts the text, this one gives the first gap as much as it can
get, then the second gap, and so on. -/
structure IsGreedy (pattern : Pattern) (captures : List Text) (text : Text) : Prop where
  accepts : pattern.Accepts captures text
  longest : ∀ before capture after other others, captures = before ++ capture :: after →
    pattern.Accepts (before ++ other :: others) text → other.length ≤ capture.length

variable {pattern : Pattern} {captures : List Text} {text rest : Text}

/-! ## Fitting texts -/

namespace Fits

/-- There is one text for each gap. -/
theorem length_eq (fits : pattern.Fits captures text) :
    captures.length = pattern.placeholders.length := by
  induction fits with
  | nil => rfl
  | literal character _ inductionHypothesis => exact inductionHypothesis
  | gap placeholder _ _ inductionHypothesis =>
    rw [List.length_cons, inductionHypothesis, placeholders_gap_cons, List.length_cons]

/-- Texts that fit, put in place of the placeholders, give the text back. -/
theorem filled_eq {texts : Placeholder → Text} (fits : pattern.Fits captures text)
    (named : pattern.placeholders.map texts = captures) : pattern.filled texts = text := by
  induction fits with
  | nil => rfl
  | literal character _ inductionHypothesis =>
    rw [filled_cons, inductionHypothesis named]
    rfl
  | gap placeholder _ _ inductionHypothesis =>
    obtain ⟨same, others⟩ := List.cons.inj named
    rw [filled_cons, inductionHypothesis others, Piece.filled, same]

end Fits

/-- Texts put in place of the placeholders fit, unless one of them is empty. -/
theorem fits_filled {texts : Placeholder → Text} (notEmpty : ∀ placeholder, texts placeholder ≠ [])
    (pattern : Pattern) : pattern.Fits (pattern.placeholders.map texts) (pattern.filled texts) := by
  induction pattern with
  | nil => exact .nil
  | cons piece pattern inductionHypothesis =>
    cases piece with
    | literal character => exact .literal character inductionHypothesis
    | gap placeholder => exact .gap placeholder (notEmpty placeholder) inductionHypothesis

/-! ## Acceptance, piece by piece -/

theorem accepts_nil_iff :
    Accepts [] captures text ↔ captures = [] ∧ (text = [] ∨ text = [.scalar '\n']) := by
  constructor
  · rintro (fits | ⟨body, rfl, fits⟩)
    · cases fits
      exact ⟨rfl, .inl rfl⟩
    · cases fits
      exact ⟨rfl, .inr rfl⟩
  · rintro ⟨rfl, rfl | rfl⟩
    · exact .inl .nil
    · exact .inr ⟨[], rfl, .nil⟩

theorem accepts_literal_iff {character : Character} :
    Accepts (.literal character :: pattern) captures text ↔
      ∃ rest, text = character :: rest ∧ pattern.Accepts captures rest := by
  constructor
  · rintro (fits | ⟨body, rfl, fits⟩)
    · cases fits with
      | literal _ fits => exact ⟨_, rfl, .inl fits⟩
    · cases fits with
      | literal _ fits => exact ⟨_, rfl, .inr ⟨_, rfl, fits⟩⟩
  · rintro ⟨_, rfl, fits | ⟨body, rfl, fits⟩⟩
    · exact .inl (.literal character fits)
    · exact .inr ⟨character :: body, rfl, .literal character fits⟩

theorem accepts_gap_iff {placeholder : Placeholder} :
    Accepts (.gap placeholder :: pattern) captures text ↔
      ∃ capture others rest, captures = capture :: others ∧ text = capture ++ rest ∧
        capture ≠ [] ∧ pattern.Accepts others rest := by
  constructor
  · rintro (fits | ⟨body, rfl, fits⟩)
    · cases fits with
      | gap _ notEmpty fits => exact ⟨_, _, _, rfl, rfl, notEmpty, .inl fits⟩
    · cases fits with
      | gap _ notEmpty fits =>
        exact ⟨_, _, _, rfl, List.append_assoc _ _ _, notEmpty, .inr ⟨_, rfl, fits⟩⟩
  · rintro ⟨capture, others, _, rfl, rfl, notEmpty, fits | ⟨body, rfl, fits⟩⟩
    · exact .inl (.gap placeholder notEmpty fits)
    · exact .inr ⟨capture ++ body, (List.append_assoc _ _ _).symm, .gap placeholder notEmpty fits⟩

/-- A trimmed text has no line end to leave over. -/
theorem Accepts.fits_of_isTrimmed (accepts : pattern.Accepts captures text)
    (isTrimmed : Text.IsTrimmed text) : pattern.Fits captures text := by
  rcases accepts with fits | ⟨body, rfl, -⟩
  · exact fits
  · have lineEnd := isTrimmed.last (.scalar '\n') (List.getLast?_concat ..)
    exact absurd lineEnd (by decide)

/-! ## The search for one gap -/

section LongestCapture

variable {Result : Type} {accept : Text → Option Result}

/-- A start of a text that is not empty starts with the first character. -/
theorem exists_eq_cons_of_append {character : Character} {start left : Text}
    (split : character :: text = start ++ left) (notEmpty : start ≠ []) :
    ∃ more, start = character :: more ∧ text = more ++ left := by
  rcases List.cons_eq_append_iff.1 split with ⟨empty, -⟩ | found
  · exact absurd empty notEmpty
  · exact found

/-- Nothing is captured where nothing that may be left of the text is accepted. -/
theorem longestCapture?_eq_none_iff :
    longestCapture? accept text = none ↔
      ∀ capture left, text = capture ++ left → capture ≠ [] → accept left = none := by
  induction text with
  | nil => simp [longestCapture?]
  | cons character text inductionHypothesis =>
    constructor
    · intro nothing capture left split notEmpty
      obtain ⟨more, rfl, rfl⟩ := exists_eq_cons_of_append split notEmpty
      unfold longestCapture? at nothing
      split at nothing
      · cases nothing
      · next later =>
        cases more with
        | nil => exact Option.map_eq_none_iff.1 nothing
        | cons second more => exact inductionHypothesis.1 later _ _ rfl (List.cons_ne_nil _ _)
    · intro nothing
      have later : longestCapture? accept text = none := by
        refine inductionHypothesis.2 fun capture left split _ => ?_
        exact nothing (character :: capture) left (by rw [split, List.cons_append])
          (List.cons_ne_nil _ _)
      rw [longestCapture?, later]
      exact Option.map_eq_none_iff.2 (nothing [character] text rfl (List.cons_ne_nil _ _))

/-- What is captured is a start of the text, and no longer one leaves what is accepted. -/
theorem longest_of_longestCapture? {capture : Text} {result : Result}
    (found : longestCapture? accept text = some (capture, result)) :
    ∃ rest, text = capture ++ rest ∧ capture ≠ [] ∧ accept rest = some result ∧
      ∀ longer left, text = longer ++ left → capture.length < longer.length →
        accept left = none := by
  induction text generalizing capture with
  | nil => cases found
  | cons character text inductionHypothesis =>
    unfold longestCapture? at found
    split at found
    · next later =>
      cases found
      obtain ⟨rest, rfl, _, accepted, longest⟩ := inductionHypothesis later
      refine ⟨rest, rfl, List.cons_ne_nil _ _, accepted, fun longer left split isLonger => ?_⟩
      have notEmpty := List.ne_nil_of_length_pos (Nat.zero_lt_of_lt isLonger)
      obtain ⟨more, rfl, moreSplit⟩ := exists_eq_cons_of_append split notEmpty
      exact longest more left moreSplit (Nat.lt_of_succ_lt_succ isLonger)
    · next later =>
      obtain ⟨result, accepted, ⟨⟩⟩ := Option.map_eq_some_iff.1 found
      refine ⟨text, rfl, List.cons_ne_nil _ _, accepted, fun longer left split isLonger => ?_⟩
      have notEmpty := List.ne_nil_of_length_pos (Nat.zero_lt_of_lt isLonger)
      obtain ⟨more, rfl, moreSplit⟩ := exists_eq_cons_of_append split notEmpty
      have moreNotEmpty := List.ne_nil_of_length_pos (Nat.lt_of_succ_lt_succ isLonger)
      exact longestCapture?_eq_none_iff.1 later more left moreSplit moreNotEmpty

/-- The longest start of the text is captured that leaves what is accepted. -/
theorem longestCapture?_eq_some_iff {capture : Text} {result : Result} :
    longestCapture? accept text = some (capture, result) ↔
      ∃ rest, text = capture ++ rest ∧ capture ≠ [] ∧ accept rest = some result ∧
        ∀ longer left, text = longer ++ left → capture.length < longer.length →
          accept left = none := by
  refine ⟨longest_of_longestCapture?, ?_⟩
  rintro ⟨rest, split, notEmpty, accepted, longest⟩
  cases found : longestCapture? accept text with
  | none =>
    rw [longestCapture?_eq_none_iff.1 found capture rest split notEmpty] at accepted
    cases accepted
  | some answer =>
    -- Neither of the two longest starts is longer than the other.
    obtain ⟨other, otherResult⟩ := answer
    obtain ⟨otherRest, otherSplit, _, otherAccepted, otherLongest⟩ :=
      longest_of_longestCapture? found
    have notLonger : ¬other.length < capture.length := by
      intro isLonger
      rw [otherLongest capture rest split isLonger] at accepted
      cases accepted
    have notShorter : ¬capture.length < other.length := by
      intro isLonger
      rw [longest other otherRest otherSplit isLonger] at otherAccepted
      cases otherAccepted
    obtain ⟨rfl, rfl⟩ := List.append_inj (otherSplit.symm.trans split) (by omega)
    rw [accepted] at otherAccepted
    cases otherAccepted
    rfl

end LongestCapture

/-! ## The search for all gaps -/

/-- Nothing is captured exactly where the pattern accepts nothing. -/
theorem capture?_eq_none_iff :
    pattern.capture? text = none ↔ ∀ captures, ¬pattern.Accepts captures text := by
  induction pattern generalizing text with
  | nil =>
    simp only [capture?, accepts_nil_iff]
    split
    · next ended => simp [ended]
    · next goesOn => simp [goesOn]
  | cons piece pattern inductionHypothesis =>
    cases piece with
    | literal expected =>
      simp only [accepts_literal_iff]
      cases text with
      | nil => simp [capture?]
      | cons character rest =>
        rw [capture?]
        split
        · next same =>
          rw [inductionHypothesis, same]
          simp
        · next different => simp [different]
    | gap placeholder =>
      rw [capture?, Option.map_eq_none_iff, longestCapture?_eq_none_iff]
      constructor
      · intro nothing captures accepts
        obtain ⟨capture, others, left, rfl, split, notEmpty, accepts⟩ := accepts_gap_iff.1 accepts
        exact inductionHypothesis.1 (nothing capture left split notEmpty) others accepts
      · intro never capture left split notEmpty
        refine inductionHypothesis.2 fun others accepts => never (capture :: others) ?_
        exact accepts_gap_iff.2 ⟨capture, others, left, rfl, split, notEmpty, accepts⟩

/-- Something is captured exactly where the pattern accepts something. -/
theorem isSome_capture?_iff :
    (pattern.capture? text).isSome ↔ ∃ captures, pattern.Accepts captures text := by
  rw [← Option.ne_none_iff_isSome, Ne, capture?_eq_none_iff, not_forall_not]

/-- With no gap there is nothing to choose. -/
theorem isGreedy_nil_iff : IsGreedy [] captures text ↔ Accepts [] captures text := by
  refine ⟨IsGreedy.accepts, fun accepts => ⟨accepts, ?_⟩⟩
  intro before capture after other others spelled _
  rw [(accepts_nil_iff.1 accepts).1] at spelled
  simp at spelled

/-- A literal before a pattern leaves the choice to the pattern. -/
theorem isGreedy_literal_iff {character : Character} :
    IsGreedy (.literal character :: pattern) captures text ↔
      ∃ rest, text = character :: rest ∧ pattern.IsGreedy captures rest := by
  constructor
  · rintro ⟨accepts, longest⟩
    obtain ⟨rest, rfl, restAccepts⟩ := accepts_literal_iff.1 accepts
    refine ⟨rest, rfl, restAccepts, ?_⟩
    intro before capture after other others spelled otherAccepts
    exact longest before capture after other others spelled
      (accepts_literal_iff.2 ⟨rest, rfl, otherAccepts⟩)
  · rintro ⟨rest, rfl, accepts, longest⟩
    refine ⟨accepts_literal_iff.2 ⟨rest, rfl, accepts⟩, ?_⟩
    intro before capture after other others spelled otherAccepts
    obtain ⟨_, ⟨⟩, otherAccepts⟩ := accepts_literal_iff.1 otherAccepts
    exact longest before capture after other others spelled otherAccepts

/-- A gap before a pattern gets as much as it can, and then the pattern chooses. -/
theorem isGreedy_gap_iff {placeholder : Placeholder} :
    IsGreedy (.gap placeholder :: pattern) captures text ↔
      ∃ capture others rest, captures = capture :: others ∧ text = capture ++ rest ∧
        capture ≠ [] ∧ pattern.IsGreedy others rest ∧
        ∀ longer left, text = longer ++ left → capture.length < longer.length →
          ∀ captures, ¬pattern.Accepts captures left := by
  constructor
  · rintro ⟨accepts, longest⟩
    obtain ⟨capture, others, rest, rfl, rfl, notEmpty, restAccepts⟩ := accepts_gap_iff.1 accepts
    refine ⟨capture, others, rest, rfl, rfl, notEmpty, ⟨restAccepts, ?_⟩, ?_⟩
    · intro before next after other more spelled otherAccepts
      have sameCaptures : capture :: others = (capture :: before) ++ next :: after := by
        rw [spelled, List.cons_append]
      refine longest (capture :: before) next after other more sameCaptures ?_
      exact accepts_gap_iff.2
        ⟨capture, before ++ other :: more, rest, rfl, rfl, notEmpty, otherAccepts⟩
    · intro longer left split isLonger more otherAccepts
      have longerNotEmpty := List.ne_nil_of_length_pos (Nat.zero_lt_of_lt isLonger)
      refine absurd (longest [] capture others longer more rfl ?_) (Nat.not_le_of_lt isLonger)
      exact accepts_gap_iff.2 ⟨longer, more, left, rfl, split, longerNotEmpty, otherAccepts⟩
  · rintro ⟨capture, others, rest, rfl, rfl, notEmpty, ⟨accepts, longest⟩, noLonger⟩
    refine ⟨accepts_gap_iff.2 ⟨capture, others, rest, rfl, rfl, notEmpty, accepts⟩, ?_⟩
    intro before next after other more spelled otherAccepts
    obtain ⟨first, later, left, sameCaptures, split, _, otherAccepts⟩ :=
      accepts_gap_iff.1 otherAccepts
    cases before with
    | nil =>
      cases spelled
      cases sameCaptures
      exact Nat.not_lt.1 fun isLonger => noLonger other left split isLonger more otherAccepts
    | cons _ before =>
      cases spelled
      cases sameCaptures
      rw [List.append_cancel_left split] at longest
      exact longest before next after other more rfl otherAccepts

/-- What is captured is the greedy way in which the pattern accepts the text. -/
theorem capture?_eq_some_iff :
    pattern.capture? text = some captures ↔ pattern.IsGreedy captures text := by
  induction pattern generalizing captures text with
  | nil =>
    rw [isGreedy_nil_iff, accepts_nil_iff, capture?]
    split
    · next ended => simp [ended, eq_comm]
    · next goesOn => simp [goesOn]
  | cons piece pattern inductionHypothesis =>
    cases piece with
    | literal expected =>
      rw [isGreedy_literal_iff]
      cases text with
      | nil => simp [capture?]
      | cons character rest =>
        rw [capture?]
        split
        · next same =>
          rw [inductionHypothesis, same]
          simp
        · next different => simp [different]
    | gap placeholder =>
      rw [capture?, Option.map_eq_some_iff, isGreedy_gap_iff]
      constructor
      · rintro ⟨⟨capture, others⟩, found, rfl⟩
        obtain ⟨rest, split, notEmpty, captured, longest⟩ := longestCapture?_eq_some_iff.1 found
        refine ⟨capture, others, rest, rfl, split, notEmpty, inductionHypothesis.1 captured, ?_⟩
        intro longer left longerSplit isLonger
        exact capture?_eq_none_iff.1 (longest longer left longerSplit isLonger)
      · rintro ⟨capture, others, rest, rfl, split, notEmpty, isGreedy, noLonger⟩
        refine ⟨(capture, others), longestCapture?_eq_some_iff.2 ?_, rfl⟩
        refine ⟨rest, split, notEmpty, inductionHypothesis.2 isGreedy, ?_⟩
        intro longer left longerSplit isLonger
        exact capture?_eq_none_iff.2 (noLonger longer left longerSplit isLonger)

end VerbExpansion.Pattern
