import VerbExpansion.Proofs.Token.Unbroken

/-!
# Texts whose shell words are unbroken

Between the single quotes of its shell word a text is looked at as it is where a run has ended inside
of the word. A resilient text gives no token a reason to end there for good. Its shell word is
unbroken (`IsResilient.isUnbroken_quote`).
-/

namespace VerbExpansion

namespace Token

/-- What a text must be like for its shell word to come out whole, whatever stands around the word. -/
structure IsResilient (text : Text) : Prop where
  /-- Up to the closing quote of the word, each blank is one space after which a bare token starts. -/
  alone : SpacesAlone text [.scalar '\'']
  /-- No double quote in the word closes a quoted part that goes on behind the opening quote. -/
  unclosed : closeQuoted? .paired none (text.flatMap Shell.singleQuoted ++ [.scalar '\'']) = none

instance (text : Text) : Decidable (IsResilient text) :=
  decidable_of_iff (SpacesAlone text [.scalar '\''] ∧
      closeQuoted? .paired none (text.flatMap Shell.singleQuoted ++ [.scalar '\'']) = none)
    ⟨fun conditions => ⟨conditions.1, conditions.2⟩, fun resilient => ⟨resilient.1, resilient.2⟩⟩

/-! ## Spaces that stand alone -/

theorem SpacesAlone.cons {character : Character} {text rest : Text}
    (notBlank : Text.isBlank character = false) (alone : SpacesAlone text rest) :
    SpacesAlone (character :: text) rest :=
  ⟨fun blank => absurd (notBlank.symm.trans blank) Bool.false_ne_true, alone⟩

theorem spacesAlone_of_not_isBlank {text : Text}
    (blankless : ∀ character ∈ text, Text.isBlank character = false) (rest : Text) :
    SpacesAlone text rest := by
  induction text with
  | nil => trivial
  | cons character text inductionHypothesis =>
    have restBlankless : ∀ other ∈ text, Text.isBlank other = false :=
      fun other member => blankless other (List.mem_cons_of_mem _ member)
    exact (inductionHypothesis restBlankless).cons (blankless character List.mem_cons_self)

theorem SpacesAlone.append {text more rest : Text} (first : SpacesAlone text (more ++ rest))
    (second : SpacesAlone more rest) : SpacesAlone (text ++ more) rest := by
  induction text with
  | nil => exact second
  | cons character text inductionHypothesis =>
    rw [List.cons_append]
    refine ⟨?_, inductionHypothesis first.2⟩
    rw [List.append_assoc]
    exact first.1

/-- What stands between single quotes starts as the text does. -/
theorem startsBare_singleQuoted (text : Text) (next : Character) (rest other : Text) :
    startsBare (text.flatMap Shell.singleQuoted ++ next :: rest) =
      startsBare (text ++ next :: other) := by
  cases text with
  | nil => rfl
  | cons character text =>
    by_cases single : character = '\''
    · subst single
      rfl
    · rw [List.flatMap_cons, singleQuoted_of_ne single]
      rfl

/-- Spaces that stand alone do so between single quotes. -/
theorem SpacesAlone.flatMap_singleQuoted {text rest : Text} {next : Character}
    (alone : SpacesAlone text (next :: rest)) (other : Text) :
    SpacesAlone (text.flatMap Shell.singleQuoted) (next :: other) := by
  induction text with
  | nil => trivial
  | cons character text inductionHypothesis =>
    rw [List.flatMap_cons]
    refine SpacesAlone.append ?_ (inductionHypothesis alone.2)
    by_cases single : character = '\''
    · subst single
      exact spacesAlone_of_not_isBlank (by decide) _
    · rw [singleQuoted_of_ne single]
      refine ⟨fun blank => ?_, trivial⟩
      rw [List.nil_append, startsBare_singleQuoted text next other rest]
      exact alone.1 blank

/-! ## Quoted parts that are not closed -/

/-- A quoted part that is cut takes any character but a double quote. -/
theorem exists_eq_cons_of_closeQuoted? {awaited : Option Character} {character : Character}
    {text inner left : Text} (notDouble : character ≠ '"')
    (closed : closeQuoted? .paired awaited (character :: text) = some (inner, left)) :
    ∃ more, inner = character :: more := by
  cases awaited with
  | some mark =>
    rw [closeQuoted?_awaiting] at closed
    obtain ⟨more, same, _⟩ := exists_of_map_behind closed
    exact ⟨more, same⟩
  | none =>
    rw [closeQuoted?_of_ne notDouble] at closed
    obtain ⟨more, same, _⟩ := exists_of_map_behind closed
    exact ⟨more, same⟩

/-- A run goes on over a text in which its last quote does not occur. -/
theorem prefix_of_notMem {mark : Character} {text rest inner left : Text} (notMem : mark ∉ text)
    (closed : closeQuoted? .paired (some mark) (text ++ rest) = some (inner, left)) :
    text <+: inner := by
  induction text generalizing inner with
  | nil => exact List.nil_prefix
  | cons character text inductionHypothesis =>
    have goesOn : character ≠ mark := (List.ne_of_not_mem_cons notMem).symm
    rw [List.cons_append, closeQuoted?_going goesOn] at closed
    obtain ⟨more, rfl, found⟩ := exists_of_map_behind closed
    exact (List.prefix_cons_inj character).2
      (inductionHypothesis (List.not_mem_of_not_mem_cons notMem) found)

/-- The runs in front of a single quote do not depend on what follows the quote. -/
theorem quotedRun?_append_single (character first : Character) (text rest : Text) :
    InnerQuotes.paired.quotedRun? character (first :: text ++ .scalar '\'' :: rest) =
      InnerQuotes.paired.quotedRun? character (first :: text ++ [.scalar '\'']) := by
  cases text <;> simp [InnerQuotes.quotedRun?]

/-- A quoted part that is open up to a single quote goes on over it, whatever follows. -/
theorem prefix_of_unclosed {awaited : Option Character} {text rest inner left : Text}
    (opened : closeQuoted? .paired awaited (text ++ [.scalar '\'']) = none)
    (closed : closeQuoted? .paired awaited (text ++ .scalar '\'' :: rest) = some (inner, left)) :
    text ++ [.scalar '\''] <+: inner := by
  induction text generalizing awaited inner with
  | nil =>
    obtain ⟨more, rfl⟩ := exists_eq_cons_of_closeQuoted? single_ne_double closed
    exact ⟨more, rfl⟩
  | cons character text inductionHypothesis =>
    rw [List.cons_append] at opened closed
    cases awaited with
    | some mark =>
      rw [closeQuoted?_awaiting] at opened closed
      obtain ⟨more, rfl, found⟩ := exists_of_map_behind closed
      exact (List.prefix_cons_inj character).2
        (inductionHypothesis (Option.map_eq_none_iff.1 opened) found)
    | none =>
      have sameEnd : endsHere (text ++ .scalar '\'' :: rest) =
          endsHere (text ++ [.scalar '\'']) := by
        cases text <;> rfl
      have goesOn : ¬ (character = '"' ∧ endsHere (text ++ [.scalar '\'']) = true) := by
        rintro ⟨rfl, ends⟩
        rw [closeQuoted?, if_pos (by simp [ends])] at opened
        cases opened
      rw [closeQuoted?_of_not_closing goesOn] at opened
      rw [closeQuoted?_of_not_closing (sameEnd ▸ goesOn)] at closed
      obtain ⟨more, rfl, found⟩ := exists_of_map_behind closed
      refine (List.prefix_cons_inj character).2 ?_
      cases text with
      | nil =>
        obtain ⟨more, spelled⟩ := exists_eq_cons_of_closeQuoted? single_ne_double found
        exact ⟨more, spelled.symm⟩
      | cons first text =>
        rw [quotedRun?_append_single] at found
        exact inductionHypothesis (Option.map_eq_none_iff.1 opened) found

/-- A double quote that is no run and closes nothing is passed over. -/
theorem closeQuoted?_double {first : Character} {rest : Text} (notBlank : Text.isBlank first = false)
    (noRun : first = '\'' → ∀ more, rest ≠ .scalar '"' :: more) :
    closeQuoted? .paired none (.scalar '"' :: first :: rest) =
      (closeQuoted? .paired none (first :: rest)).map (behind [.scalar '"']) := by
  have spelled : InnerQuotes.paired.quotedRun? '"' (first :: rest) = none := by
    cases rest with
    | nil => simp [InnerQuotes.quotedRun?]
    | cons second rest => simpa [InnerQuotes.quotedRun?] using noRun
  rw [closeQuoted?_of_not_closing, spelled]
  rintro ⟨_, ends⟩
  rw [show endsHere (first :: rest) = Text.isBlank first from rfl, notBlank] at ends
  cases ends

/-- Between single quotes a text starts with a double quote only if it does so itself. -/
theorem exists_eq_cons_of_flatMap_singleQuoted {text rest more : Text}
    (spelled : text.flatMap Shell.singleQuoted ++ .scalar '\'' :: rest = .scalar '"' :: more) :
    ∃ inner, text = .scalar '"' :: inner := by
  cases text with
  | nil =>
    exact absurd (List.cons.inj spelled).1 single_ne_double
  | cons character text =>
    by_cases single : character = '\''
    · subst single
      exact absurd (List.cons.inj spelled).1 single_ne_double
    · rw [List.flatMap_cons, singleQuoted_of_ne single] at spelled
      exact ⟨text, by rw [(List.cons.inj spelled).1]⟩

/-- Where a quoted part is open behind a double quote and what follows it, it is so without the
double quote. -/
theorem closeQuoted?_eq_none_of_double : ∀ {text : Text},
    closeQuoted? .paired none
      (.scalar '"' :: (text.flatMap Shell.singleQuoted ++ [.scalar '\''])) = none →
    closeQuoted? .paired none (text.flatMap Shell.singleQuoted ++ [.scalar '\'']) = none
  | [], _ => rfl
  | character :: text, opened => by
    by_cases single : character = '\''
    · subst single
      simp only [List.flatMap_cons, singleQuoted_single, List.cons_append, List.nil_append,
        closeQuoted?_doubleRun, closeQuoted?_singleRun, Option.map_eq_none_iff] at opened ⊢
      by_cases double : ∃ inner, text = .scalar '"' :: inner
      · obtain ⟨inner, rfl⟩ := double
        rw [List.flatMap_cons, singleQuoted_of_ne double_ne_single] at opened ⊢
        rw [List.singleton_append, List.cons_append] at opened ⊢
        rw [closeQuoted?_doubleRun, closeQuoted?_eq_none_of_double opened, Option.map_none]
      · rw [closeQuoted?_double isBlank_single fun _ more spelled =>
          double (exists_eq_cons_of_flatMap_singleQuoted spelled), Option.map_eq_none_iff]
        have opened := (isSealed_singleQuoted text).quoted []
        rwa [List.append_nil] at opened
    · rw [List.flatMap_cons, singleQuoted_of_ne single, List.singleton_append, List.cons_append]
        at opened ⊢
      cases blank : Text.isBlank character with
      | false =>
        rwa [closeQuoted?_double blank fun isSingle => absurd isSingle single,
          Option.map_eq_none_iff] at opened
      | true =>
        rw [closeQuoted?, if_pos (by simp [endsHere, blank])] at opened
        cases opened

/-! ## Shell words -/

/-- A text without blanks and quotes is unbroken. -/
theorem isUnbroken_of_isBare {word : Text} (isBare : Shell.IsBare word) : IsUnbroken word := by
  have notSingle : .scalar '\'' ∉ word := fun member => (isBare.ordinary _ member).2.1 rfl
  have notDouble : .scalar '"' ∉ word := fun member => (isBare.ordinary _ member).2.2 rfl
  refine ⟨fun rest => ?_,
    spacesAlone_of_not_isBlank fun character member => (isBare.ordinary character member).1,
    fun {awaited rest inner left} runs closed => ?_⟩
  · cases word with
    | nil => exact absurd rfl isBare.notEmpty
    | cons first word =>
      obtain ⟨notBlank, _, notDouble⟩ := isBare.ordinary first List.mem_cons_self
      simp [startsBare, notBlank, notDouble]
  · generalize spelled : word ++ rest = text at runs
    cases runs with
    | outside => exact (isSealed_of_isBare isBare).quoted.isPrefix closed
    | single => exact prefix_of_notMem notSingle closed
    | opening | closing => exact prefix_of_notMem notDouble closed

/-- The shell word of a resilient text is unbroken where it has quotes. -/
theorem IsResilient.isUnbroken_singleQuoted {text : Text} (resilient : IsResilient text) :
    IsUnbroken (.scalar '\'' :: text.flatMap Shell.singleQuoted ++ [.scalar '\'']) := by
  refine ⟨fun rest => rfl, fun rest => ?_, fun {awaited rest inner left} runs closed => ?_⟩
  · have opening : SpacesAlone (.scalar '\'' :: text.flatMap Shell.singleQuoted)
        (.scalar '\'' :: rest) :=
      (resilient.alone.flatMap_singleQuoted rest).cons isBlank_single
    exact opening.append (spacesAlone_of_not_isBlank (by decide) rest)
  · have opened := resilient.unclosed
    have regrouped : (.scalar '\'' :: text.flatMap Shell.singleQuoted ++ [.scalar '\'']) ++ rest =
        .scalar '\'' :: (text.flatMap Shell.singleQuoted ++ .scalar '\'' :: rest) := by simp
    generalize spelled : .scalar '\'' :: (text.flatMap Shell.singleQuoted ++ .scalar '\'' :: rest) =
      whole at regrouped
    rw [regrouped] at runs closed
    cases runs with
    | outside =>
      rw [← regrouped] at closed
      exact (isSealed_singleQuoted text).quoted.isPrefix closed
    | single =>
      rw [← spelled, closeQuoted?_ending] at closed
      obtain ⟨more, rfl, found⟩ := exists_of_map_behind closed
      exact (List.prefix_cons_inj _).2 (prefix_of_unclosed opened found)
    | opening more =>
      -- The quote of the word is the one between two double quotes, so that the text starts with one.
      obtain ⟨inner, rfl⟩ := exists_eq_cons_of_flatMap_singleQuoted (List.cons.inj spelled).2
      rw [List.flatMap_cons, singleQuoted_of_ne double_ne_single, List.singleton_append,
        List.cons_append] at opened spelled ⊢
      rw [← spelled, closeQuoted?_going single_ne_double, closeQuoted?_ending, Option.map_map]
        at closed
      obtain ⟨cut, found, same⟩ := Option.map_eq_some_iff.1 closed
      cases same
      have goesOn := prefix_of_unclosed (closeQuoted?_eq_none_of_double opened) found
      exact (List.prefix_cons_inj _).2 ((List.prefix_cons_inj _).2 goesOn)
    | closing => exact absurd (List.cons.inj spelled).1 single_ne_double

/-- The shell word of a resilient text is unbroken. -/
theorem IsResilient.isUnbroken_quote {text : Text} (resilient : IsResilient text) :
    IsUnbroken (Shell.quote text) := by
  rcases Shell.quote_eq_or text with ⟨unchanged, isBare, _⟩ | quoted
  · rw [unchanged]
    exact isUnbroken_of_isBare isBare
  · rw [quoted]
    exact resilient.isUnbroken_singleQuoted

end Token

end VerbExpansion
