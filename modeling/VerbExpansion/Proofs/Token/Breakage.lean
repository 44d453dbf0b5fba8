import VerbExpansion.Proofs.Token.Resilience

/-!
# Words that are broken by what stands around them

A text that is not resilient has a shell word that does not come out of every line whole
(`exists_not_infix_joined`): a quote or two around the word are enough. Which ones break it depends on
the text, as each quote of the text ends a run or starts one.
-/

namespace VerbExpansion

namespace Token

/-! ## The first space that does not stand alone -/

theorem exists_eq_append_of_not_spacesAlone {text rest : Text} (crowded : ¬ SpacesAlone text rest) :
    ∃ before blank after, text = before ++ blank :: after ∧
      SpacesAlone before (blank :: (after ++ rest)) ∧ Text.isBlank blank = true ∧
      ¬ (blank = ' ' ∧ startsBare (after ++ rest) = true) := by
  induction text with
  | nil => exact absurd trivial crowded
  | cons character text inductionHypothesis =>
    by_cases alone : Text.isBlank character = true →
        character = ' ' ∧ startsBare (text ++ rest) = true
    · obtain ⟨before, blank, after, rfl, first, isBlank, crowds⟩ :=
        inductionHypothesis fun others => crowded ⟨alone, others⟩
      refine ⟨character :: before, blank, after, rfl, ⟨?_, first⟩, isBlank, crowds⟩
      rwa [List.append_assoc, List.cons_append] at alone
    · obtain ⟨isBlank, crowds⟩ := Classical.not_imp.1 alone
      exact ⟨[], character, text, rfl, trivial, isBlank, crowds⟩

/-! ## The run in which it is reached -/

section Runs

variable {mark : Character} {rest : Text}

theorem runAfter_of_mem (isQuote : mark = '\'' ∨ mark = '"') (partner : mark ∈ rest) (text : Text) :
    runAfter none (mark :: text) rest = runAfter (some mark) text rest := by
  rw [runAfter, InnerQuotes.bareRun?_of_mem isQuote (List.mem_append_right _ partner)]

theorem runAfter_of_ne {character : Character} (notSingle : character ≠ '\'')
    (notDouble : character ≠ '"') (text : Text) :
    runAfter none (character :: text) rest = runAfter none text rest := by
  rw [runAfter, InnerQuotes.bareRun?_of_ne notSingle notDouble]

theorem runAfter_ending (mark : Character) (text rest : Text) :
    runAfter (some mark) (mark :: text) rest = runAfter none text rest := by
  rw [runAfter, if_pos (beq_self_eq_true mark)]

theorem runAfter_going {character : Character} (goesOn : character ≠ mark) (text : Text) :
    runAfter (some mark) (character :: text) rest = runAfter (some mark) text rest := by
  rw [runAfter, if_neg (by simpa using goesOn)]

/-- Between single quotes, each quote of a text ends a run of double quotes or starts one. Where both
kinds of quotes follow, one of two bare tokens is outside of a run behind the text: the one that was
outside of a run before it, or the one that was in a run of double quotes. -/
theorem runAfter_singleQuoted (single : .scalar '\'' ∈ rest) (double : .scalar '"' ∈ rest)
    (text : Text) :
    runAfter none (text.flatMap Shell.singleQuoted) rest = none ∧
        runAfter (some '"') (text.flatMap Shell.singleQuoted) rest = some '"' ∨
      runAfter none (text.flatMap Shell.singleQuoted) rest = some '"' ∧
        runAfter (some '"') (text.flatMap Shell.singleQuoted) rest = none := by
  induction text with
  | nil => exact .inl ⟨rfl, rfl⟩
  | cons character text inductionHypothesis =>
    rw [List.flatMap_cons]
    by_cases isSingle : character = '\''
    · subst isSingle
      simp only [singleQuoted_single, List.cons_append, List.nil_append]
      rw [runAfter_of_mem (.inl rfl) single, runAfter_going double_ne_single,
        runAfter_ending, runAfter_of_mem (.inr rfl) double, runAfter_going single_ne_double,
        runAfter_going single_ne_double, runAfter_ending, runAfter_of_mem (.inl rfl) single,
        runAfter_going double_ne_single, runAfter_ending]
      exact inductionHypothesis.elim (fun runs => .inr runs.symm) (fun runs => .inl runs.symm)
    · rw [singleQuoted_of_ne isSingle, List.singleton_append]
      by_cases isDouble : character = '"'
      · subst isDouble
        rw [runAfter_of_mem (.inr rfl) double, runAfter_ending]
        exact inductionHypothesis.elim (fun runs => .inr runs.symm) (fun runs => .inl runs.symm)
      · rw [runAfter_of_ne isSingle isDouble, runAfter_going isDouble]
        exact inductionHypothesis

end Runs

/-! ## What is lost behind it -/

/-- What is put behind a word so that a quoted part is closed. -/
def closing : Text :=
  [.scalar 'x', .scalar '"']

/-- A run that starts in a text is over before this. -/
theorem mem_of_quotedRun?_eq_some {character mark : Character} {text : Text}
    (starts : InnerQuotes.paired.quotedRun? character (text ++ closing) = some mark) :
    mark ∈ text := by
  rw [InnerQuotes.quotedRun?] at starts
  split at starts
  · next single =>
    cases starts
    have member := List.contains_iff_mem.1 (Bool.and_eq_true_iff.1 single).2
    exact (List.mem_append.1 member).resolve_right (by decide)
  · split at starts
    · next between =>
      cases starts
      have taken := eq_of_beq (Bool.and_eq_true_iff.1 between).2
      cases text with
      | nil => exact absurd taken (by decide)
      | cons first text =>
        cases text with
        | nil => exact absurd (List.cons.inj (List.cons.inj taken).2).1 (by decide)
        | cons second text =>
          obtain ⟨rfl, _⟩ := List.cons.inj (List.cons.inj taken).2
          simp
    · cases starts

/-- A quoted part is closed by the double quote at the end, if not before. -/
theorem closeQuoted?_ne_none {awaited : Option Character} {text : Text}
    (ends : ∀ mark ∈ awaited, mark ∈ text) :
    closeQuoted? .paired awaited (text ++ closing) ≠ none := by
  induction text generalizing awaited with
  | nil =>
    cases awaited with
    | none => decide
    | some mark => exact absurd (ends mark rfl) List.not_mem_nil
  | cons character text inductionHypothesis =>
    rw [List.cons_append]
    cases awaited with
    | some mark =>
      rw [closeQuoted?_awaiting, ne_eq, Option.map_eq_none_iff]
      apply inductionHypothesis
      split
      · simp
      · next goesOn =>
        rintro _ ⟨⟩
        have different : character ≠ mark := by simpa using goesOn
        exact (List.mem_cons.1 (ends mark rfl)).resolve_left different.symm
    | none =>
      by_cases closes : character = '"' ∧ endsHere (text ++ closing) = true
      · rw [closeQuoted?, if_pos (by simp [closes])]
        exact Option.some_ne_none _
      · rw [closeQuoted?_of_not_closing closes, ne_eq, Option.map_eq_none_iff]
        exact inductionHypothesis fun mark starts => mem_of_quotedRun?_eq_some starts

section Losses

/-- Whether the character is a blank other than the space. -/
def isOddBlank (character : Character) : Bool :=
  Text.isBlank character && character != ' '

/-- Whether the character is a double quote. -/
def isDouble (character : Character) : Bool :=
  character == '"'

variable {blank : Character}

/-- A blank that is no space is not joined again. -/
theorem countP_joinedRest_lt_of_isOddBlank (isOdd : isOddBlank blank = true) (text : Text) :
    (joinedRest (text ++ .scalar '\'' :: closing)).countP isOddBlank <
      (blank :: (text ++ [.scalar '\''])).countP isOddBlank := by
  have bound := countP_joinedRest_le_add isOddBlank
    (fun isCounted => absurd isCounted (by decide)) (text ++ .scalar '\'' :: closing)
  have suffixNone : (.scalar '\'' :: closing).countP isOddBlank = 0 := by decide
  rw [if_neg (by decide), List.countP_append, suffixNone] at bound
  rw [List.countP_cons, List.countP_append, if_pos isOdd]
  omega

/-- Of two blanks, one space is joined again. -/
theorem countP_joinedRest_lt_of_isBlank {next : Character} (isBlank : Text.isBlank blank = true)
    (nextIsBlank : Text.isBlank next = true) (text : Text) :
    (joinedRest (next :: (text ++ .scalar '\'' :: closing))).countP Text.isBlank <
      (blank :: next :: (text ++ [.scalar '\''])).countP Text.isBlank := by
  have bound := countP_joinedRest_le_add Text.isBlank (fun _ _ isBlank => isBlank)
    (text ++ .scalar '\'' :: closing)
  have suffixNone : (.scalar '\'' :: closing).countP Text.isBlank = 0 := by decide
  rw [if_pos (by decide), List.countP_append, suffixNone] at bound
  rw [joinedRest_cons_of_isBlank nextIsBlank, List.countP_cons, List.countP_cons,
    List.countP_append, if_pos isBlank, if_pos nextIsBlank]
  omega

/-- Where a quoted part is closed, two double quotes are lost. -/
theorem countP_joined_double_lt {text inner left : Text}
    (closed : closeQuoted? .paired none text = some (inner, left)) :
    (joined .paired (.scalar '"' :: text)).countP isDouble < text.countP isDouble := by
  have bound := countP_joinedRest_le_add isDouble
    (fun isCounted => absurd isCounted (by decide)) left
  rw [if_neg (by decide)] at bound
  rw [joined_cons_of_closeQuoted? closed, eq_append_of_closeQuoted? closed, List.countP_append,
    List.countP_append, List.countP_cons, if_pos (by decide)]
  omega

/-- A double quote behind a blank opens a quoted part, and is lost with the quote that closes it. -/
theorem countP_joinedRest_lt_of_double (blank : Character) (text : Text) :
    (joinedRest (.scalar '"' :: (text ++ .scalar '\'' :: closing))).countP isDouble <
      (blank :: .scalar '"' :: (text ++ [.scalar '\''])).countP isDouble := by
  have spelled : text ++ .scalar '\'' :: closing = (text ++ [.scalar '\'']) ++ closing := by simp
  have isClosed : closeQuoted? .paired none ((text ++ [.scalar '\'']) ++ closing) ≠ none :=
    closeQuoted?_ne_none (by simp)
  obtain ⟨⟨inner, left⟩, closed⟩ := Option.ne_none_iff_exists'.1 isClosed
  have lost := countP_joined_double_lt closed
  have added := countP_joinedRest_le isDouble (.scalar '"' :: (text ++ .scalar '\'' :: closing))
  have closingOne : closing.countP isDouble = 1 := by decide
  have doubleOne : isDouble '"' = true := by decide
  rw [List.countP_append, closingOne] at lost
  rw [if_neg (by decide), spelled] at added
  rw [spelled, List.countP_cons, List.countP_cons, if_pos doubleOne]
  omega

/-- Where a token ends at a space that does not stand alone, some kind of character is lost, whatever
the quotes behind it do. -/
theorem exists_countP_joinedRest_lt {after : Text} (isBlank : Text.isBlank blank = true)
    (crowds : ¬ (blank = ' ' ∧ startsBare (after ++ [.scalar '\'']) = true)) :
    ∃ counted : Character → Bool, counted '\'' = false ∧
      (joinedRest (after.flatMap Shell.singleQuoted ++ .scalar '\'' :: closing)).countP counted <
        (blank :: (after.flatMap Shell.singleQuoted ++ [.scalar '\''])).countP counted := by
  by_cases space : blank = ' '
  · cases after with
    | nil => exact absurd ⟨space, rfl⟩ crowds
    | cons next after =>
      have crowded : ¬ startsBare (next :: after ++ [.scalar '\'']) = true :=
        fun starts => crowds ⟨space, starts⟩
      have notSingle : next ≠ '\'' := by
        rintro rfl
        exact crowded rfl
      rw [List.flatMap_cons, singleQuoted_of_ne notSingle, List.singleton_append, List.cons_append]
      cases nextIsBlank : Text.isBlank next with
      | true => exact ⟨Text.isBlank, by decide, countP_joinedRest_lt_of_isBlank isBlank nextIsBlank _⟩
      | false =>
        by_cases double : next = '"'
        · subst double
          exact ⟨isDouble, by decide, countP_joinedRest_lt_of_double blank _⟩
        · exact absurd (by simp [startsBare, nextIsBlank, double]) crowded
  · have isOdd : isOddBlank blank = true := by simp [isOddBlank, isBlank, space]
    exact ⟨isOddBlank, by decide, countP_joinedRest_lt_of_isOddBlank isOdd _⟩

end Losses

/-! ## Breaking a word -/

/-- What is put in front of a word so that a blank in the word ends a token. What is lost behind the
blank is not made up for by what stands in front. -/
structure IsLead (lead : Text) : Prop where
  starts : ∀ rest, startsBare (lead ++ rest) = true
  blankless : ∀ character ∈ lead, Text.isBlank character = false
  reveals : ∀ {counted : Character → Bool} {word text : Text}, counted '\'' = false →
    text.countP counted < (.scalar '\'' :: word : Text).countP counted →
    ¬ .scalar '\'' :: word <:+: lead ++ text

theorem not_infix_of_countP_lt {counted : Character → Bool} {word text : Text}
    (fewer : text.countP counted < word.countP counted) : ¬ word <:+: text :=
  fun infixOf => Nat.not_lt.2 infixOf.sublist.countP_le fewer

theorem isLead_single : IsLead [.scalar '\''] := by
  refine ⟨fun _ => rfl, by decide, fun {counted word text} notCounted fewer => ?_⟩
  have same : (Character.scalar '\'' :: text).countP counted = text.countP counted := by
    simp [notCounted]
  exact not_infix_of_countP_lt (same ▸ fewer)

theorem isLead_double : IsLead [.scalar 'x', .scalar '"'] := by
  refine ⟨fun _ => rfl, by decide, fun {counted word text} _ fewer infixOf => ?_⟩
  -- The word starts with a single quote, so it does not start in front of its place.
  have dropped : ∀ {character : Character} {text : Text}, character ≠ '\'' →
      .scalar '\'' :: word <:+: character :: text → .scalar '\'' :: word <:+: text := by
    intro character text notSingle infixOf
    refine (List.infix_cons_iff.1 infixOf).resolve_left fun prefixOf => ?_
    exact notSingle (List.cons_prefix_cons.1 prefixOf).1.symm
  exact not_infix_of_countP_lt fewer (dropped (by decide) (dropped (by decide) infixOf))

/-- Where a token ends at a blank behind a text whose spaces stand alone, the text comes out as it
was. -/
theorem joined_append_of_runAfter {text rest : Text} {blank : Character}
    (starts : startsBare (text ++ blank :: rest) = true) (alone : SpacesAlone text (blank :: rest))
    (isBlank : Text.isBlank blank = true) (outside : runAfter none text (blank :: rest) = none) :
    joined .paired (text ++ blank :: rest) = text ++ joinedRest rest := by
  rw [joined_of_startsBare starts, joinedFrom_append alone, outside, joinedFrom_of_isBlank isBlank]

/-- The text in single quotes is broken behind a lead that makes one of its blanks end a token. -/
theorem IsLead.not_infix_joined {lead before after : Text} {blank : Character} (isLead : IsLead lead)
    (alone : SpacesAlone before (blank :: (after ++ [.scalar '\''])))
    (isBlank : Text.isBlank blank = true)
    (crowds : ¬ (blank = ' ' ∧ startsBare (after ++ [.scalar '\'']) = true))
    (outside : runAfter none (lead ++ .scalar '\'' :: before.flatMap Shell.singleQuoted)
      (blank :: (after.flatMap Shell.singleQuoted ++ .scalar '\'' :: closing)) = none) :
    ¬ (.scalar '\'' :: (before ++ blank :: after).flatMap Shell.singleQuoted ++ [.scalar '\'']) <:+:
      joined .paired (lead ++ ((.scalar '\'' :: (before ++ blank :: after).flatMap Shell.singleQuoted ++
        [.scalar '\'']) ++ closing)) := by
  obtain ⟨counted, notSingle, lost⟩ := exists_countP_joinedRest_lt isBlank crowds
  have blankNotSingle : blank ≠ '\'' := Text.ne_of_isBlank isBlank isBlank_single
  have word : .scalar '\'' :: (before ++ blank :: after).flatMap Shell.singleQuoted ++
      [.scalar '\''] = .scalar '\'' :: (before.flatMap Shell.singleQuoted ++
        (blank :: (after.flatMap Shell.singleQuoted ++ [.scalar '\'']))) := by
    simp [singleQuoted_of_ne blankNotSingle]
  have whole : lead ++ ((.scalar '\'' :: (before ++ blank :: after).flatMap Shell.singleQuoted ++
      [.scalar '\'']) ++ closing) = (lead ++ .scalar '\'' :: before.flatMap Shell.singleQuoted) ++
        blank :: (after.flatMap Shell.singleQuoted ++ .scalar '\'' :: closing) := by
    simp [singleQuoted_of_ne blankNotSingle]
  have spaces : SpacesAlone (lead ++ .scalar '\'' :: before.flatMap Shell.singleQuoted)
      (blank :: (after.flatMap Shell.singleQuoted ++ .scalar '\'' :: closing)) := by
    have quotedSpaces := (alone.flatMap_singleQuoted
      (after.flatMap Shell.singleQuoted ++ .scalar '\'' :: closing)).cons isBlank_single
    exact (spacesAlone_of_not_isBlank isLead.blankless _).append quotedSpaces
  rw [whole, word, joined_append_of_runAfter (by rw [List.append_assoc]; exact isLead.starts _) spaces
    isBlank outside, List.append_assoc]
  refine isLead.reveals notSingle ?_
  rw [List.cons_append, List.countP_cons, List.countP_cons, List.countP_append, List.countP_append]
  omega

/-- A text that has a space that does not stand alone is broken behind a single quote, or else behind
a double quote. -/
theorem exists_not_infix_joined_of_not_spacesAlone {text : Text}
    (crowded : ¬ SpacesAlone text [.scalar '\'']) :
    ∃ lead : Text, .scalar '{' ∉ lead ∧
      ¬ (.scalar '\'' :: text.flatMap Shell.singleQuoted ++ [.scalar '\'']) <:+:
        joined .paired (lead ++
          ((.scalar '\'' :: text.flatMap Shell.singleQuoted ++ [.scalar '\'']) ++ closing)) := by
  obtain ⟨before, blank, after, rfl, alone, isBlank, crowds⟩ :=
    exists_eq_append_of_not_spacesAlone crowded
  have single : .scalar '\'' ∈
      blank :: (after.flatMap Shell.singleQuoted ++ .scalar '\'' :: closing) := by simp
  have double : .scalar '"' ∈
      blank :: (after.flatMap Shell.singleQuoted ++ .scalar '\'' :: closing) := by simp [closing]
  rcases runAfter_singleQuoted single double before with ⟨outside, _⟩ | ⟨_, outside⟩
  · refine ⟨_, by decide, isLead_single.not_infix_joined alone isBlank crowds ?_⟩
    rw [List.singleton_append, runAfter_of_mem (.inl rfl) single, runAfter_ending, outside]
  · refine ⟨_, by decide, isLead_double.not_infix_joined alone isBlank crowds ?_⟩
    rw [List.cons_append, List.singleton_append, runAfter_of_ne (by decide) (by decide),
      runAfter_of_mem (.inr rfl) double, runAfter_going single_ne_double, outside]

/-- A text in which a quoted part is closed has its shell word broken where a quoted part starts in
front of the word, and a run of single quotes in it. -/
theorem not_infix_joined_of_closeQuoted? {text inner left : Text}
    (closed : closeQuoted? .paired none (text.flatMap Shell.singleQuoted ++ [.scalar '\'']) =
      some (inner, left)) :
    ¬ (.scalar '\'' :: text.flatMap Shell.singleQuoted ++ [.scalar '\'']) <:+:
      joined .paired ([.scalar '"', .scalar '\''] ++
        (.scalar '\'' :: text.flatMap Shell.singleQuoted ++ [.scalar '\''])) := by
  have lost : closeQuoted? .paired none (.scalar '\'' :: .scalar '\'' ::
      (text.flatMap Shell.singleQuoted ++ [.scalar '\''])) =
        some (.scalar '\'' :: .scalar '\'' :: inner, left) := by
    rw [closeQuoted?_of_ne single_ne_double, InnerQuotes.quotedRun?_of_mem (by simp),
      closeQuoted?_ending, closed]
    rfl
  have fewer := countP_joined_double_lt lost
  exact not_infix_of_countP_lt fewer

/-- A text without blanks and quotes is resilient. -/
theorem isResilient_of_isBare {text : Text} (isBare : Shell.IsBare text) : IsResilient text := by
  refine ⟨spacesAlone_of_not_isBlank (fun character member => ?_) _, ?_⟩
  · exact (isBare.ordinary character member).1
  · rw [Option.eq_none_iff_forall_ne_some]
    rintro ⟨inner, left⟩ closed
    have double : .scalar '"' ∈ text.flatMap Shell.singleQuoted ++ [.scalar '\''] := by
      rw [eq_append_of_closeQuoted? closed]
      simp
    obtain ⟨character, member, inWritten⟩ :=
      List.mem_flatMap.1 ((List.mem_append.1 double).resolve_right (by decide))
    obtain ⟨_, notSingle, notDouble⟩ := isBare.ordinary character member
    rw [singleQuoted_of_ne notSingle] at inWritten
    exact notDouble (List.mem_singleton.1 inWritten).symm

/-- A text that is not resilient has a shell word that is broken by what stands around it. -/
theorem exists_not_infix_joined {text : Text} (fragile : ¬ IsResilient text) :
    ∃ before after : Text, .scalar '{' ∉ before ∧ .scalar '{' ∉ after ∧
      ¬ Shell.quote text <:+: joined .paired (before ++ (Shell.quote text ++ after)) := by
  rw [(Shell.quote_eq_or text).resolve_left fun unchanged =>
    fragile (isResilient_of_isBare unchanged.2.1)]
  by_cases alone : SpacesAlone text [.scalar '\'']
  · cases closed : closeQuoted? .paired none
        (text.flatMap Shell.singleQuoted ++ [.scalar '\'']) with
    | none => exact absurd ⟨alone, closed⟩ fragile
    | some cut =>
      refine ⟨[.scalar '"', .scalar '\''], [], by decide, by decide, ?_⟩
      rw [List.append_nil]
      exact not_infix_joined_of_closeQuoted? closed
  · obtain ⟨lead, noBrace, broken⟩ := exists_not_infix_joined_of_not_spacesAlone alone
    exact ⟨lead, closing, noBrace, by decide, broken⟩

end Token

end VerbExpansion
