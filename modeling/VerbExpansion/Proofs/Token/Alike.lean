import VerbExpansion.Proofs.Token.Breakage
import VerbExpansion.Proofs.Token.Unwrapped

/-!
# Texts that are joined alike

A text is cut in one way where quotes inside a token mean nothing, and in another way where they are
paired. Joined again with one space between tokens, both cuts may still be the same line. By the rules
of `CutsAlike` they are (`joined_eq_of_cutsAlike`), and there are no other texts of this kind among those
whose quoted parts start with a word (`joined_eq_iff_of_quotedStartBare`).
-/

namespace VerbExpansion

namespace Token

/-- Whether a text is the same line when quotes inside its tokens are paired, as a rule. -/
inductive CutsAlike : Text → Prop where
  | nil : CutsAlike []
  | blank {character : Character} {rest : Text} (isBlank : Text.isBlank character = true)
      (alike : CutsAlike rest) : CutsAlike (character :: rest)
  /-- The quoted part is closed at the same place. -/
  | quoted {rest inner left : Text} (closed : closeQuoted? .ordinary none rest = some (inner, left))
      (closedPaired : closeQuoted? .paired none rest = some (inner, left)) (alike : CutsAlike left) :
      CutsAlike (.scalar '"' :: rest)
  | unclosed {rest : Text} (opened : closeQuoted? .ordinary none rest = none) :
      CutsAlike (.scalar '"' :: rest)
  /-- The runs in a bare token hold no blanks but single spaces, and what a space leads to is bare. -/
  | bare {text taken left : Text} (starts : startsBare text = true)
      (cut : takeBare .paired none text = (taken, left)) (alone : SpacesAlone taken left)
      (alike : CutsAlike left) : CutsAlike text
  /-- A space inside a run leads to a double quote that nothing closes, and with paired quotes the text
  comes out as it is. -/
  | unclosedInside {text before rest : Text} (starts : startsBare text = true)
      (spelled : text = before ++ .scalar ' ' :: .scalar '"' :: rest)
      (alone : SpacesAlone before (.scalar ' ' :: .scalar '"' :: rest))
      (opened : closeQuoted? .ordinary none rest = none) (kept : joined .paired text = text) :
      CutsAlike text

variable {quotes : InnerQuotes} {text rest inner left : Text}

/-! ## Lines -/

/-- What is joined alike behind something is the same line. -/
theorem joined_eq_of_spacedBehind_eq
    (same : spacedBehind (listOfText .paired text) = spacedBehind (listOfText .ordinary text)) :
    joined .paired text = joined .ordinary text := by
  by_cases noTokens : listOfText .paired text = []
  · rw [noTokens, spacedBehind_nil] at same
    have noOthers : listOfText .ordinary text = [] := by
      by_contra hasTokens
      rw [spacedBehind_listOfText hasTokens] at same
      cases same
    rw [joined, joined, noTokens, noOthers]
  · rw [spacedBehind_listOfText noTokens] at same
    have hasTokens : listOfText .ordinary text ≠ [] := by
      intro noOthers
      rw [noOthers] at same
      cases same
    rw [spacedBehind_listOfText hasTokens] at same
    exact (List.cons.inj same).2

/-! ## Spaces that stand alone -/

/-- Where quotes mean nothing, a text whose spaces stand alone is cut at each of them, and joined again
as it was. -/
theorem exists_takeBare_of_spacesAlone (alone : SpacesAlone text rest) (ends : endsHere rest = true) :
    ∃ first left tokens, takeBare .ordinary none (text ++ rest) = (first, left) ∧
      listOfText .ordinary left = tokens ++ listOfText .ordinary rest ∧
      first ++ spacedBehind tokens = text := by
  induction text with
  | nil => exact ⟨[], rest, [], takeBare_of_endsHere ends, rfl, rfl⟩
  | cons character text inductionHypothesis =>
    obtain ⟨first, left, tokens, cut, listed, spelled⟩ := inductionHypothesis alone.2
    cases blank : Text.isBlank character with
    | false =>
      refine ⟨character :: first, left, tokens, ?_, listed, congrArg (character :: ·) spelled⟩
      rw [List.cons_append, takeBare_of_not_isBlank blank]
      exact congrArg (behind [character]) cut
    | true =>
      obtain ⟨rfl, starts⟩ := alone.1 blank
      refine ⟨[], _, bare first :: tokens, takeBare_of_endsHere blank, ?_, by simp [value, spelled]⟩
      rw [List.cons_append, listOfText_cons_of_isBlank blank, List.cons_append, ← listed]
      exact listOfText_of_startsBare starts cut

/-- The tokens of a text that starts with single spaces between bare tokens, where quotes mean
nothing. -/
theorem exists_listOfText_of_spacesAlone (starts : startsBare (text ++ rest) = true)
    (alone : SpacesAlone text rest) (ends : endsHere rest = true) :
    ∃ token tokens, listOfText .ordinary (text ++ rest) =
        token :: (tokens ++ listOfText .ordinary rest) ∧ token.value ++ spacedBehind tokens = text := by
  obtain ⟨first, left, tokens, cut, listed, spelled⟩ := exists_takeBare_of_spacesAlone alone ends
  exact ⟨bare first, tokens, by rw [listOfText_of_startsBare starts cut, listed], spelled⟩

/-! ## Closing alike -/

/-- Where paired quotes close a part, ordinary ones close it there or before. -/
theorem closeQuoted?_ordinary_of_paired (closed : closeQuoted? .paired none rest = some (inner, left)) :
    closeQuoted? .ordinary none rest = some (inner, left) ∨
      ∃ innerFirst more leftFirst, closeQuoted? .ordinary none rest = some (innerFirst, leftFirst) ∧
        inner = innerFirst ++ .scalar '"' :: more := by
  have spelled := eq_append_of_closeQuoted? closed
  have ends := endsHere_of_closeQuoted? closed
  cases first : closeQuoted? .ordinary none rest with
  | none =>
    have goesOn := closeQuoted?_eq_none_iff.1 first inner left spelled
    rw [List.append_nil, ends] at goesOn
    cases goesOn
  | some cut =>
    obtain ⟨innerFirst, leftFirst⟩ := cut
    obtain ⟨spelledFirst, noneBefore, -⟩ := closeQuoted?_eq_some_iff.1 first
    rw [spelled, List.append_eq_append_iff] at spelledFirst
    rcases spelledFirst with ⟨more, rfl, cut⟩ | ⟨more, rfl, cut⟩
    · cases more with
      | nil =>
        cases cut
        exact .inl (by rw [List.append_nil])
      | cons quote more =>
        obtain ⟨rfl, behindQuote⟩ := List.cons.inj cut
        -- The ordinary quote would have closed where the paired one does.
        have goesOn := noneBefore inner more rfl
        rw [← List.append_eq, ← behindQuote, ends] at goesOn
        cases goesOn
    · cases more with
      | nil =>
        cases cut
        exact .inl (by rw [List.append_nil])
      | cons quote more =>
        obtain ⟨rfl, -⟩ := List.cons.inj cut
        exact .inr ⟨innerFirst, more, _, rfl, rfl⟩

theorem closeQuoted?_paired_eq_none (opened : closeQuoted? .ordinary none rest = none) :
    closeQuoted? .paired none rest = none := by
  cases closed : closeQuoted? .paired none rest with
  | none => rfl
  | some cut =>
    rcases closeQuoted?_ordinary_of_paired closed with same | ⟨_, _, _, before, -⟩
    · cases opened.symm.trans same
    · cases opened.symm.trans before

/-! ## The rules are right -/

/-- What is alike by the rules is joined alike. -/
theorem spacedBehind_eq_of_cutsAlike (alike : CutsAlike text) :
    spacedBehind (listOfText .paired text) = spacedBehind (listOfText .ordinary text) := by
  induction alike with
  | nil => rw [listOfText_nil, listOfText_nil]
  | blank isBlank _ inductionHypothesis =>
    rw [listOfText_cons_of_isBlank isBlank, listOfText_cons_of_isBlank isBlank, inductionHypothesis]
  | quoted closed closedPaired _ inductionHypothesis =>
    rw [listOfText_cons_of_closeQuoted? closed, listOfText_cons_of_closeQuoted? closedPaired,
      spacedBehind_cons, spacedBehind_cons, inductionHypothesis]
  | unclosed opened =>
    rw [listOfText_cons_of_not_closeQuoted? opened,
      listOfText_cons_of_not_closeQuoted? (closeQuoted?_paired_eq_none opened)]
  | bare starts cut alone _ inductionHypothesis =>
    obtain rfl := eq_append_of_takeBare cut
    obtain ⟨token, tokens, listed, spelled⟩ :=
      exists_listOfText_of_spacesAlone starts alone (endsHere_of_takeBare cut)
    rw [listOfText_of_startsBare starts cut, listed, spacedBehind_cons, spacedBehind_cons,
      spacedBehind_append, inductionHypothesis, ← List.append_assoc, spelled]
    rfl
  | @unclosedInside text before rest starts cut alone opened kept =>
    have hasTokens : listOfText .paired text ≠ [] := by
      rw [listOfText_of_startsBare starts (Prod.eta _).symm]
      exact List.cons_ne_nil _ _
    rw [spacedBehind_listOfText hasTokens, kept]
    subst cut
    obtain ⟨token, tokens, listed, spelled⟩ := exists_listOfText_of_spacesAlone starts alone rfl
    rw [listed, listOfText_cons_of_isBlank rfl, listOfText_cons_of_not_closeQuoted? opened,
      spacedBehind_cons, spacedBehind_append, ← List.append_assoc, spelled]
    simp [value]

theorem joined_eq_of_cutsAlike (alike : CutsAlike text) : joined .paired text = joined .ordinary text :=
  joined_eq_of_spacedBehind_eq (spacedBehind_eq_of_cutsAlike alike)

/-! ## Where the rules are all -/

/-- Whether each quoted part that ordinary quotes close starts with a word that is not quoted. -/
def QuotedStartBare (text : Text) : Prop :=
  ∀ inner, quoted inner ∈ listOfText .ordinary text → startsBare inner = true

theorem QuotedStartBare.of_subset {other : Text} (startBare : QuotedStartBare text)
    (subset : listOfText .ordinary other ⊆ listOfText .ordinary text) : QuotedStartBare other :=
  fun inner member => startBare inner (subset member)

/-- A bare token starts with no blank. -/
theorem startsBare_of_bare_mem {word : Text} (member : bare word ∈ listOfText quotes text) :
    startsBare word = true := by
  obtain ⟨before, after, cut⟩ := List.append_of_mem member
  cases isCutBefore_of_listOfText cut with
  | bare _ starts => exact starts

/-- Where quoted parts start with a word, a line with tokens starts with no blank. -/
theorem exists_joined_eq_cons (startBare : QuotedStartBare text)
    (hasTokens : listOfText .ordinary text ≠ []) :
    ∃ first rest, joined .ordinary text = first :: rest ∧ Text.isBlank first = false := by
  have starts : ∀ word rest, startsBare word = true →
      ∃ first more, word ++ rest = first :: more ∧ Text.isBlank first = false := by
    intro word rest startsWord
    cases word with
    | nil => cases startsWord
    | cons first word =>
      simp only [startsBare, Bool.and_eq_true, Bool.not_eq_true'] at startsWord
      exact ⟨first, word ++ rest, rfl, startsWord.1⟩
  obtain ⟨token, tokens, cut⟩ := List.exists_cons_of_ne_nil hasTokens
  have member : token ∈ listOfText .ordinary text := cut ▸ List.mem_cons_self
  rw [joined_eq_append_spacedBehind cut]
  cases token with
  | bare word => exact starts word _ (startsBare_of_bare_mem member)
  | quoted inner => exact starts inner _ (startBare inner member)
  | unclosed rest => exact ⟨_, _, rfl, rfl⟩

/-- A quoted part is no longer seen to be one when it starts with a word. -/
theorem head?_joined_ne_double (startBare : QuotedStartBare (.scalar '"' :: rest))
    (closed : closeQuoted? .ordinary none rest = some (inner, left)) :
    (joined .ordinary (.scalar '"' :: rest)).head? ≠ some (.scalar '"') := by
  have cut := listOfText_cons_of_closeQuoted? closed
  have startsInner := startBare inner (by rw [cut]; exact List.mem_cons_self)
  rw [joined_eq_append_spacedBehind cut]
  cases inner with
  | nil => cases startsInner
  | cons first inner =>
    simp only [startsBare, Bool.and_eq_true, bne_iff_ne, ne_eq] at startsInner
    simpa [value] using startsInner.2

/-- A text whose paired run holds a blank that is no single space before a bare token, and that is the
same line all the same. -/
theorem cutsAlike_of_not_spacesAlone {taken : Text} (startBare : QuotedStartBare text)
    (starts : startsBare text = true) (cut : takeBare .paired none text = (taken, left))
    (crowded : ¬ SpacesAlone taken left) (same : joined .paired text = joined .ordinary text) :
    CutsAlike text := by
  obtain ⟨before, blank, after, rfl, alone, isBlank, crowds⟩ :=
    exists_eq_append_of_not_spacesAlone crowded
  obtain rfl : text = before ++ blank :: (after ++ left) := by
    rw [eq_append_of_takeBare cut, List.append_assoc, List.cons_append]
  obtain ⟨token, tokens, listed, spelled⟩ := exists_listOfText_of_spacesAlone starts alone isBlank
  rw [listOfText_cons_of_isBlank isBlank] at listed
  have linePaired : joined .paired (before ++ blank :: (after ++ left)) =
      before ++ blank :: (after ++ spacedBehind (listOfText .paired left)) := by
    rw [joined_eq_append_spacedBehind (listOfText_of_startsBare starts cut), value, List.append_assoc,
      List.cons_append]
  have lineOrdinary : joined .ordinary (before ++ blank :: (after ++ left)) =
      before ++ spacedBehind (listOfText .ordinary (after ++ left)) := by
    rw [joined_eq_append_spacedBehind listed, spacedBehind_append, ← List.append_assoc, spelled]
  rw [linePaired, lineOrdinary, List.append_right_inj] at same
  have hasTokens : listOfText .ordinary (after ++ left) ≠ [] := by
    intro noTokens
    rw [noTokens] at same
    cases same
  rw [spacedBehind_listOfText hasTokens] at same
  obtain ⟨rfl, sameBehind⟩ := List.cons.inj same
  have startBareBehind : QuotedStartBare (after ++ left) := by
    refine startBare.of_subset fun other member => ?_
    rw [listed]
    exact List.mem_cons_of_mem _ (List.mem_append_right _ member)
  obtain ⟨first, more, isLine, notBlank⟩ := exists_joined_eq_cons startBareBehind hasTokens
  rw [isLine] at sameBehind
  cases after with
  | nil =>
    -- The run would end with the space, and another space would have to start a token.
    cases behind : listOfText .paired left with
    | nil =>
      rw [behind] at sameBehind
      cases sameBehind
    | cons other others =>
      rw [behind] at sameBehind
      cases sameBehind
      cases notBlank
  | cons character after =>
    obtain ⟨rfl, -⟩ := List.cons.inj sameBehind
    have double : character = .scalar '"' := by
      by_contra notDouble
      exact crowds ⟨rfl, by simp [startsBare, notBlank, notDouble]⟩
    subst double
    rw [List.cons_append] at startBareBehind isLine
    cases closed : closeQuoted? .ordinary none (after ++ left) with
    | some cut =>
      refine absurd ?_ (head?_joined_ne_double startBareBehind closed)
      rw [isLine]
      rfl
    | none =>
      have kept := joined_eq_append_spacedBehind (listOfText_cons_of_not_closeQuoted? closed)
      rw [isLine, ← sameBehind, value, spacedBehind_nil, List.append_nil] at kept
      exact .unclosedInside starts rfl alone closed (by rw [linePaired, kept]; rfl)

/-- What is joined alike is alike by the rules, where quoted parts start with a word. -/
theorem cutsAlike_of_joined_eq (startBare : QuotedStartBare text)
    (same : joined .paired text = joined .ordinary text) : CutsAlike text := by
  induction text using listOfText.induct .paired with
  | case1 => exact .nil
  | case2 character rest blank inductionHypothesis =>
    rw [QuotedStartBare, listOfText_cons_of_isBlank blank] at startBare
    rw [joined, joined, listOfText_cons_of_isBlank blank, listOfText_cons_of_isBlank blank] at same
    exact .blank blank (inductionHypothesis startBare same)
  | case3 character rest _ isQuote inner left closed _ inductionHypothesis =>
    obtain rfl : character = .scalar '"' := by simpa using isQuote
    have linePaired := joined_eq_append_spacedBehind (listOfText_cons_of_closeQuoted? closed)
    rcases closeQuoted?_ordinary_of_paired closed with
      closedOrdinary | ⟨innerFirst, more, leftFirst, before, rfl⟩
    · have cut := listOfText_cons_of_closeQuoted? closedOrdinary
      rw [linePaired, joined_eq_append_spacedBehind cut, List.append_right_inj] at same
      have startBareLeft : QuotedStartBare left := startBare.of_subset (cut ▸ List.subset_cons_self _ _)
      exact .quoted closedOrdinary closed
        (inductionHypothesis startBareLeft (joined_eq_of_spacedBehind_eq same))
    · rw [linePaired, joined_eq_append_spacedBehind (listOfText_cons_of_closeQuoted? before), value,
        value, List.append_assoc, List.append_right_inj] at same
      cases behind : listOfText .ordinary leftFirst with
      | nil =>
        rw [behind] at same
        cases same
      | cons other others =>
        rw [behind] at same
        cases same
  | case4 character rest _ isQuote opened =>
    obtain rfl : character = .scalar '"' := by simpa using isQuote
    cases closed : closeQuoted? .ordinary none rest with
    | none => exact .unclosed closed
    | some cut =>
      refine absurd ?_ (head?_joined_ne_double startBare closed)
      rw [← same, joined_eq_append_spacedBehind (listOfText_cons_of_not_closeQuoted? opened)]
      rfl
  | case5 character rest notBlank notQuote taken left split _ inductionHypothesis =>
    have isText : Text.isBlank character = false := by simpa using notBlank
    have starts : startsBare (character :: rest) = true := by
      simp only [startsBare, isText, Bool.not_false, Bool.true_and]
      simpa using notQuote
    have cut := takeBare_of_bareRun? isText split
    by_cases alone : SpacesAlone (character :: taken) left
    · have whole := eq_append_of_takeBare cut
      rw [whole] at starts
      obtain ⟨token, tokens, listed, spelled⟩ :=
        exists_listOfText_of_spacesAlone starts alone (endsHere_of_takeBare cut)
      rw [← whole] at starts listed
      rw [joined_eq_append_spacedBehind (listOfText_of_startsBare starts cut),
        joined_eq_append_spacedBehind listed, spacedBehind_append, ← List.append_assoc, spelled, value,
        List.append_right_inj] at same
      have startBareLeft : QuotedStartBare left := by
        refine startBare.of_subset fun other member => ?_
        rw [listed]
        exact List.mem_cons_of_mem _ (List.mem_append_right _ member)
      exact .bare starts cut alone
        (inductionHypothesis startBareLeft (joined_eq_of_spacedBehind_eq same))
    · exact cutsAlike_of_not_spacesAlone startBare starts cut alone same

/-- Where quoted parts start with a word, the texts that are joined alike are those of the rules. -/
theorem joined_eq_iff_of_quotedStartBare (startBare : QuotedStartBare text) :
    joined .paired text = joined .ordinary text ↔ CutsAlike text :=
  ⟨cutsAlike_of_joined_eq startBare, joined_eq_of_cutsAlike⟩

end Token

end VerbExpansion
