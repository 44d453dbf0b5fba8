import VerbExpansion.Proofs.Token.Joined
import VerbExpansion.Proofs.Token.Passage

/-!
# Words that come out whole

A sealed word belongs to one token when the cut reaches it outside of a run. Quotes in front of it
can make a run end inside of the word instead. The word is unbroken when it comes out whole even
then, whatever stands around it (`IsUnbroken.infix_joined`): where a token may end inside of it, it
has one space, after which the next token starts, and nowhere inside of it is a quoted part closed.
-/

namespace VerbExpansion

namespace Token

/-- Whether each blank of the text, with this behind it, is one space after which a bare token
starts. -/
def SpacesAlone : Text → Text → Prop
  | [], _ => True
  | character :: text, rest =>
    (Text.isBlank character = true → character = ' ' ∧ startsBare (text ++ rest) = true) ∧
      SpacesAlone text rest

instance : ∀ text rest, Decidable (SpacesAlone text rest)
  | [], _ => .isTrue trivial
  | _ :: text, rest =>
    have := instDecidableSpacesAlone text rest
    inferInstanceAs (Decidable ((_ → _ ∧ _) ∧ _))

/-- The run in which a quoted part can be at the start of a text: one of single quotes, or one that
is a single quote between two double quotes. -/
inductive RunsInQuoted : Option Character → Text → Prop where
  | outside (text : Text) : RunsInQuoted none text
  | single (text : Text) : RunsInQuoted (some '\'') text
  | opening (rest : Text) : RunsInQuoted (some '"') (.scalar '\'' :: .scalar '"' :: rest)
  | closing (rest : Text) : RunsInQuoted (some '"') (.scalar '"' :: rest)

/-- A word that comes out whole, whatever stands around it. -/
structure IsUnbroken (word : Text) : Prop where
  starts : ∀ rest, startsBare (word ++ rest) = true
  alone : ∀ rest, SpacesAlone word rest
  /-- No quoted part is closed inside of the word. -/
  quoted : ∀ {awaited rest inner left}, RunsInQuoted awaited (word ++ rest) →
    closeQuoted? .paired awaited (word ++ rest) = some (inner, left) → word <+: inner

/-! ## In a bare token -/

/-- The run in which a bare token is behind a text, when more text follows. A blank starts no run. -/
def runAfter : Option Character → (text rest : Text) → Option Character
  | awaited, [], _ => awaited
  | some mark, character :: text, rest =>
    runAfter (if character == mark then none else some mark) text rest
  | none, character :: text, rest =>
    runAfter (InnerQuotes.paired.bareRun? character (text ++ rest)) text rest

/-- From inside of a bare token, a text whose spaces stand alone is joined again as it was: where the
token ends at one of them, another one is joined. -/
theorem joinedFrom_append {text rest : Text} (alone : SpacesAlone text rest)
    (awaited : Option Character) :
    joinedFrom awaited (text ++ rest) = text ++ joinedFrom (runAfter awaited text rest) rest := by
  induction text generalizing awaited with
  | nil => rfl
  | cons character text inductionHypothesis =>
    rw [List.cons_append, List.cons_append]
    cases awaited with
    | some mark => rw [joinedFrom_awaiting, inductionHypothesis alone.2, runAfter]
    | none =>
      cases blank : Text.isBlank character with
      | false => rw [joinedFrom_of_not_isBlank blank, inductionHypothesis alone.2, runAfter]
      | true =>
        obtain ⟨rfl, starts⟩ := alone.1 blank
        rw [joinedFrom_of_isBlank blank, joinedRest_of_startsBare starts,
          inductionHypothesis alone.2, runAfter, InnerQuotes.bareRun?_of_ne (by simp) (by simp)]

/-! ## In a quoted part -/

theorem RunsInQuoted.awaiting {mark character : Character} {rest : Text}
    (runs : RunsInQuoted (some mark) (character :: rest)) :
    RunsInQuoted (if character == mark then none else some mark) rest := by
  cases runs with
  | single =>
    split
    · exact .outside rest
    · exact .single rest
  | opening rest => exact .closing rest
  | closing rest => exact .outside rest

theorem RunsInQuoted.of_quotedRun? (character : Character) (rest : Text) :
    RunsInQuoted (InnerQuotes.paired.quotedRun? character rest) rest := by
  rw [InnerQuotes.quotedRun?]
  split
  · exact .single rest
  · split
    · next opens =>
      obtain ⟨more, rfl⟩ : ∃ more, rest = .scalar '\'' :: .scalar '"' :: more := by
        rw [Bool.and_eq_true, beq_iff_eq (a := rest.take 2)] at opens
        exact ⟨rest.drop 2, by rw [← List.take_append_drop 2 rest, opens.2]; rfl⟩
      exact .opening more
    · exact .outside rest

/-- A quoted part is not closed inside of an unbroken word, but before it or behind it. -/
theorem IsUnbroken.infix_or_of_closeQuoted? {word : Text} (unbroken : IsUnbroken word)
    {before after inner left : Text} {awaited : Option Character}
    (runs : RunsInQuoted awaited (before ++ (word ++ after)))
    (closed : closeQuoted? .paired awaited (before ++ (word ++ after)) = some (inner, left)) :
    word <:+: inner ∨
      ∃ between, between.length < before.length ∧ left = between ++ (word ++ after) := by
  induction before generalizing awaited inner with
  | nil => exact .inl (unbroken.quoted runs closed).isInfix
  | cons character before inductionHypothesis =>
    have goOn : ∀ {next}, RunsInQuoted next (before ++ (word ++ after)) →
        (closeQuoted? .paired next (before ++ (word ++ after))).map (behind [character]) =
          some (inner, left) →
        word <:+: inner ∨ ∃ between, between.length < (character :: before).length ∧
          left = between ++ (word ++ after) := by
      intro next runs closed
      obtain ⟨innerRest, rfl, found⟩ := exists_of_map_behind closed
      rcases inductionHypothesis runs found with infixOf | ⟨between, shorter, spelled⟩
      · exact .inl (infixOf.trans (List.suffix_cons _ _).isInfix)
      · exact .inr ⟨between, Nat.lt_succ_of_lt shorter, spelled⟩
    rw [List.cons_append] at closed runs
    cases awaited with
    | some mark =>
      rw [closeQuoted?_awaiting] at closed
      exact goOn runs.awaiting closed
    | none =>
      by_cases closing : character = '"' ∧ endsHere (before ++ (word ++ after)) = true
      · obtain ⟨rfl, ends⟩ := closing
        rw [closeQuoted?, if_pos (by simp [ends])] at closed
        cases closed
        exact .inr ⟨before, Nat.lt_succ_self _, rfl⟩
      · rw [closeQuoted?_of_not_closing closing] at closed
        exact goOn (.of_quotedRun? character _) closed

/-! ## Anywhere -/

theorem infix_joinedFrom_cons {word text : Text} (character : Character)
    (fromStart : word <:+: joined .paired text)
    (fromInside : ∀ awaited, word <:+: joinedFrom awaited text) (awaited : Option Character) :
    word <:+: joinedFrom awaited (character :: text) := by
  cases awaited with
  | some mark =>
    rw [joinedFrom_awaiting]
    exact (fromInside _).trans (List.suffix_cons _ _).isInfix
  | none =>
    cases blank : Text.isBlank character with
    | true =>
      rw [joinedFrom_of_isBlank blank]
      exact infix_joinedRest fromStart
    | false =>
      rw [joinedFrom_of_not_isBlank blank]
      exact (fromInside _).trans (List.suffix_cons _ _).isInfix

/-- A double quote at the start of a token does an unbroken word no harm, if less in front of the word
does it none. -/
theorem IsUnbroken.infix_joined_double {word before after : Text} (unbroken : IsUnbroken word)
    (shorter : ∀ between : Text, between.length < before.length →
      word <:+: joined .paired (between ++ (word ++ after))) :
    word <:+: joined .paired (.scalar '"' :: (before ++ (word ++ after))) := by
  cases closed : closeQuoted? .paired none (before ++ (word ++ after)) with
  | none =>
    rw [joined_cons_of_not_closeQuoted? closed]
    exact ⟨.scalar '"' :: before, after, by simp⟩
  | some cut =>
    obtain ⟨inner, left⟩ := cut
    rw [joined_cons_of_closeQuoted? closed]
    rcases unbroken.infix_or_of_closeQuoted? (.outside _) closed with
      infixOf | ⟨between, isShorter, rfl⟩
    · exact infixOf.trans (List.prefix_append _ _).isInfix
    · exact (infix_joinedRest (shorter between isShorter)).trans (List.suffix_append _ _).isInfix

/-- An unbroken word comes out whole at the start of a token and from inside of a bare token. -/
theorem IsUnbroken.infix_joined_and_joinedFrom {word : Text} (unbroken : IsUnbroken word)
    (before after : Text) :
    word <:+: joined .paired (before ++ (word ++ after)) ∧
      ∀ awaited, word <:+: joinedFrom awaited (before ++ (word ++ after)) := by
  -- The induction is on the length of what stands before the word: a quoted part takes any amount of it.
  induction length : before.length using Nat.strongRecOn generalizing before with
  | ind length inductionHypothesis =>
  subst length
  cases before with
  | nil =>
    have fromInside : ∀ awaited, word <:+: joinedFrom awaited (word ++ after) := by
      intro awaited
      rw [joinedFrom_append (unbroken.alone after)]
      exact (List.prefix_append _ _).isInfix
    rw [List.nil_append, joined_of_startsBare (unbroken.starts after)]
    exact ⟨fromInside none, fromInside⟩
  | cons character before =>
    obtain ⟨fromStart, fromInside⟩ :=
      inductionHypothesis before.length (Nat.lt_succ_self _) before rfl
    have fromInsideCons := infix_joinedFrom_cons character fromStart fromInside
    refine ⟨?_, fromInsideCons⟩
    rw [List.cons_append]
    cases blank : Text.isBlank character with
    | true =>
      rw [joined_cons_of_isBlank blank]
      exact fromStart
    | false =>
      by_cases double : character = '"'
      · subst double
        refine unbroken.infix_joined_double fun between shorter => ?_
        exact (inductionHypothesis between.length (Nat.lt_succ_of_lt shorter) between rfl).1
      · rw [joined_of_startsBare (by simp [startsBare, blank, double])]
        exact fromInsideCons none

/-- An unbroken word comes out whole, whatever stands before it and behind it. -/
theorem IsUnbroken.infix_joined {word : Text} (unbroken : IsUnbroken word) (before after : Text) :
    word <:+: joined .paired (before ++ (word ++ after)) :=
  (unbroken.infix_joined_and_joinedFrom before after).1

end Token

end VerbExpansion
