import VerbExpansion.Proofs.Shell.Letters
import VerbExpansion.Proofs.Token.Cut

/-!
# Texts that belong to one token

A text passes when the cut into tokens goes over the whole of it and comes out as it went in,
whatever follows: in a bare token (`PassesBare`) and inside a quoted part (`PassesQuoted`). Texts that
pass can be put together. A text without blanks and quotes passes, and so does every shell word
(`isSealed_quote`), blanks and quotes and all.
-/

namespace VerbExpansion

namespace Token

/-! ## Passing -/

/-- A bare token goes on over the whole text, whatever follows it. -/
def PassesBare (quotes : InnerQuotes) (text : Text) : Prop :=
  ∀ rest, takeBare quotes none (text ++ rest) = behind text (takeBare quotes none rest)

/-- A quoted part goes on over the whole text, whatever follows it. -/
def PassesQuoted (quotes : InnerQuotes) (text : Text) : Prop :=
  ∀ rest, closeQuoted? quotes none (text ++ rest) =
    (closeQuoted? quotes none rest).map (behind text)

theorem passesBare_nil (quotes : InnerQuotes) : PassesBare quotes [] := fun _ => rfl

theorem PassesBare.append {quotes : InnerQuotes} {text other : Text}
    (first : PassesBare quotes text) (second : PassesBare quotes other) :
    PassesBare quotes (text ++ other) := by
  intro rest
  rw [List.append_assoc, first, second, behind_append]

theorem passesQuoted_nil (quotes : InnerQuotes) : PassesQuoted quotes [] := by
  intro rest
  rw [List.nil_append]
  cases closeQuoted? quotes none rest <;> rfl

theorem PassesQuoted.append {quotes : InnerQuotes} {text other : Text}
    (first : PassesQuoted quotes text) (second : PassesQuoted quotes other) :
    PassesQuoted quotes (text ++ other) := by
  intro rest
  rw [List.append_assoc, first, second, Option.map_map]
  exact congrArg (Option.map · _) (funext fun cut => (behind_append text other cut).symm)

/-- A quoted part that is closed behind a text over which it goes on holds the text. -/
theorem PassesQuoted.isPrefix {quotes : InnerQuotes} {text rest inner left : Text}
    (passes : PassesQuoted quotes text)
    (closed : closeQuoted? quotes none (text ++ rest) = some (inner, left)) : text <+: inner := by
  rw [passes] at closed
  obtain ⟨more, rfl, _⟩ := exists_of_map_behind closed
  exact List.prefix_append text more

theorem passesBare_flatMap {α : Type} {quotes : InnerQuotes} {pieces : List α} {text : α → Text}
    (each : ∀ piece ∈ pieces, PassesBare quotes (text piece)) :
    PassesBare quotes (pieces.flatMap text) := by
  induction pieces with
  | nil => exact passesBare_nil quotes
  | cons piece pieces inductionHypothesis =>
    rw [List.flatMap_cons]
    exact (each piece List.mem_cons_self).append
      (inductionHypothesis fun other member => each other (List.mem_cons_of_mem _ member))

theorem passesQuoted_flatMap {α : Type} {quotes : InnerQuotes} {pieces : List α} {text : α → Text}
    (each : ∀ piece ∈ pieces, PassesQuoted quotes (text piece)) :
    PassesQuoted quotes (pieces.flatMap text) := by
  induction pieces with
  | nil => exact passesQuoted_nil quotes
  | cons piece pieces inductionHypothesis =>
    rw [List.flatMap_cons]
    exact (each piece List.mem_cons_self).append
      (inductionHypothesis fun other member => each other (List.mem_cons_of_mem _ member))

theorem passesBare_singleton {quotes : InnerQuotes} {character : Character}
    (notBlank : Text.isBlank character = false) (notSingle : character ≠ '\'')
    (notDouble : character ≠ '"') : PassesBare quotes [character] := by
  intro rest
  rw [List.singleton_append, takeBare_of_not_isBlank notBlank,
    InnerQuotes.bareRun?_of_ne notSingle notDouble]

theorem passesQuoted_singleton {quotes : InnerQuotes} {character : Character}
    (notSingle : character ≠ '\'') (notDouble : character ≠ '"') :
    PassesQuoted quotes [character] := by
  intro rest
  rw [List.singleton_append, closeQuoted?_of_ne notDouble,
    InnerQuotes.quotedRun?_of_ne notSingle notDouble]

/-! ## Whole tokens -/

/-- A text that passes is a bare token when a token ends behind it. -/
theorem listOfText_append_of_passesBare {quotes : InnerQuotes} {first : Character}
    {text rest : Text} (notBlank : Text.isBlank first = false) (notQuote : first ≠ '"')
    (passes : PassesBare quotes (first :: text)) (ends : endsHere rest = true) :
    listOfText quotes (first :: text ++ rest) = bare (first :: text) :: listOfText quotes rest := by
  apply listOfText_cons_of_takeBare notBlank notQuote
  have taken := passes rest
  rwa [takeBare_of_endsHere ends, behind, List.append_nil] at taken

/-- A text that passes is what a quoted part holds when its closing quote stands behind it. -/
theorem listOfText_append_of_passesQuoted {quotes : InnerQuotes} {text rest : Text}
    (passes : PassesQuoted quotes text) (ends : endsHere rest = true) :
    listOfText quotes (.scalar '"' :: (text ++ .scalar '"' :: rest)) =
      quoted text :: listOfText quotes rest := by
  apply listOfText_cons_of_closeQuoted?
  rw [passes, closeQuoted?, if_pos (by simp [ends])]
  simp [behind]

/-- A text that passes and ends the whole text leaves a quoted part open. -/
theorem listOfText_of_passesQuoted {quotes : InnerQuotes} {text : Text}
    (passes : PassesQuoted quotes text) :
    listOfText quotes (.scalar '"' :: text) = [unclosed text] := by
  apply listOfText_cons_of_not_closeQuoted?
  have opened := passes []
  rwa [List.append_nil] at opened

/-! ## Shell words -/

/-- A text over which a token always goes on as a whole, and with which no quoted part starts. -/
structure IsSealed (text : Text) : Prop where
  starts : ∃ first rest, text = first :: rest ∧ Text.isBlank first = false ∧ first ≠ '"'
  bare : PassesBare .paired text
  quoted : PassesQuoted .paired text

/-- A text without blanks and quotes is sealed. -/
theorem isSealed_of_isBare {text : Text} (isBare : Shell.IsBare text) : IsSealed text := by
  have spelled : text = text.flatMap fun character => [character] := by simp
  refine ⟨?_, ?_, ?_⟩
  · cases text with
    | nil => exact absurd rfl isBare.notEmpty
    | cons first rest =>
      obtain ⟨notBlank, _, notDouble⟩ := isBare.ordinary first List.mem_cons_self
      exact ⟨first, rest, rfl, notBlank, notDouble⟩
  · rw [spelled]
    refine passesBare_flatMap fun character member => ?_
    obtain ⟨notBlank, notSingle, notDouble⟩ := isBare.ordinary character member
    exact passesBare_singleton notBlank notSingle notDouble
  · rw [spelled]
    refine passesQuoted_flatMap fun character member => ?_
    obtain ⟨_, notSingle, notDouble⟩ := isBare.ordinary character member
    exact passesQuoted_singleton notSingle notDouble

theorem singleQuoted_single : Shell.singleQuoted '\'' =
    [.scalar '\'', .scalar '"', .scalar '\'', .scalar '"', .scalar '\''] := rfl

theorem singleQuoted_of_ne {character : Character} (notSingle : character ≠ '\'') :
    Shell.singleQuoted character = [character] := by
  simp [Shell.singleQuoted, notSingle]

/-- Between single quotes a bare token goes on to the last of them: each single quote of the text
closes a run, and is itself written as a run and the start of another. -/
theorem takeBare_singleQuoted (text rest : Text) :
    takeBare .paired (some '\'') (text.flatMap Shell.singleQuoted ++ .scalar '\'' :: rest) =
      behind (text.flatMap Shell.singleQuoted ++ [.scalar '\'']) (takeBare .paired none rest) := by
  induction text with
  | nil => rfl
  | cons character text inductionHypothesis =>
    rw [List.flatMap_cons, List.append_assoc, List.append_assoc, behind_append,
      ← inductionHypothesis]
    by_cases single : character = '\''
    · subst single
      have partner : .scalar '\'' ∈
          text.flatMap Shell.singleQuoted ++ .scalar '\'' :: rest := by simp
      simp only [singleQuoted_single, List.cons_append, List.nil_append]
      rw [takeBare_ending, takeBare_of_not_isBlank isBlank_double,
        InnerQuotes.bareRun?_of_mem (.inr rfl) (by simp), takeBare_going single_ne_double,
        takeBare_ending, takeBare_of_not_isBlank isBlank_single,
        InnerQuotes.bareRun?_of_mem (.inl rfl) partner]
      rfl
    · rw [singleQuoted_of_ne single, List.singleton_append, takeBare_awaiting,
        if_neg (by simpa using single)]

theorem quote_goesOn (rest : Text) :
    ¬ ((.scalar '"' : Character) = '"' ∧ endsHere (.scalar '\'' :: rest) = true) :=
  fun closing => Bool.false_ne_true (isBlank_single.symm.trans closing.2)

/-- A double quote between two single quotes is a run. -/
theorem closeQuoted?_singleRun (rest : Text) :
    closeQuoted? .paired none (.scalar '\'' :: .scalar '"' :: .scalar '\'' :: rest) =
      (closeQuoted? .paired none rest).map
        (behind [.scalar '\'', .scalar '"', .scalar '\'']) := by
  rw [closeQuoted?_of_ne single_ne_double, InnerQuotes.quotedRun?_of_mem (by simp),
    closeQuoted?_going double_ne_single, closeQuoted?_ending, Option.map_map, Option.map_map]
  rfl

/-- A single quote between two double quotes is a run. -/
theorem closeQuoted?_doubleRun (rest : Text) :
    closeQuoted? .paired none (.scalar '"' :: .scalar '\'' :: .scalar '"' :: rest) =
      (closeQuoted? .paired none rest).map
        (behind [.scalar '"', .scalar '\'', .scalar '"']) := by
  have spelled : InnerQuotes.paired.quotedRun? '"' (.scalar '\'' :: .scalar '"' :: rest) =
      some (.scalar '"') := by simp [InnerQuotes.quotedRun?]
  rw [closeQuoted?_of_not_closing (quote_goesOn _), spelled,
    closeQuoted?_going single_ne_double, closeQuoted?_ending, Option.map_map, Option.map_map]
  rfl

/-- Inside a quoted part, too, what stands between single quotes belongs together. -/
theorem closeQuoted?_singleQuoted (text rest : Text) :
    closeQuoted? .paired (some '\'') (text.flatMap Shell.singleQuoted ++ .scalar '\'' :: rest) =
      (closeQuoted? .paired none rest).map
        (behind (text.flatMap Shell.singleQuoted ++ [.scalar '\''])) := by
  induction text with
  | nil =>
    rw [List.flatMap_nil, List.nil_append, List.nil_append, closeQuoted?_ending]
  | cons character text inductionHypothesis =>
    have split : behind ((character :: text).flatMap Shell.singleQuoted ++ [.scalar '\'']) =
        behind (Shell.singleQuoted character) ∘
          behind (text.flatMap Shell.singleQuoted ++ [.scalar '\'']) := by
      funext cut
      rw [List.flatMap_cons, List.append_assoc, behind_append]
      rfl
    rw [split, ← Option.map_map, ← inductionHypothesis, List.flatMap_cons, List.append_assoc]
    by_cases single : character = '\''
    · subst single
      have partner : .scalar '\'' ∈
          text.flatMap Shell.singleQuoted ++ .scalar '\'' :: rest := by simp
      simp only [singleQuoted_single, List.cons_append, List.nil_append]
      rw [closeQuoted?_ending, closeQuoted?_doubleRun, closeQuoted?_of_ne single_ne_double,
        InnerQuotes.quotedRun?_of_mem partner]
      simp only [Option.map_map]
      rfl
    · rw [singleQuoted_of_ne single, List.singleton_append, closeQuoted?_awaiting,
        if_neg (by simpa using single)]

/-- A text between single quotes, with its own single quotes written out, is sealed. -/
theorem isSealed_singleQuoted (text : Text) :
    IsSealed (.scalar '\'' :: text.flatMap Shell.singleQuoted ++ [.scalar '\'']) := by
  refine ⟨⟨_, _, rfl, isBlank_single, single_ne_double⟩, ?_, ?_⟩
  · intro rest
    rw [List.append_assoc, List.singleton_append, List.cons_append,
      takeBare_of_not_isBlank isBlank_single, InnerQuotes.bareRun?_of_mem (.inl rfl) (by simp),
      takeBare_singleQuoted, ← behind_append, List.singleton_append, List.cons_append]
  · intro rest
    rw [List.append_assoc, List.singleton_append, List.cons_append,
      closeQuoted?_of_ne single_ne_double,
      InnerQuotes.quotedRun?_of_mem (by simp), closeQuoted?_singleQuoted, Option.map_map]
    exact congrArg (Option.map · _) (funext fun cut => (behind_append _ _ cut).symm)

/-- Every shell word is sealed, whatever it stands for. -/
theorem isSealed_quote (text : Text) : IsSealed (Shell.quote text) := by
  rcases Shell.quote_eq_or text with ⟨unchanged, isBare, _⟩ | quoted
  · rw [unchanged]
    exact isSealed_of_isBare isBare
  · rw [quoted]
    exact isSealed_singleQuoted text

end Token

end VerbExpansion
