import VerbExpansion.Token

/-!
# Cutting a text into tokens

The rules by which a text is cut, one token and one character at a time, and what holds of every cut:
a token ends at a blank or with the text (`endsHere_of_takeBare`, `endsHere_of_closeQuoted?`), and what
it covers is a part of the text (`source_infix_of_mem`).
-/

namespace VerbExpansion

namespace InnerQuotes

theorem bareRun?_of_mem {mark : Character} {rest : Text} (isQuote : mark = '\'' ∨ mark = '"')
    (partner : mark ∈ rest) : paired.bareRun? mark rest = some mark := by
  rcases isQuote with rfl | rfl <;> simp [bareRun?, partner]

theorem bareRun?_of_ne {quotes : InnerQuotes} {character : Character} (notSingle : character ≠ '\'')
    (notDouble : character ≠ '"') (rest : Text) : quotes.bareRun? character rest = none := by
  cases quotes <;> simp [bareRun?, notSingle, notDouble]

theorem quotedRun?_of_mem {rest : Text} (partner : .scalar '\'' ∈ rest) :
    paired.quotedRun? '\'' rest = some (.scalar '\'') := by
  simp [quotedRun?, partner]

theorem quotedRun?_of_ne {quotes : InnerQuotes} {character : Character}
    (notSingle : character ≠ '\'') (notDouble : character ≠ '"') (rest : Text) :
    quotes.quotedRun? character rest = none := by
  cases quotes <;> simp [quotedRun?, notSingle, notDouble]

end InnerQuotes

namespace Token

/-! ## The two quotes -/

theorem single_ne_double : Character.scalar '\'' ≠ .scalar '"' := by decide

theorem double_ne_single : Character.scalar '"' ≠ .scalar '\'' := by decide

theorem isBlank_single : Text.isBlank '\'' = false := rfl

theorem isBlank_double : Text.isBlank '"' = false := rfl

/-! ## One token after the other -/

section Steps

variable {quotes : InnerQuotes} {character : Character} {rest inner left taken : Text}

@[simp] theorem listOfText_nil : listOfText quotes [] = [] := by
  rw [listOfText]

theorem listOfText_cons_of_isBlank (blank : Text.isBlank character = true) :
    listOfText quotes (character :: rest) = listOfText quotes rest := by
  rw [listOfText, if_pos blank]

theorem listOfText_cons_of_closeQuoted? (closed : closeQuoted? quotes none rest = some (inner, left)) :
    listOfText quotes (.scalar '"' :: rest) = quoted inner :: listOfText quotes left := by
  rw [listOfText, if_neg (by simp [isBlank_double]), if_pos (by simp)]
  split
  · next found =>
    rw [closed] at found
    cases found
    rfl
  · next missing =>
    rw [closed] at missing
    cases missing

theorem listOfText_cons_of_not_closeQuoted? (opened : closeQuoted? quotes none rest = none) :
    listOfText quotes (.scalar '"' :: rest) = [unclosed rest] := by
  rw [listOfText, if_neg (by simp [isBlank_double]), if_pos (by simp)]
  split
  · next found =>
    rw [opened] at found
    cases found
  · rfl

theorem listOfText_cons_of_takeBare (notBlank : Text.isBlank character = false)
    (notQuote : character ≠ '"')
    (split : takeBare quotes none (character :: rest) = (taken, left)) :
    listOfText quotes (character :: rest) = bare taken :: listOfText quotes left := by
  rw [takeBare, if_neg (by simp [notBlank])] at split
  rw [listOfText, if_neg (by simp [notBlank]), if_neg (by simp [notQuote])]
  cases split
  rfl

end Steps

/-! ## One character after the other -/

/-- A cut into two parts, with more text in front of the first. -/
def behind (text : Text) (cut : Text × Text) : Text × Text :=
  (text ++ cut.1, cut.2)

@[simp] theorem behind_nil (cut : Text × Text) : behind [] cut = cut := rfl

theorem behind_append (text other : Text) (cut : Text × Text) :
    behind (text ++ other) cut = behind text (behind other cut) := by
  simp [behind]

theorem exists_of_map_behind {cut : Option (Text × Text)} {text inner left : Text}
    (found : cut.map (behind text) = some (inner, left)) :
    ∃ more, inner = text ++ more ∧ cut = some (more, left) := by
  obtain ⟨⟨more, _⟩, rfl, same⟩ := Option.map_eq_some_iff.1 found
  cases same
  exact ⟨more, rfl, rfl⟩

theorem takeBare_awaiting (quotes : InnerQuotes) (mark character : Character) (rest : Text) :
    takeBare quotes (some mark) (character :: rest) =
      behind [character] (takeBare quotes (if character == mark then none else some mark) rest) :=
  rfl

theorem takeBare_ending (quotes : InnerQuotes) (mark : Character) (rest : Text) :
    takeBare quotes (some mark) (mark :: rest) = behind [mark] (takeBare quotes none rest) := by
  rw [takeBare_awaiting, if_pos (beq_self_eq_true mark)]

theorem takeBare_going {mark character : Character} (goesOn : character ≠ mark)
    (quotes : InnerQuotes) (rest : Text) :
    takeBare quotes (some mark) (character :: rest) =
      behind [character] (takeBare quotes (some mark) rest) := by
  rw [takeBare_awaiting, if_neg (by simpa using goesOn)]

theorem takeBare_of_not_isBlank {quotes : InnerQuotes} {character : Character} {rest : Text}
    (notBlank : Text.isBlank character = false) :
    takeBare quotes none (character :: rest) =
      behind [character] (takeBare quotes (quotes.bareRun? character rest) rest) := by
  rw [takeBare, if_neg (by simp [notBlank])]
  rfl

/-- The cut at the end of a bare token, with the character at which the token starts. -/
theorem takeBare_of_bareRun? {quotes : InnerQuotes} {character : Character} {rest taken left : Text}
    (notBlank : Text.isBlank character = false)
    (split : takeBare quotes (quotes.bareRun? character rest) rest = (taken, left)) :
    takeBare quotes none (character :: rest) = (character :: taken, left) := by
  rw [takeBare_of_not_isBlank notBlank, split]
  rfl

theorem eq_append_of_takeBare {quotes : InnerQuotes} {awaited : Option Character}
    {text taken left : Text} (split : takeBare quotes awaited text = (taken, left)) :
    text = taken ++ left := by
  have spelled := takeBare_append quotes awaited text
  rw [split] at spelled
  exact spelled.symm

theorem closeQuoted?_awaiting (quotes : InnerQuotes) (mark character : Character) (rest : Text) :
    closeQuoted? quotes (some mark) (character :: rest) =
      (closeQuoted? quotes (if character == mark then none else some mark) rest).map
        (behind [character]) := by
  rw [closeQuoted?]
  split
  · next found =>
    rw [found]
    rfl
  · next missing =>
    rw [missing]
    rfl

theorem closeQuoted?_of_not_closing {quotes : InnerQuotes} {character : Character} {rest : Text}
    (goesOn : ¬ (character = '"' ∧ endsHere rest = true)) :
    closeQuoted? quotes none (character :: rest) =
      (closeQuoted? quotes (quotes.quotedRun? character rest) rest).map (behind [character]) := by
  rw [closeQuoted?, if_neg (by simpa using goesOn)]
  split
  · next found =>
    rw [found]
    rfl
  · next missing =>
    rw [missing]
    rfl

theorem closeQuoted?_ending (quotes : InnerQuotes) (mark : Character) (rest : Text) :
    closeQuoted? quotes (some mark) (mark :: rest) =
      (closeQuoted? quotes none rest).map (behind [mark]) := by
  rw [closeQuoted?_awaiting, if_pos (beq_self_eq_true mark)]

theorem closeQuoted?_going {mark character : Character} (goesOn : character ≠ mark)
    (quotes : InnerQuotes) (rest : Text) :
    closeQuoted? quotes (some mark) (character :: rest) =
      (closeQuoted? quotes (some mark) rest).map (behind [character]) := by
  rw [closeQuoted?_awaiting, if_neg (by simpa using goesOn)]

/-- No character but a double quote closes a quoted part. -/
theorem closeQuoted?_of_ne {quotes : InnerQuotes} {character : Character}
    (notDouble : character ≠ '"') (rest : Text) :
    closeQuoted? quotes none (character :: rest) =
      (closeQuoted? quotes (quotes.quotedRun? character rest) rest).map (behind [character]) :=
  closeQuoted?_of_not_closing fun closing => notDouble closing.1

/-! ## Where tokens end -/

theorem takeBare_of_endsHere {quotes : InnerQuotes} {rest : Text} (ends : endsHere rest = true) :
    takeBare quotes none rest = ([], rest) := by
  cases rest with
  | nil => rfl
  | cons first rest => rw [takeBare, if_pos (by simpa [endsHere] using ends)]

/-- A bare token ends where no token can go on. -/
theorem endsHere_of_takeBare {quotes : InnerQuotes} {awaited : Option Character}
    {text taken left : Text} (split : takeBare quotes awaited text = (taken, left)) :
    endsHere left = true := by
  fun_induction takeBare quotes awaited text generalizing taken left with
  | case1 =>
    cases split
    rfl
  | case2 mark character rest taken' left' found inductionHypothesis =>
    cases split
    exact inductionHypothesis found
  | case3 character rest blank =>
    cases split
    exact blank
  | case4 character rest notBlank taken' left' found inductionHypothesis =>
    cases split
    exact inductionHypothesis found

/-- A quoted part ends where no token can go on. -/
theorem endsHere_of_closeQuoted? {quotes : InnerQuotes} {awaited : Option Character}
    {text inner left : Text} (closed : closeQuoted? quotes awaited text = some (inner, left)) :
    endsHere left = true := by
  fun_induction closeQuoted? quotes awaited text generalizing inner left with
  | case1 => cases closed
  | case2 mark character rest inner' left' found inductionHypothesis =>
    cases closed
    exact inductionHypothesis found
  | case3 => cases closed
  | case4 character rest closes =>
    cases closed
    exact (Bool.and_eq_true_iff.1 closes).2
  | case5 character rest goesOn inner' left' found inductionHypothesis =>
    cases closed
    exact inductionHypothesis found
  | case6 => cases closed

/-- Where quotes mean nothing, a bare token holds no blank. -/
theorem not_isBlank_of_takeBare {text taken left : Text}
    (split : takeBare .ordinary none text = (taken, left)) :
    ∀ character ∈ taken, Text.isBlank character = false := by
  induction text generalizing taken left with
  | nil =>
    cases split
    simp
  | cons first rest inductionHypothesis =>
    cases blank : Text.isBlank first with
    | true =>
      rw [takeBare, if_pos blank] at split
      cases split
      simp
    | false =>
      rw [takeBare_of_not_isBlank blank] at split
      cases split
      rintro character (_ | ⟨_, member⟩)
      · exact blank
      · exact inductionHypothesis rfl character member

/-- Where quotes mean nothing, a text without blanks is taken when a token must end behind it. -/
theorem takeBare_append_of_blankless {text left : Text}
    (blankless : ∀ character ∈ text, Text.isBlank character = false) (ends : endsHere left = true) :
    takeBare .ordinary none (text ++ left) = (text, left) := by
  induction text with
  | nil => exact takeBare_of_endsHere ends
  | cons character text inductionHypothesis =>
    obtain ⟨notBlank, others⟩ := List.forall_mem_cons.1 blankless
    rw [List.cons_append, takeBare_of_not_isBlank notBlank]
    exact congrArg (behind [character]) (inductionHypothesis others)

/-- A text without double quotes is cut into words without blanks. -/
theorem exists_eq_bare_of_mem {text : Text} (noDouble : .scalar '"' ∉ text) {token : Token}
    (member : token ∈ listOfText .ordinary text) :
    ∃ word, token = bare word ∧ word ≠ [] ∧
      ∀ character ∈ word, Text.isBlank character = false := by
  induction text using listOfText.induct .ordinary with
  | case1 => simp at member
  | case2 character rest blank inductionHypothesis =>
    rw [listOfText_cons_of_isBlank blank] at member
    exact inductionHypothesis (fun double => noDouble (List.mem_cons_of_mem _ double)) member
  | case3 character rest _ isQuote =>
    exact absurd (by simpa using isQuote) (List.ne_of_not_mem_cons noDouble).symm
  | case4 character rest _ isQuote =>
    exact absurd (by simpa using isQuote) (List.ne_of_not_mem_cons noDouble).symm
  | case5 character rest notBlank notQuote taken left split _ inductionHypothesis =>
    have isText : Text.isBlank character = false := by simpa using notBlank
    have cut := takeBare_of_bareRun? isText split
    rw [listOfText_cons_of_takeBare isText (by simpa using notQuote) cut] at member
    rcases List.mem_cons.1 member with rfl | member
    · exact ⟨character :: taken, rfl, List.cons_ne_nil _ _, not_isBlank_of_takeBare cut⟩
    · refine inductionHypothesis (fun double => noDouble ?_) member
      rw [eq_append_of_takeBare cut]
      exact List.mem_append_right _ double

/-! ## What tokens cover -/

/-- A token says no more than what it covers. -/
theorem value_infix_source (token : Token) : token.value <:+: token.source := by
  cases token with
  | bare text => exact List.infix_refl text
  | quoted inner => exact ⟨[.scalar '"'], [.scalar '"'], rfl⟩
  | unclosed rest => exact List.infix_refl _

/-- What a token covers is a part of the text. -/
theorem source_infix_of_mem {quotes : InnerQuotes} {text : Text} {token : Token}
    (member : token ∈ listOfText quotes text) : token.source <:+: text := by
  fun_induction listOfText quotes text with
  | case1 => simp at member
  | case2 character rest _ inductionHypothesis =>
    exact (inductionHypothesis member).trans (List.suffix_cons _ _).isInfix
  | case3 character rest _ isQuote inner left closed _ inductionHypothesis =>
    have spelled := eq_append_of_closeQuoted? closed
    rw [beq_iff_eq] at isQuote
    rcases List.mem_cons.1 member with rfl | member
    · refine ⟨[], left, ?_⟩
      rw [spelled, isQuote]
      simp [source]
    · refine (inductionHypothesis member).trans ⟨character :: (inner ++ [.scalar '"']), [], ?_⟩
      rw [spelled]
      simp
  | case4 character rest _ isQuote opened =>
    rw [beq_iff_eq] at isQuote
    rw [List.mem_singleton.1 member, isQuote]
    exact List.infix_refl _
  | case5 character rest _ notQuote taken left split _ inductionHypothesis =>
    rw [eq_append_of_takeBare split]
    rcases List.mem_cons.1 member with rfl | member
    · exact ⟨[], left, by simp [source]⟩
    · exact (inductionHypothesis member).trans ⟨character :: taken, [], by simp⟩

theorem value_infix_of_mem {quotes : InnerQuotes} {text : Text} {token : Token}
    (member : token ∈ listOfText quotes text) : token.value <:+: text :=
  token.value_infix_source.trans (source_infix_of_mem member)

end Token

end VerbExpansion
