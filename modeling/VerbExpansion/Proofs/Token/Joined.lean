import VerbExpansion.Proofs.Token.Cut

/-!
# Texts that are cut and joined again

A line is what remains of a text when its tokens are joined with one space between them (`joined`).
With paired quotes it is a command line, which is followed here from one character to the next: from
inside of a bare token (`joinedFrom`) and from the end of a token (`joinedRest`). Nothing is added on
the way (`countP_joined_le`).
-/

namespace VerbExpansion

namespace Token

/-- A text cut into tokens, and joined again with one space between them. -/
def joined (quotes : InnerQuotes) (text : Text) : Text :=
  Text.spaced ((listOfText quotes text).map value)

/-- Tokens as they are joined to what stands before them. -/
def spacedBehind (tokens : List Token) : Text :=
  tokens.flatMap fun token => .scalar ' ' :: token.value

/-- What is joined to a token when this is left of the text, with paired quotes. -/
def joinedRest (left : Text) : Text :=
  if listOfText .paired left = [] then [] else .scalar ' ' :: joined .paired left

/-- The joined text from inside of a bare token on, with paired quotes. The quote that ends the current
run, if there is one, is `awaited`. -/
def joinedFrom (awaited : Option Character) (text : Text) : Text :=
  (takeBare .paired awaited text).1 ++ joinedRest (takeBare .paired awaited text).2

/-- Whether a bare token starts here. -/
def startsBare : Text → Bool
  | [] => false
  | character :: _ => !Text.isBlank character && character != '"'

/-! ## Lines -/

section Lines

variable {quotes : InnerQuotes} {text taken left : Text} {token : Token} {tokens : List Token}

@[simp] theorem spacedBehind_nil : spacedBehind [] = [] := rfl

@[simp] theorem spacedBehind_cons (token : Token) (tokens : List Token) :
    spacedBehind (token :: tokens) = .scalar ' ' :: (token.value ++ spacedBehind tokens) := rfl

@[simp] theorem spacedBehind_append (tokens others : List Token) :
    spacedBehind (tokens ++ others) = spacedBehind tokens ++ spacedBehind others :=
  List.flatMap_append

/-- Tokens are joined to the first of them. -/
theorem spaced_map_value_cons (token : Token) (tokens : List Token) :
    Text.spaced ((token :: tokens).map value) = token.value ++ spacedBehind tokens := by
  induction tokens generalizing token with
  | nil => simp
  | cons second tokens inductionHypothesis =>
    rw [List.map_cons, List.map_cons, Text.spaced_cons_cons, spacedBehind_cons,
      ← inductionHypothesis second, List.map_cons]

theorem joined_eq_append_spacedBehind (cut : listOfText quotes text = token :: tokens) :
    joined quotes text = token.value ++ spacedBehind tokens := by
  rw [joined, cut, spaced_map_value_cons]

/-- Behind something there is a space before a line, unless it has no tokens. -/
theorem spacedBehind_listOfText (hasTokens : listOfText quotes text ≠ []) :
    spacedBehind (listOfText quotes text) = .scalar ' ' :: joined quotes text := by
  obtain ⟨token, tokens, cut⟩ := List.exists_cons_of_ne_nil hasTokens
  rw [joined_eq_append_spacedBehind cut, cut, spacedBehind_cons]

theorem joinedRest_eq_spacedBehind (left : Text) :
    joinedRest left = spacedBehind (listOfText .paired left) := by
  rw [joinedRest]
  split
  · next noTokens => rw [noTokens, spacedBehind_nil]
  · next hasTokens => rw [spacedBehind_listOfText hasTokens]

theorem listOfText_of_startsBare (starts : startsBare text = true)
    (cut : takeBare quotes none text = (taken, left)) :
    listOfText quotes text = bare taken :: listOfText quotes left := by
  cases text with
  | nil => cases starts
  | cons character rest =>
    simp only [startsBare, Bool.and_eq_true, Bool.not_eq_true', bne_iff_ne, ne_eq] at starts
    exact listOfText_cons_of_takeBare starts.1 starts.2 cut

end Lines

/-! ## From one character to the next -/

section Steps

variable {awaited : Option Character} {mark character : Character} {token : Token}
  {text rest inner left : Text}

@[simp] theorem joined_nil : joined .paired [] = [] := by
  rw [joined, listOfText_nil]
  rfl

@[simp] theorem joinedRest_nil : joinedRest [] = [] := by
  rw [joinedRest, if_pos listOfText_nil]

theorem joined_of_listOfText (tokens : listOfText .paired text = token :: listOfText .paired left) :
    joined .paired text = token.value ++ joinedRest left := by
  rw [joined_eq_append_spacedBehind tokens, joinedRest_eq_spacedBehind]

theorem joined_cons_of_isBlank (blank : Text.isBlank character = true) :
    joined .paired (character :: rest) = joined .paired rest := by
  rw [joined, joined, listOfText_cons_of_isBlank blank]

theorem joinedRest_cons_of_isBlank (blank : Text.isBlank character = true) :
    joinedRest (character :: rest) = joinedRest rest := by
  rw [joinedRest, joinedRest, listOfText_cons_of_isBlank blank, joined_cons_of_isBlank blank]

theorem joined_cons_of_closeQuoted? (closed : closeQuoted? .paired none rest = some (inner, left)) :
    joined .paired (.scalar '"' :: rest) = inner ++ joinedRest left :=
  joined_of_listOfText (listOfText_cons_of_closeQuoted? closed)

theorem joined_cons_of_not_closeQuoted? (opened : closeQuoted? .paired none rest = none) :
    joined .paired (.scalar '"' :: rest) = .scalar '"' :: rest := by
  rw [joined, listOfText_cons_of_not_closeQuoted? opened, List.map_singleton, value,
    Text.spaced_singleton]

theorem joined_of_startsBare (starts : startsBare text = true) :
    joined .paired text = joinedFrom none text :=
  joined_of_listOfText (listOfText_of_startsBare starts (Prod.eta _).symm)

theorem joinedRest_of_ne_nil (notEmpty : joined .paired text ≠ []) :
    joinedRest text = .scalar ' ' :: joined .paired text := by
  rw [joinedRest, if_neg]
  intro noTokens
  refine notEmpty ?_
  rw [joined, noTokens]
  rfl

theorem joinedFrom_awaiting : joinedFrom (some mark) (character :: rest) =
    character :: joinedFrom (if character == mark then none else some mark) rest := by
  rw [joinedFrom, takeBare_awaiting]
  rfl

theorem joinedFrom_of_not_isBlank (notBlank : Text.isBlank character = false) :
    joinedFrom none (character :: rest) =
      character :: joinedFrom (InnerQuotes.paired.bareRun? character rest) rest := by
  rw [joinedFrom, takeBare_of_not_isBlank notBlank]
  rfl

theorem joinedFrom_of_isBlank (blank : Text.isBlank character = true) :
    joinedFrom none (character :: rest) = joinedRest rest := by
  rw [joinedFrom, takeBare_of_endsHere (show endsHere (character :: rest) = true from blank),
    List.nil_append, joinedRest_cons_of_isBlank blank]

theorem joinedRest_of_startsBare (starts : startsBare text = true) :
    joinedRest text = .scalar ' ' :: joinedFrom none text := by
  rw [joinedRest_of_ne_nil, joined_of_startsBare starts]
  cases text with
  | nil => cases starts
  | cons character rest =>
    have notBlank : Text.isBlank character = false := by
      simp only [startsBare, Bool.and_eq_true, Bool.not_eq_true'] at starts
      exact starts.1
    rw [joined_of_startsBare starts, joinedFrom_of_not_isBlank notBlank]
    exact List.cons_ne_nil _ _

/-- Where a part of the joined text is not lost, it is not lost behind a token. -/
theorem infix_joinedRest {part : Text} (infixOf : part <:+: joined .paired text) :
    part <:+: joinedRest text := by
  by_cases empty : joined .paired text = []
  · rw [empty] at infixOf
    rw [List.infix_nil.1 infixOf]
    exact List.nil_infix
  · rw [joinedRest_of_ne_nil empty]
    exact infixOf.trans (List.suffix_cons _ _).isInfix

end Steps

/-! ## What is lost -/

/-- Behind a token, a space is joined at most. -/
theorem countP_joinedRest_le (counted : Character → Bool) (text : Text) :
    (joinedRest text).countP counted ≤
      (joined .paired text).countP counted + if counted ' ' then 1 else 0 := by
  rw [joinedRest]
  split
  · exact Nat.zero_le _
  · exact Nat.le_of_eq List.countP_cons

/-- Joining adds nothing but spaces, and each of them stands for a blank of the text. -/
theorem countP_joined_le (counted : Character → Bool)
    (spaces : counted ' ' = true → ∀ blank, Text.isBlank blank = true → counted blank = true)
    (text : Text) : (joined .paired text).countP counted ≤ text.countP counted := by
  -- Behind a token the space is paid for by the blank at which the token ends.
  suffices bounds : (joined .paired text).countP counted ≤ text.countP counted ∧
      (endsHere text = true → (joinedRest text).countP counted ≤ text.countP counted) from bounds.1
  induction text using listOfText.induct .paired with
  | case1 => simp
  | case2 character rest blank inductionHypothesis =>
    rw [joined_cons_of_isBlank blank, joinedRest_cons_of_isBlank blank, List.countP_cons]
    have bound := inductionHypothesis.1
    have added := countP_joinedRest_le counted rest
    refine ⟨by omega, fun _ => ?_⟩
    by_cases isCounted : counted ' ' = true
    · rw [if_pos (spaces isCounted character blank)]
      rw [if_pos isCounted] at added
      omega
    · rw [if_neg isCounted] at added
      omega
  | case3 character rest notBlank isQuote inner left closed _ inductionHypothesis =>
    obtain rfl : character = .scalar '"' := by simpa using isQuote
    refine ⟨?_, fun ends => absurd ends notBlank⟩
    have bound := inductionHypothesis.2 (endsHere_of_closeQuoted? closed)
    rw [joined_cons_of_closeQuoted? closed, eq_append_of_closeQuoted? closed]
    simp only [List.countP_append, List.countP_cons]
    omega
  | case4 character rest notBlank isQuote opened =>
    obtain rfl : character = .scalar '"' := by simpa using isQuote
    refine ⟨?_, fun ends => absurd ends notBlank⟩
    exact Nat.le_of_eq (congrArg _ (joined_cons_of_not_closeQuoted? opened))
  | case5 character rest notBlank notQuote taken left split _ inductionHypothesis =>
    have isText : Text.isBlank character = false := by simpa using notBlank
    refine ⟨?_, fun ends => absurd ends notBlank⟩
    have cut := takeBare_of_bareRun? isText split
    have bound := inductionHypothesis.2 (endsHere_of_takeBare cut)
    have tokens := listOfText_cons_of_takeBare isText (by simpa using notQuote) cut
    rw [joined_of_listOfText tokens, eq_append_of_takeBare cut, value, List.countP_append,
      List.countP_append]
    omega

theorem countP_joinedRest_le_add (counted : Character → Bool)
    (spaces : counted ' ' = true → ∀ blank, Text.isBlank blank = true → counted blank = true)
    (text : Text) :
    (joinedRest text).countP counted ≤ text.countP counted + if counted ' ' then 1 else 0 :=
  Nat.le_trans (countP_joinedRest_le counted text)
    (Nat.add_le_add_right (countP_joined_le counted spaces text) _)

end Token

end VerbExpansion
