import VerbExpansion.Proofs.Token.Gaps
import VerbExpansion.Proofs.Token.Joined

/-!
# Tokens without the quotes that enclose them

The value of a token is made from what the token covers, without a look at the rest of the text. Where
quotes inside a token mean nothing, a token loses the double quotes at its ends (`unwrapped`). Where
they are paired, a token may end with a double quote that does not close it, but then nothing follows
it (`UnwrapsTo`).
-/

namespace VerbExpansion

namespace Token

/-- The text without the double quotes at its ends, if it has one at each of them. -/
def unwrapped (text : Text) : Text :=
  if 2 ≤ text.length ∧ text.head? = some (.scalar '"') ∧ text.getLast? = some (.scalar '"') then
    text.tail.dropLast
  else text

/-- What a token with paired quotes is without the quotes that enclose it, and what is known of
these. -/
structure UnwrapsTo (isLast : Prop) (raw bared : Text) : Prop where
  unquoted : raw.head? ≠ some (.scalar '"') → bared = raw
  enclosed : raw.head? = some (.scalar '"') → ¬ isLast →
    raw = .scalar '"' :: bared ++ [.scalar '"']
  last : isLast → bared = raw ∨ raw = .scalar '"' :: bared ++ [.scalar '"']
  /-- The text of the token says whether it is kept as it is. -/
  kept_iff : raw.head? = some (.scalar '"') →
    (bared = raw ↔ closeQuoted? .paired none raw.tail = none)

/-! ## Tokens alone -/

/-- What holds of a token that others follow in a cut, without the rest of the text. -/
inductive IsCutBefore (quotes : InnerQuotes) : Token → List Token → Prop where
  | bare {word : Text} (after : List Token) (starts : startsBare word = true) :
      IsCutBefore quotes (bare word) after
  | quoted {inner : Text} (after : List Token)
      (closed : closeQuoted? quotes none (inner ++ [.scalar '"']) = some (inner, [])) :
      IsCutBefore quotes (quoted inner) after
  | unclosed {rest : Text} (opened : closeQuoted? quotes none rest = none) :
      IsCutBefore quotes (unclosed rest) []

variable {quotes : InnerQuotes} {text inner : Text} {token : Token} {before after : List Token}

theorem isCutBefore_of_listOfText (cut : listOfText quotes text = before ++ token :: after) :
    IsCutBefore quotes token after := by
  induction text using listOfText.induct quotes generalizing before with
  | case1 =>
    rw [listOfText_nil] at cut
    cases before <;> cases cut
  | case2 character rest blank inductionHypothesis =>
    rw [listOfText_cons_of_isBlank blank] at cut
    exact inductionHypothesis cut
  | case3 character rest _ isQuote inner left closed _ inductionHypothesis =>
    obtain rfl : character = .scalar '"' := by simpa using isQuote
    rw [listOfText_cons_of_closeQuoted? closed] at cut
    cases before with
    | cons _ before => exact inductionHypothesis (List.cons.inj cut).2
    | nil =>
      obtain ⟨rfl, -⟩ := List.cons.inj cut
      refine .quoted after (closeQuoted?_append_of_addsNoQuotes (addsNoQuotes_nil left) rfl ?_)
      rwa [← eq_append_of_closeQuoted? closed]
  | case4 character rest _ isQuote opened =>
    obtain rfl : character = .scalar '"' := by simpa using isQuote
    rw [listOfText_cons_of_not_closeQuoted? opened] at cut
    cases before with
    | cons _ before => cases before <;> cases (List.cons.inj cut).2
    | nil =>
      obtain ⟨rfl, rfl⟩ := List.cons.inj cut
      exact .unclosed opened
  | case5 character rest notBlank notQuote taken left split _ inductionHypothesis =>
    have isText : Text.isBlank character = false := by simpa using notBlank
    have isWord : character ≠ '"' := by simpa using notQuote
    rw [listOfText_cons_of_takeBare isText isWord (takeBare_of_bareRun? isText split)] at cut
    cases before with
    | cons _ before => exact inductionHypothesis (List.cons.inj cut).2
    | nil =>
      obtain ⟨rfl, -⟩ := List.cons.inj cut
      exact .bare after (by simp [startsBare, isText, isWord])

/-! ## Double quotes at the ends -/

theorem head?_ne_double (starts : startsBare text = true) : text.head? ≠ some (.scalar '"') := by
  cases text with
  | nil => simp
  | cons first rest =>
    simp only [startsBare, Bool.and_eq_true, bne_iff_ne, ne_eq] at starts
    simpa using starts.2

theorem unwrapped_enclosed (inner : Text) :
    unwrapped (.scalar '"' :: inner ++ [.scalar '"']) = inner := by
  rw [unwrapped, if_pos ⟨by simp, rfl, List.getLast?_concat⟩, List.cons_append, List.tail_cons,
    List.dropLast_concat]

theorem unwrapped_of_head?_ne (unquoted : text.head? ≠ some (.scalar '"')) :
    unwrapped text = text :=
  if_neg fun enclosed => unquoted enclosed.2.1

/-- Where quotes inside a token mean nothing, a part that nothing closes does not end with a double
quote. -/
theorem getLast?_ne_of_closeQuoted?_eq_none (opened : closeQuoted? .ordinary none text = none) :
    text.getLast? ≠ some (.scalar '"') := by
  intro isLast
  obtain ⟨start, rfl⟩ := List.getLast?_eq_some_iff.1 isLast
  have goesOn := closeQuoted?_eq_none_iff.1 opened start [] rfl
  cases goesOn

theorem unwrapped_of_closeQuoted?_eq_none (opened : closeQuoted? .ordinary none text = none) :
    unwrapped (.scalar '"' :: text) = .scalar '"' :: text := by
  refine if_neg fun enclosed => ?_
  cases text with
  | nil => exact absurd enclosed.1 (by simp)
  | cons first rest => exact getLast?_ne_of_closeQuoted?_eq_none opened enclosed.2.2

/-- Where quotes inside a token mean nothing, its text says what it is without its quotes. -/
theorem IsCutBefore.value_eq_unwrapped (cut : IsCutBefore .ordinary token after) :
    token.value = unwrapped token.source := by
  cases cut with
  | bare _ starts => exact (unwrapped_of_head?_ne (head?_ne_double starts)).symm
  | quoted => exact (unwrapped_enclosed _).symm
  | unclosed opened => exact (unwrapped_of_closeQuoted?_eq_none opened).symm

/-- A text is shorter than the text with a double quote at each end. -/
theorem ne_enclosed (inner : Text) : inner ≠ .scalar '"' :: inner ++ [.scalar '"'] := by
  intro same
  have lengths := congrArg List.length same
  simp only [List.length_append, List.length_cons] at lengths
  omega

theorem IsCutBefore.unwrapsTo (cut : IsCutBefore .paired token after) :
    UnwrapsTo (after = []) token.source token.value := by
  cases cut with
  | bare _ starts =>
    have unquoted := head?_ne_double starts
    exact ⟨fun _ => rfl, fun isQuoted => absurd isQuoted unquoted, fun _ => .inl rfl,
      fun isQuoted => absurd isQuoted unquoted⟩
  | quoted _ closed =>
    refine ⟨fun unquoted => absurd rfl unquoted, fun _ _ => rfl, fun _ => .inr rfl, fun _ => ?_⟩
    exact iff_of_false (ne_enclosed _) (by simp [source, closed])
  | unclosed opened =>
    exact ⟨fun _ => rfl, fun _ notLast => absurd rfl notLast, fun _ => .inl rfl,
      fun _ => iff_of_true rfl opened⟩

/-- A token of a cut, with its place. -/
theorem isCutBefore_of_getElem? {index : Nat} (found : (listOfText quotes text)[index]? = some token) :
    IsCutBefore quotes token ((listOfText quotes text).drop (index + 1)) := by
  obtain ⟨inside, rfl⟩ := List.getElem?_eq_some_iff.1 found
  have cut : listOfText quotes text = (listOfText quotes text).take index ++
      (listOfText quotes text)[index] :: (listOfText quotes text).drop (index + 1) := by
    rw [← List.drop_eq_getElem_cons inside, List.take_append_drop]
  exact isCutBefore_of_listOfText cut

/-- A text has as many tokens with their quotes as without them. Where quotes inside a token mean
nothing, each token without its quotes is what it covers without the double quotes at its ends. Where
they are paired, a token that starts with a double quote loses this one and the one at its end, unless
it is the last token, which is kept as it is when nothing in it closes it. -/
theorem map_value_eq_map_unwrapped_and_unwrapsTo (text : Text) :
    (∀ quotes, ((listOfText quotes text).map value).length =
        ((listOfText quotes text).map source).length) ∧
      (listOfText .ordinary text).map value =
        ((listOfText .ordinary text).map source).map unwrapped ∧
      ∀ index raw bared, ((listOfText .paired text).map source)[index]? = some raw →
        ((listOfText .paired text).map value)[index]? = some bared →
        UnwrapsTo (index + 1 = ((listOfText .paired text).map source).length) raw bared := by
  refine ⟨fun quotes => by rw [List.length_map, List.length_map], ?_, ?_⟩
  · rw [List.map_map]
    refine List.map_congr_left fun token member => ?_
    obtain ⟨before, after, cut⟩ := List.append_of_mem member
    exact (isCutBefore_of_listOfText cut).value_eq_unwrapped
  · intro index raw bared covers worth
    rw [List.getElem?_map, Option.map_eq_some_iff] at covers worth
    obtain ⟨token, found, rfl⟩ := covers
    obtain ⟨_, foundAgain, rfl⟩ := worth
    cases found.symm.trans foundAgain
    have last : (listOfText .paired text).drop (index + 1) = [] ↔
        index + 1 = ((listOfText .paired text).map source).length := by
      have inside := (List.getElem?_eq_some_iff.1 found).1
      rw [List.drop_eq_nil_iff, List.length_map]
      omega
    rw [← last]
    exact (isCutBefore_of_getElem? found).unwrapsTo

/-- With paired quotes the last token may start and end with a double quote and be kept as it is. -/
theorem unwrapsTo_of_quote_run :
    let text : Text := "\"a b\" \"\"'\""
    (listOfText .paired text).map source = [("\"a b\"" : Text), "\"\"'\""] ∧
      (listOfText .paired text).map value = [("a b" : Text), "\"\"'\""] ∧
      UnwrapsTo False "\"a b\"" "a b" ∧ UnwrapsTo True "\"\"'\"" "\"\"'\"" := by
  intro text
  have covers : (listOfText .paired text).map source = [("\"a b\"" : Text), "\"\"'\""] := by
    decide +kernel
  have worth : (listOfText .paired text).map value = [("a b" : Text), "\"\"'\""] := by
    decide +kernel
  obtain ⟨-, -, unwraps⟩ := map_value_eq_map_unwrapped_and_unwrapsTo text
  rw [covers, worth] at unwraps
  have first := unwraps 0 _ _ rfl rfl
  have second := unwraps 1 _ _ rfl rfl
  exact ⟨covers, worth, by simpa using first, by simpa using second⟩

end Token

end VerbExpansion
