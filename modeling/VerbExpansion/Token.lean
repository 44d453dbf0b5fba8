import VerbExpansion.Text.Blank

/-!
# Tokens

A text is cut at its blanks into tokens. A double quote at the start of a token opens a quoted part,
which may hold blanks: it is closed by the first double quote that stands before a blank or at the
end. When nothing closes it, the rest of the text is one token.

The quotes that a shell word is made of can be respected as well: then a run between two such quotes
is passed over as a whole, in a bare token and in a quoted part.

Every token records the part of the text that it covers (`Token.source`) and what it is worth
without enclosing quotes (`Token.value`).
-/

namespace VerbExpansion

/-- What the quotes inside a token mean. -/
inductive InnerQuotes where
  /-- They are characters like any other. -/
  | ordinary
  /-- A run from a quote to its partner belongs together, whatever it holds. -/
  | paired
  deriving DecidableEq

/-- A token of a text. -/
inductive Token where
  /-- A token that no double quote opens. -/
  | bare (text : Text)
  /-- What stands between an opening double quote and the one that closes it. -/
  | quoted (inner : Text)
  /-- What follows an opening double quote that nothing closes. -/
  | unclosed (rest : Text)
  deriving DecidableEq

namespace Token

/-- The part of the text that the token covers. -/
def source : Token → Text
  | bare text => text
  | quoted inner => .scalar '"' :: inner ++ [.scalar '"']
  | unclosed rest => .scalar '"' :: rest

/-- The token without the quotes that enclose it. -/
def value : Token → Text
  | bare text => text
  | quoted inner => inner
  | unclosed rest => .scalar '"' :: rest

end Token

namespace InnerQuotes

/-- The quote that a run starting with this character of a bare token waits for: the next one of its
kind, if there is one. -/
def bareRun? (quotes : InnerQuotes) (character : Character) (rest : Text) : Option Character :=
  match quotes with
  | ordinary => none
  | paired =>
    if (character == '\'' || character == '"') && rest.contains character then some character
    else none

/-- The quote that a run starting with this character of a quoted part waits for. Between double
quotes a run starts with a single quote that has a partner, or is a single quote between two double
quotes. -/
def quotedRun? (quotes : InnerQuotes) (character : Character) (rest : Text) : Option Character :=
  match quotes with
  | ordinary => none
  | paired =>
    if character == '\'' && rest.contains '\'' then some '\''
    else if character == '"' && rest.take 2 == [.scalar '\'', .scalar '"'] then some '"'
    else none

end InnerQuotes

namespace Token

/-- Whether a token cannot go on here: at a blank, and at the end. -/
def endsHere : Text → Bool
  | [] => true
  | character :: _ => Text.isBlank character

/-- The characters of a text up to the first blank outside a run, and what follows them. The quote
that ends the current run, if there is one, is `awaited`. -/
def takeBare (quotes : InnerQuotes) : (awaited : Option Character) → Text → Text × Text
  | _, [] => ([], [])
  | some mark, character :: rest =>
    let (taken, left) := takeBare quotes (if character == mark then none else some mark) rest
    (character :: taken, left)
  | none, character :: rest =>
    if Text.isBlank character then ([], character :: rest)
    else
      let (taken, left) := takeBare quotes (quotes.bareRun? character rest) rest
      (character :: taken, left)

/-- The characters of a text up to the double quote that closes a quoted part, and what follows that
quote; nothing when no quote closes it. -/
def closeQuoted? (quotes : InnerQuotes) : (awaited : Option Character) → Text → Option (Text × Text)
  | _, [] => none
  | some mark, character :: rest =>
    match closeQuoted? quotes (if character == mark then none else some mark) rest with
    | some (inner, left) => some (character :: inner, left)
    | none => none
  | none, character :: rest =>
    if character == '"' && endsHere rest then some ([], rest)
    else
      match closeQuoted? quotes (quotes.quotedRun? character rest) rest with
      | some (inner, left) => some (character :: inner, left)
      | none => none

/-- Taking a bare token splits the text. -/
theorem takeBare_append (quotes : InnerQuotes) (awaited : Option Character) (text : Text) :
    (takeBare quotes awaited text).1 ++ (takeBare quotes awaited text).2 = text := by
  fun_induction takeBare quotes awaited text <;> simp_all

/-- Closing a quoted part splits the text at the closing quote. -/
theorem eq_append_of_closeQuoted? {quotes : InnerQuotes} {awaited : Option Character}
    {text inner rest : Text} (closed : closeQuoted? quotes awaited text = some (inner, rest)) :
    text = inner ++ .scalar '"' :: rest := by
  fun_induction closeQuoted? quotes awaited text generalizing inner rest with
  | case1 => cases closed
  | case2 mark character rest' inner' left read inductionHypothesis =>
    cases closed
    rw [inductionHypothesis read, List.cons_append]
  | case3 => cases closed
  | case4 character rest' closes =>
    cases closed
    simp_all
  | case5 character rest' _ inner' left read inductionHypothesis =>
    cases closed
    rw [inductionHypothesis read, List.cons_append]
  | case6 => cases closed

theorem length_le_of_takeBare {quotes : InnerQuotes} {awaited : Option Character}
    {text taken rest : Text} (split : takeBare quotes awaited text = (taken, rest)) :
    rest.length ≤ text.length := by
  have lengths := congrArg List.length (takeBare_append quotes awaited text)
  simp only [split, List.length_append] at lengths
  omega

theorem length_lt_of_closeQuoted? {quotes : InnerQuotes} {awaited : Option Character}
    {text inner rest : Text} (closed : closeQuoted? quotes awaited text = some (inner, rest)) :
    rest.length < text.length := by
  have lengths := congrArg List.length (eq_append_of_closeQuoted? closed)
  rw [List.length_append, List.length_cons] at lengths
  omega

/-- The tokens of a text, in order. -/
def listOfText (quotes : InnerQuotes) : Text → List Token
  | [] => []
  | character :: rest =>
    if Text.isBlank character then listOfText quotes rest
    else if character == '"' then
      match closed : closeQuoted? quotes none rest with
      | some (inner, left) =>
        have := length_lt_of_closeQuoted? closed
        quoted inner :: listOfText quotes left
      | none => [unclosed rest]
    else
      match split : takeBare quotes (quotes.bareRun? character rest) rest with
      | (taken, left) =>
        have := length_le_of_takeBare split
        bare (character :: taken) :: listOfText quotes left
termination_by text => text.length

end Token

end VerbExpansion
