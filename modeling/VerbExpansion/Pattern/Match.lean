import VerbExpansion.Pattern

/-!
# Matching texts against patterns

A text matches a pattern when every gap can be filled with a non-empty text so that the pattern
becomes the text. Of all ways to fill the gaps, `capture?` finds the one that gives the first gap as
much as possible, then the second gap, and so on. A line end at the end of the text may be left over.
-/

namespace VerbExpansion.Pattern

/-- The longest non-empty start of a text after which the rest of it is accepted. -/
def longestCapture? {Result : Type} (accept : Text → Option Result) : Text → Option (Text × Result)
  | [] => none
  | character :: rest =>
    match longestCapture? accept rest with
    | some (captured, result) => some (character :: captured, result)
    | none => (accept rest).map fun result => ([character], result)

/-- The texts that fill the gaps of a pattern in a text, in order. -/
def capture? : Pattern → Text → Option (List Text)
  | [], text => if text = [] ∨ text = [.scalar '\n'] then some [] else none
  | .literal _ :: _, [] => none
  | .literal expected :: pattern, character :: rest =>
    if character = expected then capture? pattern rest else none
  | .gap _ :: pattern, text =>
    (longestCapture? (capture? pattern) text).map fun (captured, others) => captured :: others

end VerbExpansion.Pattern
