import VerbExpansion.Text.Blank

/-!
# Placeholders

A placeholder is written as a name in braces, or as a name, a colon and a format. Both parts are
non-empty and hold no brace and no colon. `read?` reads one where it starts; `source` writes it, and
a placeholder that was read was written exactly so (`eq_source_of_read?`).
-/

namespace VerbExpansion

/-- A named gap in a pattern, with an optional format for what fills it. -/
structure Placeholder where
  name : Text
  format : Option Text := none
  deriving DecidableEq

namespace Placeholder

/-- Whether a name or a format may hold the character. -/
def isPartCharacter (character : Character) : Bool :=
  character != '{' && character != '}' && character != ':'

/-- The longest name or format at the start of a text, when it is not empty, and what follows. -/
def readPart? (text : Text) : Option (Text × Text) :=
  match text.takeWhile isPartCharacter with
  | [] => none
  | part => some (part, text.dropWhile isPartCharacter)

/-- The placeholder that starts at the first character of a text, and what follows it. -/
def read? : Text → Option (Placeholder × Text)
  | .scalar '{' :: text =>
    match readPart? text with
    | some (name, .scalar '}' :: rest) => some (⟨name, none⟩, rest)
    | some (name, .scalar ':' :: text) =>
      match readPart? text with
      | some (format, .scalar '}' :: rest) => some (⟨name, some format⟩, rest)
      | _ => none
    | _ => none
  | _ => none

/-- The placeholder as it is written in a pattern. -/
def source (placeholder : Placeholder) : Text :=
  match placeholder.format with
  | none => .scalar '{' :: placeholder.name ++ [.scalar '}']
  | some format => .scalar '{' :: placeholder.name ++ .scalar ':' :: format ++ [.scalar '}']

theorem eq_append_of_readPart? {text part rest : Text} (read : readPart? text = some (part, rest)) :
    text = part ++ rest := by
  unfold readPart? at read
  split at read
  · cases read
  · cases read
    exact List.takeWhile_append_dropWhile.symm

/-- Reading a placeholder takes its source off the text. -/
theorem eq_source_of_read? {text rest : Text} {placeholder : Placeholder}
    (read : read? text = some (placeholder, rest)) : text = placeholder.source ++ rest := by
  unfold read? at read
  split at read
  · split at read
    · next nameRead =>
      cases read
      simp [source, eq_append_of_readPart? nameRead]
    · next nameRead =>
      split at read
      · next formatRead =>
        cases read
        simp [source, eq_append_of_readPart? nameRead, eq_append_of_readPart? formatRead]
      · cases read
    · cases read
  · cases read

theorem source_ne_nil (placeholder : Placeholder) : placeholder.source ≠ [] := by
  unfold source
  split <;> simp

/-- Reading a placeholder shortens the text. -/
theorem length_lt_of_read? {text rest : Text} {placeholder : Placeholder}
    (read : read? text = some (placeholder, rest)) : rest.length < text.length := by
  have sourceLength := List.length_pos_iff.2 placeholder.source_ne_nil
  rw [eq_source_of_read? read, List.length_append]
  omega

end Placeholder

end VerbExpansion
