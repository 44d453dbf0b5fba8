import VerbExpansion.Text.Hexadecimal

/-!
# Texts written in JSON

A text is written between double quotes, with escapes for double quotes, backslashes and control
characters only. A list of texts is written on one line, whatever the texts hold.
-/

namespace VerbExpansion.Json

/-- How a character is written between double quotes. -/
def writtenCharacter (character : Character) : Text :=
  if character == '"' then [.scalar '\\', .scalar '"']
  else if character == '\\' then [.scalar '\\', .scalar '\\']
  else if character == '\n' then [.scalar '\\', .scalar 'n']
  else if character == '\r' then [.scalar '\\', .scalar 'r']
  else if character == '\t' then [.scalar '\\', .scalar 't']
  else if character == '\x08' then [.scalar '\\', .scalar 'b']
  else if character == '\x0c' then [.scalar '\\', .scalar 'f']
  else if character.toNat < 0x20 then
    .scalar '\\' :: .scalar 'u' :: Text.hexadecimal 4 character.toNat
  else [character]

/-- The text as a JSON document writes it. -/
def writtenText (text : Text) : Text :=
  .scalar '"' :: text.flatMap writtenCharacter ++ [.scalar '"']

/-- The list of texts as a JSON document writes it. -/
def writtenList (texts : List Text) : Text :=
  .scalar '[' :: (", " : Text).intercalate (texts.map writtenText) ++ [.scalar ']']

end VerbExpansion.Json
