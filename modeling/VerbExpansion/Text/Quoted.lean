import VerbExpansion.Text.Hexadecimal
import VerbExpansion.Text.Printable

/-!
# Texts shown in messages

A message shows a text between quotation marks, so that its ends can be seen, and with escapes in
place of the characters that would not show.
-/

namespace VerbExpansion.Text

/-- The mark that encloses a shown text: a single quote, unless the text holds single quotes and no
double quote. -/
def quotationMark (text : Text) : Character :=
  if text.contains '\'' && !text.contains '"' then '"' else '\''

/-- What stands for a character between two marks. -/
def shown (mark character : Character) : Text :=
  if character == mark || character == '\\' then [.scalar '\\', character]
  else if character == '\n' then [.scalar '\\', .scalar 'n']
  else if character == '\r' then [.scalar '\\', .scalar 'r']
  else if character == '\t' then [.scalar '\\', .scalar 't']
  else if isPrintable character then [character]
  else if character.toNat < 0x100 then .scalar '\\' :: .scalar 'x' :: hexadecimal 2 character.toNat
  else if character.toNat < 0x10000 then
    .scalar '\\' :: .scalar 'u' :: hexadecimal 4 character.toNat
  else .scalar '\\' :: .scalar 'U' :: hexadecimal 8 character.toNat

/-- What stands for a text that is not there. -/
def void : Text :=
  "[]"

/-- The text as messages show it. -/
def quoted (text : Text) : Text :=
  let mark := quotationMark text
  mark :: text.flatMap (shown mark) ++ [mark]

end VerbExpansion.Text
