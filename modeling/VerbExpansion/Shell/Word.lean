import VerbExpansion.Text.Blank

/-!
# Shell words

`quote` writes any text so that a shell reads it as exactly one word with that text.
-/

namespace VerbExpansion.Shell

/-- Whether the character is an ASCII letter or digit. -/
def isLetterOrDigit (character : Character) : Bool :=
  let code := character.toNat
  (0x30 ≤ code && code ≤ 0x39) || (0x41 ≤ code && code ≤ 0x5A) || (0x61 ≤ code && code ≤ 0x7A)

/-- The marks that have no meaning of their own to a shell. -/
def plainMarks : Text :=
  "_-@%+=:,./"

/-- Whether the character has no meaning of its own to a shell. -/
def isPlain (character : Character) : Bool :=
  isLetterOrDigit character || plainMarks.contains character

/-- How a character is written between single quotes. A single quote cannot be, so it closes the
quotes, stands between double quotes, and opens them again. -/
def singleQuoted (character : Character) : Text :=
  if character == '\'' then "'\"'\"'" else [character]

/-- The text as one shell word: unchanged when it is not empty and all of it is plain, and otherwise
between single quotes. -/
def quote (text : Text) : Text :=
  if !text.isEmpty && text.all isPlain then text
  else .scalar '\'' :: text.flatMap singleQuoted ++ [.scalar '\'']

end VerbExpansion.Shell
