import VerbExpansion.Interruption
import VerbExpansion.Pattern
import VerbExpansion.Token

/-!
# Filling patterns

A pattern becomes a command when its placeholders are filled. The command is either one line for a
shell (`commandLine`), or a list of arguments for a program that is started without a shell
(`arguments`). A line is filled first and cut into tokens afterwards; a list is cut first, and each
token is filled on its own, so that what fills it stays one argument.

A placeholder that nothing fills stays as it is written, so that a mistake in a definition shows in
the command. What was filled in is never looked at again for placeholders.
-/

namespace VerbExpansion

/-- What fills a placeholder, if anything does. -/
abbrev Filling := Placeholder → Except Interruption (Option Text)

namespace Filling

variable (filling : Filling)

/-- What a piece of a pattern becomes. -/
def fillPiece : Piece → Except Interruption Text
  | .literal character => .ok [character]
  | .gap placeholder => do
    let text ← filling placeholder
    return text.getD placeholder.source

/-- What a pattern becomes, its gaps filled from left to right. -/
def fillPattern : Pattern → Except Interruption Text
  | [] => .ok []
  | piece :: pattern => do
    let text ← fillPiece filling piece
    let rest ← fillPattern pattern
    return text ++ rest

/-- What a text with placeholders becomes. -/
def fill (text : Text) : Except Interruption Text :=
  fillPattern filling (Pattern.ofText text)

/-- The tokens of the command line. -/
def commandTokens (pattern : Text) : Except Interruption (List Text) := do
  let filled ← fill filling pattern
  return (Token.listOfText .paired filled).map Token.value

/-- The command as one line for a shell, with one space between tokens. -/
def commandLine (pattern : Text) : Except Interruption Text := do
  let tokens ← commandTokens filling pattern
  return Text.spaced tokens

/-- What tokens become, each filled on its own. -/
def fillTokens : List Token → Except Interruption (List Text)
  | [] => .ok []
  | token :: tokens => do
    let text ← fill filling token.value
    let others ← fillTokens tokens
    return text :: others

/-- The command as a list of arguments. -/
def arguments (pattern : Text) : Except Interruption (List Text) :=
  fillTokens filling (Token.listOfText .ordinary pattern)

end Filling

end VerbExpansion
