import VerbExpansion.Pattern
import VerbExpansion.Text.Numeral

/-!
# Patterns as regular expressions

A reader who knows regular expressions can be told with one what a pattern accepts: its gaps are
numbered groups, and all else is literal.
-/

namespace VerbExpansion.Pattern

/-- The characters that mean something in a regular expression, and the blanks that an expression
may be laid out with. -/
def operators : Text :=
  "()[]\x7b\x7d?*+-|^$\\.&~# \t\n\r\x0b\x0c"

/-- Whether the character is to be escaped in a regular expression. -/
def isOperator (character : Character) : Bool :=
  operators.contains character

/-- The pieces of a pattern as parts of an expression, with the groups numbered from `number`. -/
def expressionParts : (number : Nat) → Pattern → Text
  | _, [] => []
  | number, .literal character :: pattern =>
    (if isOperator character then [.scalar '\\', character] else [character]) ++
      expressionParts number pattern
  | number, .gap _ :: pattern =>
    "(?P<g" ++ Text.ofNatural number ++ ">.+)" ++ expressionParts (number + 1) pattern

/-- The regular expression that accepts what the pattern matches. -/
def expression (pattern : Pattern) : Text :=
  .scalar '^' :: expressionParts 0 pattern ++ [.scalar '$']

end VerbExpansion.Pattern
