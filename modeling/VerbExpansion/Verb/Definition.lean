import VerbExpansion.Json.Binary64
import VerbExpansion.Json.Issue

/-!
# Definitions of verbs

A verb is defined by an object of a configuration. Fields that are not known are of no consequence,
and an absent field is as good as null.

A truth value may be written as such, as the number zero or one, or as one of some words in any case.
-/

namespace VerbExpansion

/-- A verb as a configuration defines it. -/
structure Definition where
  invocation : Option Text := none
  execution : Text
  key : Option Text := none
  shortcut : Option Text := none
  description : Option Text := none
  fromShell : Option Bool := none
  leaveApplication : Option Bool := none
  deriving DecidableEq

namespace Definition

open Json

/-- The words for true, in lower case. -/
def trueWords : List Text :=
  ["1", "on", "t", "true", "y", "yes"]

/-- The words for false, in lower case. -/
def falseWords : List Text :=
  ["0", "off", "f", "false", "n", "no"]

/-- The truth value that a word stands for, with no regard to the case of ASCII letters. -/
def truthOfWord? (word : Text) : Option Bool :=
  let lower := word.map Character.toLower
  if trueWords.contains lower then some true
  else if falseWords.contains lower then some false
  else none

/-- The check of a number as a truth value: zero and one are clear, and numbers up to the given
bounds are unclear. -/
def truthOfInteger (low high number : Int) : Checked Bool :=
  if number = 0 then .valid false
  else if number = 1 then .valid true
  else if low ≤ number ∧ number ≤ high then .fail .unclearBoolean
  else .fail .notBoolean

/-- The bound of the integers of 64 bits: they are below it, and not below its negative. -/
def magnitudeBound : Int :=
  0x8000000000000000

/-- The check of a value as a truth value. A number that is not written as an integer counts as the
number it is held as; then the least integer of 64 bits is out of bounds. -/
def truth : Value → Checked Bool
  | .boolean value => .valid value
  | .integer number => truthOfInteger (-magnitudeBound) (magnitudeBound - 1) number
  | .decimal mantissa exponent =>
    match Binary64.integerNearest? mantissa exponent with
    | some number => truthOfInteger (1 - magnitudeBound) (magnitudeBound - 1) number
    | none => .fail .notBoolean
  | .text word =>
    if word.any Character.isSurrogate then .fail .brokenText
    else
      match truthOfWord? word with
      | some value => .valid value
      | none => .fail .unclearBoolean
  | _ => .fail .notBoolean

/-- The check of a value as a text. -/
def content : Value → Checked Text
  | .text text => .valid text
  | _ => .fail .notText

/-- The check of a value that may be null. -/
def orNull {Result : Type} (check : Value → Checked Result) : Value → Checked (Option Result)
  | .null => .valid none
  | value => some <$> check value

/-- The check of a field that may be absent or null. -/
def optionalField {Result : Type} (check : Value → Checked Result)
    (members : List (Text × Value)) (name : String) : Checked (Option Result) :=
  match lastMember? members name with
  | none => .valid none
  | some value => .inside (.field name) (orNull check value)

/-- The check of a field that has to be there. -/
def requiredField {Result : Type} (check : Value → Checked Result)
    (members : List (Text × Value)) (name : String) : Checked Result :=
  .inside (.field name)
    (match lastMember? members name with
    | none => .fail .missing
    | some value => check value)

/-- The definition that a value writes. -/
def ofJson : Value → Checked Definition
  | .object members =>
    Definition.mk
      <$> optionalField content members "invocation"
      <*> requiredField content members "execution"
      <*> optionalField content members "key"
      <*> optionalField content members "shortcut"
      <*> optionalField content members "description"
      <*> optionalField truth members "from_shell"
      <*> optionalField truth members "leave_app"
  | _ => .fail .notObject

end Definition

end VerbExpansion
