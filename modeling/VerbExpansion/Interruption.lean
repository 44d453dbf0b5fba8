import VerbExpansion.Json.Value

/-!
# Interruptions

What may stop a job that is well defined in itself. Nothing here is a mistake in what a user wrote:
such mistakes are configuration errors.
-/

namespace VerbExpansion

/-- What a value is asked for that a separator took away from a command line. -/
inductive VoidUse where
  /-- Whether it is a directory. -/
  | directory
  /-- Its parent. -/
  | parent
  /-- Whether it matches an invocation. -/
  | matching
  deriving DecidableEq

/-- Why a job stops without a result. -/
inductive Interruption where
  /-- The disk refuses to say what is at a path. -/
  | accessDenied
  /-- A path starts at the home directory of a user that is not known. -/
  | homeUnknown
  /-- A file is not valid UTF-8. -/
  | undecodable
  /-- A file holds an integer with more digits than are read. -/
  | oversizedInteger (digits : Nat)
  /-- A file holds a container inside of more containers than are read. -/
  | tooDeep (container : Json.Container)
  /-- A line is asked for whose number has more digits than are written. -/
  | oversizedLine
  /-- A text with a surrogate in it is to be printed. What was printed before stays. -/
  | unencodable (printed : Text)
  /-- A value is needed that a separator took away from a command line. -/
  | void (use : VoidUse)
  deriving DecidableEq

/-- What was printed before the job stopped. -/
def Interruption.printed : Interruption → Text
  | unencodable printed => printed
  | _ => []

/-- The reason in words. -/
def Interruption.message : Interruption → Text
  | accessDenied => "Access to a path is denied."
  | homeUnknown => "Could not determine home directory."
  | undecodable => "A file is not valid UTF-8."
  | oversizedInteger _ => "A file holds an integer with too many digits."
  | tooDeep _ => "A file holds containers nested too deeply."
  | oversizedLine => "The number of the line has too many digits."
  | unencodable _ => "The output holds a character that cannot be encoded."
  | void .directory => "A path is missing: there is a separator in its place."
  | void .parent => "A path with a parent is missing: there is a separator in its place."
  | void .matching => "The arguments are missing: there is a separator in their place."

end VerbExpansion
