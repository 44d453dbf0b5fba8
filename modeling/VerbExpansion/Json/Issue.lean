import VerbExpansion.Json.Value
import VerbExpansion.Text.Numeral

/-!
# Issues with a document

A document is checked as a whole: each check gives a value or the issues it found, and checks that do
not depend on each other are joined so that all their issues are kept, in order.
-/

namespace VerbExpansion.Json

/-- One step from a value into a part of it. -/
inductive Step where
  | field (name : Text)
  | index (position : Nat)
  deriving DecidableEq

/-- What can be wrong with a value. -/
inductive Fault where
  | notObject
  | notArray
  | missing
  | notText
  /-- The text holds a surrogate that stands alone, where that has no meaning. -/
  | brokenText
  /-- The value is of a kind that never stands for true or false. -/
  | notBoolean
  /-- The value is of a kind that may stand for true or false, but this one does not. -/
  | unclearBoolean
  deriving DecidableEq

/-- Something wrong with a part of a document. -/
structure Issue where
  location : List Step
  fault : Fault
  deriving DecidableEq

namespace Issue

/-- The issue, seen from a value that has this value as a part. -/
def inside (step : Step) (issue : Issue) : Issue :=
  ⟨step :: issue.location, issue.fault⟩

/-- The step in words. -/
def stepText : Step → Text
  | .field name => name
  | .index position => Text.ofNatural position

/-- The fault in words of this library: those of another checker of documents differ. -/
def faultText : Fault → Text
  | .notObject => "an object is expected"
  | .notArray => "a list is expected"
  | .missing => "it is missing"
  | .notText => "a text is expected"
  | .brokenText => "the text holds a surrogate that stands alone"
  | .notBoolean => "true or false is expected"
  | .unclearBoolean => "this stands for neither true nor false"

/-- The issue in words. -/
def message (issue : Issue) : Text :=
  [.scalar '.'].intercalate (issue.location.map stepText) ++ ": " ++ faultText issue.fault

end Issue

/-- The outcome of a check: a value, or what is wrong. -/
inductive Checked (Result : Type) where
  | valid (result : Result)
  | invalid (issues : List Issue)
  deriving DecidableEq

namespace Checked

/-- A check that fails at once, with one fault. -/
def fail {Result : Type} (fault : Fault) : Checked Result :=
  invalid [⟨[], fault⟩]

/-- The check of a part, seen from the whole. -/
def inside {Result : Type} (step : Step) : Checked Result → Checked Result
  | valid result => valid result
  | invalid issues => invalid (issues.map (Issue.inside step))

/-- Both checks; the issues of the first come first. -/
def apply {Argument Result : Type} :
    Checked (Argument → Result) → (Unit → Checked Argument) → Checked Result
  | valid function, argument =>
    match argument () with
    | valid result => valid (function result)
    | invalid issues => invalid issues
  | invalid first, argument =>
    match argument () with
    | valid _ => invalid first
    | invalid second => invalid (first ++ second)

instance : Applicative Checked where
  pure := valid
  seq := apply

/-- The check of every element of a list, at its position. -/
def elements {Element Result : Type} (check : Element → Checked Result) :
    (position : Nat) → List Element → Checked (List Result)
  | _, [] => valid []
  | position, element :: rest =>
    (· :: ·) <$> inside (.index position) (check element) <*> elements check (position + 1) rest

end Checked

end VerbExpansion.Json
