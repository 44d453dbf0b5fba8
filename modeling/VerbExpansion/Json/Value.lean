import VerbExpansion.Text.Basic

/-!
# JSON values

Numbers are kept as they are written: an integer exactly, any other number as the decimal that it
writes. Beside the standard's values there are the three numbers that are not finite.
-/

namespace VerbExpansion.Json

/-- A JSON value. -/
inductive Value where
  | null
  | boolean (value : Bool)
  | integer (value : Int)
  /-- A number with a point or an exponent: the mantissa times a power of ten. -/
  | decimal (mantissa exponent : Int)
  /-- An infinity, or the number that is no number. -/
  | notFinite
  | text (content : Text)
  | array (items : List Value)
  /-- An object with its members in order, repeated keys included. -/
  | object (members : List (Text × Value))

/-- The values that hold other values. -/
inductive Container where
  | array
  | object
  deriving DecidableEq

/-- The value of the last member with this key. -/
def lastMember? (members : List (Text × Value)) (key : Text) : Option Value :=
  members.foldl (fun found (name, value) => if name = key then some value else found) none

end VerbExpansion.Json
