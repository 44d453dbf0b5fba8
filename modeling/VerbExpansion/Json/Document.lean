import VerbExpansion.Json.Lexeme

/-!
# JSON documents

A document is one value. It is read lexeme by lexeme: `State` says what may come next and which
containers are still open, and `State.step` takes one lexeme. The first lexeme that may not come next
is what is wrong with the document.
-/

namespace VerbExpansion.Json

/-- What is wrong with a document. -/
inductive DocumentError where
  /-- The text is no JSON document. -/
  | malformed
  /-- The document is well formed up to an integer with more digits than are read. -/
  | oversizedInteger (digits : Nat)
  /-- The document is well formed up to a container inside of more containers than are read. -/
  | tooDeep (container : Container)
  deriving DecidableEq

/-- How many containers may be open at a time. A reader that calls itself for each of them has a stack
of 1000 calls, and ten of these are under way when the command line reads a configuration. Where a
program comes to its reader in another way, the number differs by a few. -/
def deepestNesting : Nat := 990

/-- A container that is still open, with what it holds so far, last first. -/
inductive OpenContainer where
  | array (items : List Value)
  /-- An object, and the key whose value is being read. -/
  | object (members : List (Text × Value)) (key : Text)

/-- A place in a document: what may come next, inside the open containers, innermost first. -/
inductive State where
  /-- A value. -/
  | atValue (containers : List OpenContainer)
  /-- The first item of an array, or its end. -/
  | atFirstItem (containers : List OpenContainer)
  /-- The first key of an object, or its end. -/
  | atFirstKey (containers : List OpenContainer)
  /-- A key. -/
  | atKey (members : List (Text × Value)) (containers : List OpenContainer)
  /-- The colon after a key. -/
  | atColon (members : List (Text × Value)) (key : Text)
    (containers : List OpenContainer)
  /-- A comma, or the end of the array. -/
  | afterItem (items : List Value) (containers : List OpenContainer)
  /-- A comma, or the end of the object. -/
  | afterMember (members : List (Text × Value)) (containers : List OpenContainer)
  /-- Nothing: the document is complete. -/
  | complete (value : Value)

namespace State

/-- The place after a value. -/
def after (value : Value) : List OpenContainer → State
  | [] => complete value
  | .array items :: containers => afterItem (value :: items) containers
  | .object members key :: containers => afterMember ((key, value) :: members) containers

/-- The place after a lexeme that starts a value, or is one. -/
def startValue (containers : List OpenContainer) : Lexeme → Except DocumentError State
  | .literal literal => .ok (after literal containers)
  | .quoted content => .ok (after (.text content) containers)
  | .openBracket =>
    if containers.length < deepestNesting then .ok (atFirstItem containers)
    else .error (.tooDeep .array)
  | .openBrace =>
    if containers.length < deepestNesting then .ok (atFirstKey containers)
    else .error (.tooDeep .object)
  | .oversizedInteger digits => .error (.oversizedInteger digits)
  | _ => .error .malformed

/-- The place after one more lexeme. -/
def step : State → Lexeme → Except DocumentError State
  | atValue containers, lexeme => startValue containers lexeme
  | atFirstItem containers, .closeBracket => .ok (after (.array []) containers)
  | atFirstItem containers, lexeme => startValue (.array [] :: containers) lexeme
  | atFirstKey containers, .closeBrace => .ok (after (.object []) containers)
  | atFirstKey containers, .quoted name => .ok (atColon [] name containers)
  | atKey members containers, .quoted name => .ok (atColon members name containers)
  | atColon members name containers, .colon => .ok (atValue (.object members name :: containers))
  | afterItem items containers, .comma => .ok (atValue (.array items :: containers))
  | afterItem items containers, .closeBracket => .ok (after (.array items.reverse) containers)
  | afterMember members containers, .comma => .ok (atKey members containers)
  | afterMember members containers, .closeBrace =>
    .ok (after (.object members.reverse) containers)
  | _, _ => .error .malformed

end State

/-- The value that a document writes. -/
def Value.ofText (text : Text) : Except DocumentError Value :=
  match (Lexeme.listOfText text).foldlM State.step (.atValue []) with
  | .ok (.complete value) => .ok value
  | .ok _ => .error .malformed
  | .error error => .error error

end VerbExpansion.Json
