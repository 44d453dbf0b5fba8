import VerbExpansion.Text.Blank

/-!
# Typed commands

A command is typed as a name with arguments after it. A bang at the end of the name, or else at its
start, is not part of the name. A colon may stand before the whole.
-/

namespace VerbExpansion

/-- A command as a user types it. The arguments are kept as one text. -/
structure TypedCommand where
  name : Text
  bang : Bool := false
  arguments : Option Text := none
  deriving DecidableEq

namespace TypedCommand

/-- The text of a command without surrounding blanks and without the colon before it. -/
def body (text : Text) : Text :=
  match Text.trim text with
  | .scalar ':' :: rest => Text.trimStart rest
  | trimmed => trimmed

/-- A word without its bang, and whether it had one. The bang at the end counts first, and only one
bang is taken. -/
def splitBang (word : Text) : Text × Bool :=
  if word.getLast? = some (.scalar '!') then (word.dropLast, true)
  else
    match word with
    | .scalar '!' :: rest => (rest, true)
    | _ => (word, false)

/-- The command that a text types. -/
def ofText (text : Text) : TypedCommand :=
  let (word, rest) := Text.firstWord (body text)
  let (name, bang) := splitBang word
  match Text.trimStart rest with
  | [] => ⟨name, bang, none⟩
  | arguments => ⟨name, bang, some arguments⟩

/-- The command as it would be typed under another name. -/
def textAs (command : TypedCommand) (name : Text) : Text :=
  name ++ (if command.bang then [.scalar '!'] else []) ++
    match command.arguments with
    | none => []
    | some arguments => .scalar ' ' :: arguments

/-- The command as it would be typed, without a colon. -/
def text (command : TypedCommand) : Text :=
  command.textAs command.name

/-- Whether the command names nothing. -/
def isEmpty (command : TypedCommand) : Bool :=
  command.name.isEmpty

end TypedCommand

end VerbExpansion
