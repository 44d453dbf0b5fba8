import VerbExpansion.Filling
import VerbExpansion.Notice
import VerbExpansion.Path.Resolve
import VerbExpansion.Placeholder.Meaning
import VerbExpansion.Selection
import VerbExpansion.Shell.Word
import VerbExpansion.Signature
import VerbExpansion.World

/-!
# Expansion

An execution pattern is expanded for a selection into a command. The names that are set aside are
filled from the selection and from the other panel, and all other names from what was typed.
-/

namespace VerbExpansion

/-- How paths are written into a command. -/
inductive PathStyle where
  | plain
  /-- As one word of a shell. -/
  | shellWord
  deriving DecidableEq

/-- The path in this style. -/
def PathStyle.write : PathStyle → Path → Text
  | plain, path => path.text
  | shellWord, path => Shell.quote path.text

/-- What placeholders are filled from. -/
structure Context where
  selection : Selection
  /-- What is selected in the other panel, if there is one. -/
  other : Option Path := none
  /-- What was typed for the groups of the verb, if that is known. -/
  values : Option GroupValues := none

namespace Context

/-- The context in which a verb was typed with these arguments. -/
def ofTyped (signature : Option Signature) (selection : Selection) (other : Option Path)
    (arguments : Option Text) : Context :=
  ⟨selection, other,
    match signature, arguments with
    | some signature, some arguments => signature.values? arguments
    | _, _ => none⟩

/-- What was typed for the group with this name. -/
def value? (context : Context) (group : Text) : Option Text :=
  context.values.bind (·.lookup group)

variable (surroundings : Surroundings) (context : Context)

/-- What a name that is set aside stands for. -/
def namedText? (style : PathStyle) : ContextName → Except Interruption (Option Text)
  | .line => do
    let number ← context.selection.lineText
    return some number
  | .file => .ok (some (style.write context.selection.path))
  | .directory => do
    let directory ← surroundings.disk.closestDirectory context.selection.path
    return some (style.write directory)
  | .parent => .ok (some (style.write context.selection.path.parent))
  | .otherPanelFile => .ok (context.other.map style.write)
  | .otherPanelDirectory =>
    match context.other with
    | none => .ok none
    | some other => do
      let directory ← surroundings.disk.closestDirectory other
      return some (style.write directory)
  | .otherPanelParent => .ok (context.other.map fun other => style.write other.parent)

/-- The directory from which a typed path is read. -/
def baseDirectory : PathBase → Except Interruption Path
  | .directory => surroundings.disk.closestDirectory context.selection.path
  | .parent => .ok context.selection.path.parent

/-- What a typed value becomes in the format of its placeholder. A typed value is never quoted for a
shell. -/
def formatted (value : Text) : (format : Option Text) → Except Interruption Text
  | none => .ok value
  | some format =>
    match PathBase.ofText? format with
    | some base => do
      let directory ← baseDirectory surroundings context base
      return (Path.resolve surroundings.home directory value).text
    | none => .ok ("invalid format: " ++ Text.quoted format)

/-- What fills a placeholder, if anything does. -/
def filling? (style : PathStyle) : Filling := fun placeholder =>
  match placeholder.contextName? with
  | some name => namedText? surroundings context style name
  | none =>
    match context.value? placeholder.name with
    | none => .ok none
    | some value => do
      let text ← formatted surroundings context value placeholder.format
      return some text

/-- The command as one line for a shell, in which paths are written as shell words. -/
def commandLine (pattern : Text) : Except Interruption Text :=
  Filling.commandLine (filling? surroundings context .shellWord) pattern

/-- The command as a list of arguments, in which paths are written as they are. -/
def arguments (pattern : Text) : Except Interruption (List Text) :=
  Filling.arguments (filling? surroundings context .plain) pattern

/-! ## Notices -/

/-- What there is to tell about filling a placeholder. -/
def placeholderNotices (placeholder : Placeholder) : List Notice :=
  match placeholder.contextName? with
  | some .otherPanelFile | some .otherPanelDirectory | some .otherPanelParent =>
    if context.other.isNone then [.placeholderLeft placeholder] else []
  | some _ => []
  | none =>
    match context.value? placeholder.name, placeholder.format with
    | none, _ => [.placeholderLeft placeholder]
    | some _, none => []
    | some _, some format =>
      match PathBase.ofText? format with
      | some _ => []
      | none => [.formatUnknown format placeholder.name]

/-- What there is to tell about filling a text. -/
def fillingNotices (text : Text) : List Notice :=
  (Pattern.ofText text).placeholders.flatMap (placeholderNotices context)

/-- What there is to tell about a list of arguments. -/
def argumentsNotices (pattern : Text) : List Notice :=
  (Token.listOfText .ordinary pattern).flatMap fun token => fillingNotices context token.value

end Context

/-- What there is to tell about the tokens of a command line: which of them exist. -/
def Disk.tokenNotices (disk : Disk) (tokens : List Text) : List Notice :=
  (tokens.filter fun token => !token.isEmpty && disk.holds (Path.ofText token)).map .tokenExists

end VerbExpansion
