import VerbExpansion.Json.Issue
import VerbExpansion.Path.Basic
import VerbExpansion.Text.Quoted

/-!
# Configuration errors

What can be wrong with a verb or with a configuration file, as causes. `message` gives the words.
-/

namespace VerbExpansion

/-- Why the bytes of a file, or the document in them, could not be had. -/
inductive ReadFailure where
  | accessDenied
  | isDirectory
  /-- The text is not a JSON document. -/
  | malformed
  deriving DecidableEq

/-- The failure in words of this library. A system and a reader of documents have words of their own for
what happened, and these are not reproduced. -/
def ReadFailure.message : ReadFailure → Text
  | accessDenied => "access denied"
  | isDirectory => "it is a directory"
  | malformed => "it is not a JSON document"

/-- A mistake in a configuration. -/
inductive ConfigError where
  /-- No builtin has this name. -/
  | unknownBuiltin (name : Text)
  /-- The invocation of a verb cannot be used, for a reason that may be empty. -/
  | invalidInvocation (invocation reason : Text)
  /-- A verb executes nothing. -/
  | emptyExecution
  /-- A verb that executes a program has no invocation. -/
  | missingInvocation (execution : Text)
  /-- The invocation of a verb has no name. -/
  | namelessInvocation (invocation : Text)
  /-- A verb that executes a builtin was asked for a command of a program. -/
  | notExternal (verb : Text)
  /-- A configuration file could not be read. -/
  | unreadableFile (path : Path) (failure : ReadFailure)
  /-- A configuration file does not hold a configuration. -/
  | invalidFile (path : Path) (issues : List Json.Issue)

namespace ConfigError

/-- A reason as it follows what it is the reason for. -/
def parenthesized (reason : Text) : Text :=
  if reason.isEmpty then [] else " (" ++ reason ++ ")"

/-- The error in words, up to what the words of its own cause would add. -/
def summary : ConfigError → Text
  | unknownBuiltin name => "Not a known internal: " ++ Text.quoted name
  | invalidInvocation invocation reason =>
    "Invalid verb invocation: " ++ Text.quoted invocation ++ parenthesized reason
  | emptyExecution => "Verb execution can't be empty"
  | missingInvocation execution =>
    "Verb executing " ++ Text.quoted execution ++ " needs an invocation"
  | namelessInvocation invocation => "Invalid verb invocation: " ++ Text.quoted invocation
  | notExternal verb =>
    "Verb " ++ Text.quoted verb ++ " doesn't execute an external program"
  | unreadableFile path _ => "Can't read config file " ++ path.text ++ ": "
  | invalidFile path _ => "Invalid config file " ++ path.text ++ ": "

/-- What the cause of the error adds to its summary, in words of this library. -/
def detail : ConfigError → Text
  | unreadableFile _ failure => failure.message
  | invalidFile _ issues => ("; " : Text).intercalate (issues.map Json.Issue.message)
  | _ => []

/-- The error in words. -/
def message (error : ConfigError) : Text :=
  error.summary ++ error.detail

end ConfigError

end VerbExpansion
