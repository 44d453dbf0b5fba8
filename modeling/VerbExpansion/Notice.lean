import VerbExpansion.Path.Basic
import VerbExpansion.Placeholder.Basic
import VerbExpansion.Text.Numeral
import VerbExpansion.Text.Quoted

/-!
# Notices

What is worth telling about a job beside its result. Warnings are always told; all else is for
finding out why a definition does not do what its author meant.
-/

namespace VerbExpansion

/-- Something worth telling. -/
inductive Notice where
  /-- A gap of an invocation has a format, which means nothing there. -/
  | formatIgnored (format group : Text)
  /-- The arguments of an invocation were read; they accept what the expression accepts. -/
  | argumentsRead (arguments expression : Text)
  /-- Typed arguments do not match an invocation. -/
  | argumentsRejected (arguments invocation : Text)
  /-- A placeholder asks for a format that is not known. -/
  | formatUnknown (format name : Text)
  /-- A placeholder stays in the command as it is written. -/
  | placeholderLeft (placeholder : Placeholder)
  /-- A token of a command is the path of something that exists. -/
  | tokenExists (token : Text)
  /-- There is no configuration file. -/
  | configurationMissing (path : Path)
  /-- A configuration file was read. -/
  | configurationRead (verbs : Nat) (path : Path)
  /-- A verb was defined. -/
  | verbDefined (verb execution : Text)
  /-- The arguments given for an expansion do not match the invocation given with them. There are no
  arguments where a separator took them away. -/
  | argumentsUnused (arguments : Option Text) (invocation : Text)
  deriving DecidableEq

namespace Notice

/-- The part of the program that has something to tell. -/
def origin : Notice → Text
  | formatIgnored .. | argumentsRead .. | argumentsRejected .. =>
    "verbexec.invocation_parser"
  | formatUnknown .. | placeholderLeft .. | tokenExists .. => "verbexec.execution_builder"
  | configurationMissing .. | configurationRead .. => "verbexec.config"
  | verbDefined .. => "verbexec.verb"
  | argumentsUnused .. => "verbexec.cli.expand"

/-- Whether the notice is told without being asked for. -/
def isWarning : Notice → Bool
  | argumentsUnused .. => true
  | _ => false

/-- The notice in words. -/
def message : Notice → Text
  | formatIgnored format group =>
    "ignoring format " ++ Text.quoted format ++ " of invocation group " ++
      Text.quoted group
  | argumentsRead arguments expression =>
    "invocation " ++ Text.quoted arguments ++ " compiled to " ++
      Text.quoted expression
  | argumentsRejected arguments invocation =>
    "args " ++ Text.quoted arguments ++ " don't match invocation " ++ invocation
  | formatUnknown format name =>
    "invalid format " ++ Text.quoted format ++ " for placeholder " ++
      Text.quoted name
  | placeholderLeft placeholder =>
    "leaving unresolved placeholder " ++ placeholder.source
  | tokenExists token => "token " ++ Text.quoted token ++ " names an existing path"
  | configurationMissing path =>
    "no config file at " ++ path.text ++ ", using defaults"
  | configurationRead verbs path =>
    "loaded " ++ Text.ofNatural verbs ++ " verbs from " ++ path.text
  | verbDefined verb execution =>
    "verb " ++ Text.quoted verb ++ " executes " ++ Text.quoted execution
  | argumentsUnused arguments invocation =>
    "arguments " ++ arguments.elim Text.void Text.quoted ++ " don't match invocation " ++
      Text.quoted invocation

/-- The line by which the notice is told. -/
def line (notice : Notice) : Text :=
  notice.origin ++ (if notice.isWarning then " WARNING: " else " DEBUG: ") ++
    notice.message ++ "\n"

end Notice

end VerbExpansion
