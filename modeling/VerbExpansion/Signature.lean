import VerbExpansion.ConfigError
import VerbExpansion.Notice
import VerbExpansion.Pattern.Expression
import VerbExpansion.Pattern.Match
import VerbExpansion.TypedCommand

/-!
# Signatures

The signature of a verb says how the verb is typed: its name, and a pattern for its arguments, whose
gaps are the groups of the signature. No two groups have the same name. Typed arguments that match
the pattern give every group a value.
-/

namespace VerbExpansion

/-- What was typed for the groups of a signature, in the order of the groups. -/
abbrev GroupValues := List (Text × Text)

/-- The first text of a list that stands before itself in the list, or among those seen before. -/
def firstRepeated? : (seen : List Text) → List Text → Option Text
  | _, [] => none
  | seen, text :: rest =>
    if text ∈ seen then some text else firstRepeated? (text :: seen) rest

/-- Where nothing is repeated, all are different. -/
theorem nodup_of_firstRepeated? {seen texts : List Text}
    (noneRepeated : firstRepeated? seen texts = none) :
    texts.Nodup ∧ ∀ text ∈ texts, text ∉ seen := by
  induction texts generalizing seen with
  | nil => simp
  | cons text rest inductionHypothesis =>
    unfold firstRepeated? at noneRepeated
    split at noneRepeated
    · cases noneRepeated
    · next unseen =>
      obtain ⟨restDistinct, restUnseen⟩ := inductionHypothesis noneRepeated
      refine ⟨List.nodup_cons.2 ⟨fun repeated => ?_, restDistinct⟩, fun other member => ?_⟩
      · exact restUnseen text repeated List.mem_cons_self
      · rcases List.mem_cons.1 member with rfl | member
        · exact unseen
        · exact fun wasSeen => restUnseen other member (List.mem_cons_of_mem _ wasSeen)

namespace TypedCommand

/-- The arguments of a command as a pattern. -/
def pattern? (command : TypedCommand) : Option Pattern :=
  command.arguments.map Pattern.ofText

/-- The names of the gaps in the arguments of a command, in order. -/
def groups (command : TypedCommand) : List Text :=
  match command.pattern? with
  | none => []
  | some pattern => pattern.placeholders.map (·.name)

end TypedCommand

/-- How a verb is typed. -/
structure Signature where
  /-- The command as the signature writes it, with a pattern for its arguments. -/
  command : TypedCommand
  distinct : command.groups.Nodup
  deriving DecidableEq

namespace Signature

/-- The signature that a text writes. -/
def ofText (text : Text) : Except ConfigError Signature :=
  let command := TypedCommand.ofText text
  match repeated : firstRepeated? [] command.groups with
  | none => .ok ⟨command, (nodup_of_firstRepeated? repeated).1⟩
  | some group =>
    .error (.invalidInvocation command.text ("duplicate group " ++ Text.quoted group))

/-- The name under which the verb is typed. -/
def name (signature : Signature) : Text :=
  signature.command.name

/-- The names of the groups, in order. -/
def groups (signature : Signature) : List Text :=
  signature.command.groups

/-- Whether the verb takes arguments. -/
def takesArguments (signature : Signature) : Bool :=
  signature.command.arguments.isSome

/-- The values that typed arguments give the groups; nothing when they do not match, and nothing when
the verb takes no arguments. -/
def values? (signature : Signature) (arguments : Text) : Option GroupValues :=
  match signature.command.pattern? with
  | none => none
  | some pattern => (pattern.capture? arguments).map (signature.groups.zip ·)

/-- What to tell a user about a typed command whose arguments do not fit, if they do not: how the
command is used, under the name that was typed. A missing argument counts as an empty one. -/
def complaint? (signature : Signature) (typed : TypedCommand) : Option Text :=
  match signature.command.pattern? with
  | none =>
    match typed.arguments with
    | none => none
    | some _ => some (typed.name ++ " doesn't take arguments")
  | some pattern =>
    match pattern.capture? (typed.arguments.getD []) with
    | some _ => none
    | none => some (signature.command.textAs typed.name)

/-! ## Notices -/

/-- The placeholders of a list up to the first one whose name was there before, included. -/
def untilRepeated : (seen : List Text) → List Placeholder → List Placeholder
  | _, [] => []
  | seen, placeholder :: rest =>
    if placeholder.name ∈ seen then [placeholder]
    else placeholder :: untilRepeated (placeholder.name :: seen) rest

/-- What there is to tell about reading a signature. -/
def readingNotices (text : Text) : List Notice :=
  let command := TypedCommand.ofText text
  match command.arguments with
  | none => []
  | some arguments =>
    let pattern := Pattern.ofText arguments
    (untilRepeated [] pattern.placeholders).filterMap (fun placeholder =>
      placeholder.format.map fun format => .formatIgnored format placeholder.name) ++
    match firstRepeated? [] command.groups with
    | none => [.argumentsRead arguments pattern.expression]
    | some _ => []

/-- What there is to tell about matching typed arguments. -/
def matchingNotices (signature : Signature) (arguments : Text) : List Notice :=
  if signature.takesArguments && (signature.values? arguments).isNone then
    [.argumentsRejected arguments signature.command.text]
  else []

end Signature

end VerbExpansion
