import VerbExpansion.Failure
import VerbExpansion.Verb.Action
import VerbExpansion.Verb.Definition

/-!
# Verbs

A verb is how it is typed and what it does. `Verb.ofDefinition` makes one from its definition, or
says why the definition cannot be used. Of several reasons, one about what the verb executes comes
before one about how it is typed.
-/

namespace VerbExpansion

/-- A verb. -/
structure Verb where
  signature : Signature
  action : Action
  key : Option Text := none
  shortcut : Option Text := none
  /-- The description that the definition gives. -/
  ownDescription : Option Text := none
  deriving DecidableEq

namespace Verb

/-- What an execution text does: a builtin is called after a colon, and all else is a program. -/
def actionOf (definition : Definition) (execution : Text) : Except ConfigError Action :=
  match execution with
  | .scalar ':' :: _ =>
    match BuiltinCall.ofText execution with
    | .ok call => .ok (.builtin call)
    | .error error => .error error
  | _ =>
    .ok (.launch ⟨execution, .ofSettings definition.fromShell definition.leaveApplication⟩)

/-- How a verb is typed that has this action. A builtin is typed by its name, unless the definition
says otherwise. -/
def invocationOf (definition : Definition) (execution : Text) (action : Action) :
    Except ConfigError Text :=
  match definition.invocation, action with
  | some invocation, _ => .ok invocation
  | none, .builtin call => .ok call.builtin.name
  | none, .launch _ => .error (.missingInvocation execution)

/-- The verb that a definition defines. -/
def ofDefinition (definition : Definition) : Except ConfigError Verb := do
  let execution := Text.trim definition.execution
  if execution = [] then throw .emptyExecution
  let action ← actionOf definition execution
  let invocation ← invocationOf definition execution action
  let signature ← Signature.ofText invocation
  if signature.name = [] then throw (.namelessInvocation invocation)
  return ⟨signature, action, definition.key, definition.shortcut, definition.description⟩

/-- The verbs that definitions define, in order; the first definition that cannot be used is the
error. -/
def listOfDefinitions : List Definition → Except ConfigError (List Verb)
  | [] => .ok []
  | definition :: definitions => do
    let verb ← ofDefinition definition
    let verbs ← listOfDefinitions definitions
    return verb :: verbs

/-- The name under which the verb is typed. -/
def name (verb : Verb) : Text :=
  verb.signature.name

/-- What the verb does, in words: what the definition says, unless it says nothing, and else what the
builtin does, or the pattern of the program between back quotes. -/
def description (verb : Verb) : Text :=
  match verb.ownDescription with
  | some (first :: rest) => first :: rest
  | _ =>
    match verb.action with
    | .builtin call => call.builtin.description
    | .launch launch => .scalar '\x60' :: launch.pattern ++ [.scalar '\x60']

/-- The command of the verb for a selection, when these arguments were typed. -/
def expand (verb : Verb) (surroundings : Surroundings) (selection : Selection)
    (other : Option Path) (arguments : Option Text) : Except Failure Command :=
  match verb.action with
  | .builtin _ => .error (.refused (.notExternal verb.name))
  | .launch launch =>
    match launch.command surroundings
      (Context.ofTyped (some verb.signature) selection other arguments) with
    | .ok command => .ok command
    | .error interruption => .error (.interrupted interruption)

/-! ## Notices -/

/-- What there is to tell about a definition whose invocation is known. -/
def invocationNotices (definition : Definition) (execution invocation : Text) : List Notice :=
  Signature.readingNotices invocation ++
    match ofDefinition definition with
    | .ok verb => [.verbDefined verb.name execution]
    | .error _ => []

/-- What there is to tell about a definition. -/
def definingNotices (definition : Definition) : List Notice :=
  let execution := Text.trim definition.execution
  if execution = [] then []
  else
    match actionOf definition execution with
    | .error _ => []
    | .ok action =>
      match invocationOf definition execution action with
      | .error _ => []
      | .ok invocation => invocationNotices definition execution invocation

/-- What there is to tell about definitions, up to the first that cannot be used. -/
def listNotices : List Definition → List Notice
  | [] => []
  | definition :: definitions =>
    definingNotices definition ++
      match ofDefinition definition with
      | .ok _ => listNotices definitions
      | .error _ => []

end Verb

end VerbExpansion
