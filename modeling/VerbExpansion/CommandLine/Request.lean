import VerbExpansion.CommandLine.Options
import VerbExpansion.Path.Basic

/-!
# Requests on the command line

The first argument may say what is wanted: a builtin call is explained, the configured verbs are
listed, or a pattern is expanded, which is also what is wanted when it says nothing. Each of these has
its own options; of a setting given twice, the last value counts.
-/

namespace VerbExpansion.CommandLine

/-- What a command line gives for a setting. -/
inductive Given (Value : Type) where
  /-- The setting is not there. -/
  | absent
  /-- The setting is there, but a separator took its value away. -/
  | void
  | value (value : Value)

namespace Given

variable {Value : Type}

/-- A setting that is there, with its value if it has one. -/
def ofOption : Option Value → Given Value
  | none => void
  | some given => value given

/-- The value, if there is one. -/
def value? : Given Value → Option Value
  | value given => some given
  | _ => none

end Given

/-- A request to expand a pattern for a selected path. -/
structure ExpandRequest where
  debug : Bool := false
  pattern : Text := []
  /-- The selected path, if a separator did not take it away. -/
  file : Option Text := none
  line : Given Int := .absent
  other : Given Text := .absent
  invocation : Given Text := .absent
  arguments : Given Text := .absent
  /-- Whether a list of arguments is wanted, and not a command line. -/
  asArguments : Bool := false

/-- A request to explain a builtin call. -/
structure ExplainRequest where
  debug : Bool := false
  call : Text := []

/-- A request to list the configured verbs. -/
structure ListRequest where
  debug : Bool := false
  configuration : Given Text := .absent

/-- The kinds of requests. -/
inductive RequestKind where
  | expand
  | explain
  | list
  deriving DecidableEq

/-- What a command line asks for. -/
inductive Request where
  | expand (request : ExpandRequest)
  | explain (request : ExplainRequest)
  | list (request : ListRequest)
  | version
  /-- How requests of a kind are made. -/
  | help (kind : RequestKind)

/-- The options of all requests. -/
inductive OptionName where
  | help
  | version
  | debug
  | asArguments
  | line
  | other
  | invocation
  | arguments
  | configuration
  deriving DecidableEq

/-- The flags that every request has. -/
def commonFlags : List (OptionName × Character × Text) :=
  [(.help, 'h', "help"), (.debug, 'd', "debug")]

/-- The command line of an expansion. -/
def expandGrammar : Grammar OptionName where
  flags := (.version, 'V', "version") :: (.asArguments, 't', "tokens") :: commonFlags
  settings := [(.line, "line"), (.other, "other"),
    (.invocation, "invocation"), (.arguments, "args")]
  places := 2

/-- The command line of an explanation. -/
def explainGrammar : Grammar OptionName where
  flags := commonFlags
  settings := []
  places := 1

/-- The command line of a listing. -/
def listGrammar : Grammar OptionName where
  flags := commonFlags
  settings := [(.configuration, "config")]
  places := 0

/-- What takes in one finding: it goes on with a request, answers at once, or refuses. -/
inductive Progress (Draft : Type) where
  | continued (draft : Draft)
  | answered (request : Request)
  | refused

/-- An expansion with one more finding. The pattern is the first plain argument. -/
def ExpandRequest.take (filled : Nat) (request : ExpandRequest) :
    Finding OptionName → Progress ExpandRequest
  | .flag .help => .answered (.help .expand)
  | .flag .version => .answered .version
  | .flag .debug => .continued { request with debug := true }
  | .flag .asArguments => .continued { request with asArguments := true }
  | .setting .line none => .continued { request with line := .void }
  | .setting .line (some value) =>
    match Text.integer? value with
    | some line => .continued { request with line := .value line }
    | none => .refused
  | .setting .other value => .continued { request with other := .ofOption value }
  | .setting .invocation value => .continued { request with invocation := .ofOption value }
  | .setting .arguments value => .continued { request with arguments := .ofOption value }
  | .plain argument =>
    if filled = 0 then .continued { request with pattern := argument.getD [] }
    else .continued { request with file := argument }
  | _ => .refused

/-- An explanation with one more finding. -/
def ExplainRequest.take (request : ExplainRequest) :
    Finding OptionName → Progress ExplainRequest
  | .flag .help => .answered (.help .explain)
  | .flag .debug => .continued { request with debug := true }
  | .plain argument => .continued { request with call := argument.getD [] }
  | _ => .refused

/-- A listing with one more finding. -/
def ListRequest.take (request : ListRequest) : Finding OptionName → Progress ListRequest
  | .flag .help => .answered (.help .list)
  | .flag .debug => .continued { request with debug := true }
  | .setting .configuration value => .continued { request with configuration := .ofOption value }
  | _ => .refused

/-- The request that findings make, one after the other; nothing when one is refused, or when they
end before the command line does. -/
def takeAll {Draft : Type} (take : (filled : Nat) → Draft → Finding OptionName → Progress Draft)
    (finish : Draft → Request) (isComplete : Bool) :
    (filled : Nat) → Draft → List (Finding OptionName) → Option Request
  | _, draft, [] => if isComplete then some (finish draft) else none
  | filled, draft, finding :: rest =>
    match take filled draft finding with
    | .answered request => some request
    | .refused => none
    | .continued draft =>
      let filled :=
        match finding with
        | .plain _ => filled + 1
        | _ => filled
      takeAll take finish isComplete filled draft rest

namespace RequestKind

/-- The kind of request that arguments make, and the arguments that are left for it. -/
def split : List Text → RequestKind × List Text
  | [] => (expand, [])
  | first :: rest =>
    if first = "internal" then (explain, rest)
    else if first = "verbs" then (list, rest)
    else if first = "expand" then (expand, rest)
    else (expand, first :: rest)

/-- The request of a kind that arguments make; nothing when they cannot be understood. -/
def request? (kind : RequestKind) (arguments : List Text) : Option Request :=
  match kind with
  | expand =>
    let reading := Reading.ofArguments expandGrammar arguments
    takeAll ExpandRequest.take .expand reading.isComplete 0 {} reading.findings
  | explain =>
    let reading := Reading.ofArguments explainGrammar arguments
    takeAll (fun _ => ExplainRequest.take) .explain reading.isComplete 0 {} reading.findings
  | list =>
    let reading := Reading.ofArguments listGrammar arguments
    takeAll (fun _ => ListRequest.take) .list reading.isComplete 0 {} reading.findings

/-- How requests of the kind are made. -/
def usage : RequestKind → Text
  | expand =>
    "usage: verbexec [-h] [-V] [-d] [-t] [--line LINE] [--other OTHER] " ++
      "[--invocation INVOCATION] [--args ARGS] pattern file"
  | explain => "usage: verbexec internal [-h] [-d] invocation"
  | list => "usage: verbexec verbs [-h] [-d] [--config CONFIG]"

end RequestKind

/-- The request that a command line makes; nothing when it cannot be understood. -/
def Request.ofArguments? (arguments : List Text) : Option Request :=
  let (kind, rest) := RequestKind.split arguments
  kind.request? rest

end VerbExpansion.CommandLine
