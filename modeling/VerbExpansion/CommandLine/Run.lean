import VerbExpansion.CommandLine.Report
import VerbExpansion.CommandLine.Request
import VerbExpansion.Configuration
import VerbExpansion.Json.Written

/-!
# Runs of the command line

`run` answers a command line in a world. A command line that cannot be understood has no report.
-/

namespace VerbExpansion.CommandLine

/-- The name of the program and its version. -/
def versionText : Text :=
  "verbexec 0.3.0\n"

/-- The setting that says that colours are unwanted, by being there. -/
def colorVariable : Text :=
  "NO_COLOR"

/-- The setting that says what kind of terminal there is. -/
def terminalVariable : Text :=
  "TERM"

/-- Whether the output is coloured: on a terminal that is not a dumb one, unless colours are
unwanted. -/
def usesColor (world : World) : Bool :=
  (world.environment? colorVariable).isNone &&
    ((world.environment? terminalVariable).getD []).map Character.toLower != "dumb" &&
    world.toTerminal

/-- A command line as it is shown, after a prompt; bold and cyan where colours are used. -/
def shownCommand (world : World) (command : Text) : Text :=
  if usesColor world then "\x1b[1m\x1b[36m$ " ++ command ++ "\x1b[0m"
  else "$ " ++ command

/-- The signature that an expansion is given, if it is given one that is not empty. -/
def signatureOf (request : ExpandRequest) : Except ConfigError (Option Signature) :=
  match request.invocation with
  | .absent | .void | .value [] => .ok none
  | .value invocation => some <$> Signature.ofText invocation

/-- What is given as the selection of the other panel. A path that was taken away is written as what
stands for a missing text. -/
def otherPath? (request : ExpandRequest) : Option Path :=
  match request.other with
  | .absent => none
  | .void => some (Path.ofText Text.void)
  | .value text => some (Path.ofText text)

/-- The context of an expansion. -/
def contextOf (request : ExpandRequest) (signature : Option Signature) (selection : Selection) :
    Context :=
  Context.ofTyped signature selection (otherPath? request) request.arguments.value?

/-- What fills the placeholders of an expansion: what its context says, but a value that was taken
away has no number, no directory and no parent. -/
def fillingOf (surroundings : Surroundings) (request : ExpandRequest) (context : Context)
    (style : PathStyle) : Filling := fun placeholder =>
  match placeholder.contextName?, request.line, request.other with
  | some .line, .void, _ => .ok (some Text.void)
  | some .otherPanelDirectory, _, .void => .error (.void .directory)
  | some .otherPanelParent, _, .void => .error (.void .parent)
  | _, _, _ => context.filling? surroundings style placeholder

/-- The output of an expansion, and what there is to tell about it. -/
def expansionOutput (world : World) (context : Context) (request : ExpandRequest) :
    Except Interruption (Text × List Notice) :=
  if request.asArguments then do
    let filling := fillingOf world.toSurroundings request context .plain
    let arguments ← filling.arguments request.pattern
    return (Json.writtenList arguments ++ "\n", context.argumentsNotices request.pattern)
  else do
    let filling := fillingOf world.toSurroundings request context .shellWord
    let tokens ← filling.commandTokens request.pattern
    return (shownCommand world (Text.spaced tokens) ++ "\n",
      context.fillingNotices request.pattern ++ world.disk.tokenNotices tokens)

/-- What there is to tell about the arguments that an expansion is given. They are matched once to
see whether they do, and once for their values. -/
def typedNotices (signature : Option Signature) (request : ExpandRequest) : List Notice :=
  let invocation := request.invocation.value?.getD []
  match signature, request.arguments with
  | some signature, .value arguments =>
    let matching := signature.matchingNotices arguments
    let unused :=
      match signature.values? arguments with
      | some _ => []
      | none => [.argumentsUnused (some arguments) invocation]
    matching ++ unused ++ matching
  | some _, .void => [.argumentsUnused none invocation]
  | _, _ => []

/-- What there is to tell about the signature that an expansion is given. -/
def signatureNotices (request : ExpandRequest) : List Notice :=
  match request.invocation with
  | .absent | .void | .value [] => []
  | .value invocation => Signature.readingNotices invocation

/-- Whether there is something to match against the signature that an expansion is given, if it has
to be matched. -/
def matchable (signature : Option Signature) (request : ExpandRequest) : Bool :=
  match signature, request.arguments with
  | some signature, .void => !signature.takesArguments
  | _, _ => true

/-- The selection of an expansion. -/
def selectionOf (world : World) (request : ExpandRequest) : Except Interruption Selection :=
  match request.file with
  | none => .error (.void .directory)
  | some file => Selection.ofDisk world.disk (Path.ofText file) (request.line.value?.getD 0)

/-- The report of an expansion. -/
def expand (world : World) (request : ExpandRequest) : Except Interruption Report :=
  let told := Report.told request.debug
  match signatureOf request with
  | .error error => .ok (.failure error (told (signatureNotices request)))
  | .ok signature =>
    if !matchable signature request then .error (.void .matching)
    else do
      let selection ← selectionOf world request
      let context := contextOf request signature selection
      let (output, notices) ← expansionOutput world context request
      Report.printing [output]
        (told (signatureNotices request ++ typedNotices signature request ++ notices))

/-- The lines that explain a call. -/
def explanation (call : BuiltinCall) : List Text :=
  ["  internal: " ++ call.builtin.name ++ "\n",
    "  description: " ++ call.builtin.description ++ "\n",
    "  bang: " ++ (if call.bang then "true" else "false") ++ "\n",
    "  arg: " ++ call.argument.getD "(none)" ++ "\n"] ++
  match call.text? with
  | none => []
  | some text => ["  code: " ++ text ++ "\n"]

/-- The report of an explanation. -/
def explain (request : ExplainRequest) : Except Interruption Report :=
  match BuiltinCall.ofText request.call with
  | .ok call => Report.printing (explanation call) []
  | .error error => .ok (.failure error [])

/-- The text with spaces after it, up to a width. -/
def padded (width : Nat) (text : Text) : Text :=
  text ++ List.replicate (width - text.length) (.scalar ' ')

/-- The length of the longest name of the verbs. -/
def nameWidth (verbs : List Verb) : Nat :=
  verbs.foldl (fun width verb => max width verb.name.length) 0

/-- The line that lists a verb, its name in a column of some width. -/
def verbLine (width : Nat) (verb : Verb) : Text :=
  "  " ++ padded width verb.name ++ "  " ++ verb.description ++ "\n"

/-- The lines that list the verbs of a configuration file. -/
def listing (path : Path) : List Verb → List Text
  | [] => ["No verbs defined in " ++ path.text ++ "\n"]
  | verbs => verbs.map (verbLine (nameWidth verbs))

/-- The report of a listing of the configuration file at a path. -/
def listFile (world : World) (debug : Bool) (path : Path) : Except Interruption Report :=
  let loading := Configuration.loadingNotices world.disk path
  match Configuration.load world.disk path with
  | .error (.interrupted interruption) => .error interruption
  | .error (.refused error) => .ok (.failure error (Report.told debug loading))
  | .ok configuration =>
    let notices := Report.told debug (loading ++ Verb.listNotices configuration.verbs)
    match Verb.listOfDefinitions configuration.verbs with
    | .error error => .ok (.failure error notices)
    | .ok verbs => Report.printing (listing path verbs) notices

/-- The report of a listing. -/
def list (world : World) (request : ListRequest) : Except Interruption Report :=
  match request.configuration with
  | .value text => listFile world request.debug (Path.ofText text)
  | .absent | .void => do
    let path ← Configuration.path world
    listFile world request.debug path

/-- The report of a request. -/
def Request.report (world : World) : Request → Except Interruption Report
  | expand request => CommandLine.expand world request
  | explain request => CommandLine.explain request
  | list request => CommandLine.list world request
  | version => .ok (.success versionText [])
  | help kind => .ok (.success (kind.usage ++ "\n") [])

/-- The report of a command line; nothing when it cannot be understood. -/
def run (world : World) (arguments : List Text) : Except Interruption (Option Report) :=
  match Request.ofArguments? arguments with
  | none => .ok none
  | some request => do
    let report ← request.report world
    return some report

/-- A command line that can be understood is answered by the report of what it asks for. -/
theorem run_eq_ok_iff {world : World} {arguments : List Text} {request : Request} {report : Report}
    (understood : Request.ofArguments? arguments = some request) :
    run world arguments = .ok (some report) ↔ request.report world = .ok report := by
  rw [run, understood]
  cases reported : request.report world <;> simp [reported, bind, Except.bind, pure, Except.pure]

end VerbExpansion.CommandLine
