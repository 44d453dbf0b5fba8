import VerbExpansion.CommandLine.Run

/-!
# What a run looks at

A run asks the disk about few paths, and the environment about few names. Both can be told before the
run, so that a program can look at them first and run on what it saw. Which tokens of a command are
looked at depends on what was seen of the selected paths: look at the paths twice. One file is opened at
most, and no other has to be read.
-/

namespace VerbExpansion.CommandLine

/-- The names of the settings that a run asks for. -/
def environmentLookups : List Text :=
  [colorVariable, terminalVariable, Configuration.pathVariable]

/-- The paths that the tokens of a command line are, as far as the world shows the command line. -/
def tokenLookups (world : World) (request : ExpandRequest) (file : Path) : List Path :=
  let signature :=
    match signatureOf request with
    | .ok signature => signature
    | .error _ => none
  let context := contextOf request signature { path := file }
  let filling := fillingOf world.toSurroundings request context .shellWord
  match filling.commandTokens request.pattern with
  | .ok tokens => tokens.map Path.ofText
  | .error _ => []

/-- The paths at which a request looks, as far as the world shows them. -/
def Request.diskLookups (world : World) : Request → List Path
  | .expand request =>
    match request.file with
    | none => []
    | some file =>
      let path := Path.ofText file
      path.lineage ++ (request.other.value?.elim [] fun other => (Path.ofText other).lineage) ++
        tokenLookups world request path
  | .list _ | .explain _ | .version | .help _ => []

/-- The path of the file that a request opens, if it opens one. -/
def Request.opened? (world : World) : Request → Option Path
  | .list request =>
    match request.configuration, Configuration.path world with
    | .value text, _ => some (Path.ofText text)
    | _, .ok path => some path
    | _, .error _ => none
  | .expand _ | .explain _ | .version | .help _ => none

end VerbExpansion.CommandLine
