import VerbExpansion.Json.Document
import VerbExpansion.Verb.Basic
import VerbExpansion.World

/-!
# Configurations

A configuration file holds the definitions of verbs. A setting says where the file is; where it says
nothing there is a default. Without a file there are no verbs.
-/

namespace VerbExpansion

/-- What a configuration says. -/
structure Configuration where
  verbs : List Definition := []
  deriving DecidableEq

namespace Configuration

open Json

/-- The list of definitions that a value writes. -/
def definitions : Value → Checked (List Definition)
  | .array items => .elements Definition.ofJson 0 items
  | _ => .fail .notArray

/-- The configuration that a value writes. -/
def ofJson : Value → Checked Configuration
  | .object members =>
    match lastMember? members "verbs" with
    | none => .valid ⟨[]⟩
    | some value => Configuration.mk <$> .inside (.field "verbs") (definitions value)
  | _ => .fail .notObject

/-- The name of the setting that says where the configuration is. -/
def pathVariable : Text :=
  "VERBEXEC_CONFIG"

/-- Where the configuration is. -/
def path (world : World) : Except Interruption Path :=
  match Text.trim ((world.environment? pathVariable).getD []) with
  | [] => .ok world.defaultConfiguration
  | setting =>
    match Path.expandHome? world.home (Path.ofText setting) with
    | some path => .ok path
    | none => .error .homeUnknown

/-- The document in the bytes of a configuration file. -/
def document (path : Path) (bytes : ByteArray) : Except Failure Value :=
  match bytes.utf8Decode? with
  | none => .error (.interrupted .undecodable)
  | some characters =>
    match Value.ofText (characters.toList.map .scalar) with
    | .ok value => .ok value
    | .error .malformed => .error (.refused (.unreadableFile path .malformed))
    | .error (.oversizedInteger digits) => .error (.interrupted (.oversizedInteger digits))
    | .error (.tooDeep container) => .error (.interrupted (.tooDeep container))

/-- The configuration in the file at a path. The path has to be one that a disk can be asked about:
without the character U+0000, and without surrogates other than those that stand for bytes. -/
def load (disk : Disk) (path : Path) : Except Failure Configuration :=
  match disk.entry path, disk.content path with
  | .denied, _ => .error (.refused (.unreadableFile path .accessDenied))
  | .directory, _ => .error (.refused (.unreadableFile path .isDirectory))
  | .missing, _ => .ok {}
  | _, none => .error (.refused (.unreadableFile path .accessDenied))
  | _, some bytes => do
    let value ← document path bytes
    match ofJson value with
    | .valid configuration => return configuration
    | .invalid issues => throw (.refused (.invalidFile path issues))

/-! ## Notices -/

/-- What there is to tell about loading a configuration. -/
def loadingNotices (disk : Disk) (path : Path) : List Notice :=
  match load disk path, disk.content path with
  | .error _, _ => []
  | .ok _, none => [.configurationMissing path]
  | .ok configuration, some _ => [.configurationRead configuration.verbs.length path]

end Configuration

end VerbExpansion
