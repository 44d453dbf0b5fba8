import VerbExpansion.CommandLine.Lookups

/-!
# The program

Looks at the environment and at the disk, runs the command line on what it saw, and prints the report.
-/

namespace VerbExpansion.Program

/-- What was seen at a path, and what was read there. -/
structure Sight where
  path : Path
  entry : Entry
  content : Option ByteArray := none
  isFile_of_content : content.isSome = true → entry.isFile = true := by simp

/-- The disk as far as it was seen. -/
def diskOf (sights : List Sight) : Disk where
  entry path := ((sights.find? (·.path == path)).map (·.entry)).getD .missing
  content path := (sights.find? (·.path == path)).bind (·.content)
  isFile_of_content path := by
    cases sights.find? (·.path == path) with
    | none => simp
    | some sight => exact sight.isFile_of_content

/-- The code of a failure to follow links that lead in a ring. -/
def ringOfLinks : UInt32 := 0 - 40

/-- Looks at a path. Whether a file may be executed is of no consequence for a command line. -/
def look (path : Path) : IO Sight := do
  let place := (← IO.currentDir) / path.text.toString
  try
    match (← place.metadata).type with
    | .dir => return { path, entry := .directory }
    | .file => return { path, entry := .file }
    | _ => return { path, entry := .special }
  catch
    -- A path below a file is missing as well, and one that is a ring of links.
    | .noFileOrDirectory .. | .inappropriateType .. => return { path, entry := .missing }
    | .invalidArgument _ code _ =>
      return { path, entry := if code == ringOfLinks then .missing else .denied }
    | _ => return { path, entry := .denied }

/-- Opens the file at a path and reads it. Unlike a path that is looked at, a file is missing only where
its directory says so: whatever else keeps it from being read is a denial. -/
def openFile (path : Path) : IO Sight := do
  let place := (← IO.currentDir) / path.text.toString
  let seen ← look path
  if seen.entry == .directory then return seen
  try
    let bytes ← IO.FS.readBinFile place
    return { path, entry := .file, content := some bytes, isFile_of_content := fun _ => rfl }
  catch
    | .noFileOrDirectory .. => return { path, entry := .missing }
    | _ => return { path, entry := .denied }

/-- What the program finds where it runs, before it looks at the disk. -/
def startingWorld : IO World := do
  let home := Text.ofString ((← IO.getEnv "HOME").getD "")
  let settings ← CommandLine.environmentLookups.filterMapM fun name => do
    let value ← IO.getEnv name.toString
    return value.map fun value => (name, Text.ofString value)
  return {
    disk := diskOf []
    home
    environment? := fun name => settings.lookup name
    defaultConfiguration := Path.ofText (homeText home "/.verbexec/config.json")
    toTerminal := ← (← IO.getStdout).isTty }

/-- The world with everything on the disk that a request looks at or opens. -/
def observed (world : World) (request : CommandLine.Request) : IO World := do
  let opened ← (request.opened? world).toList.mapM openFile
  let seen ← (request.diskLookups world).mapM look
  return { world with disk := diskOf (opened ++ seen) }

/-- Prints a text on the error output. -/
def complain (text : Text) : IO Unit :=
  IO.eprint text.toString

end VerbExpansion.Program

open VerbExpansion

/-- Answers the command line. -/
def main (arguments : List String) : IO UInt32 := do
  let arguments := arguments.map Text.ofString
  let mut world ← Program.startingWorld
  if let some request := CommandLine.Request.ofArguments? arguments then
    world ← Program.observed world request
    world ← Program.observed world request
  match CommandLine.run world arguments with
  | .error interruption =>
    IO.print interruption.printed.toString
    Program.complain (interruption.message ++ "\n")
    return 1
  | .ok none =>
    Program.complain ((CommandLine.RequestKind.split arguments).1.usage ++ "\n")
    return 2
  | .ok (some report) =>
    Program.complain report.noticeText
    IO.print report.output.toString
    Program.complain report.errorText
    return report.exitCode.toUInt32
