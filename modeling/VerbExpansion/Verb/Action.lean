import VerbExpansion.BuiltinCall
import VerbExpansion.Expansion

/-!
# Actions

What a verb does: it executes a builtin, or starts a program. A program is started from the shell
that the application was started in, or by the application itself, which may end thereby or go on.
-/

namespace VerbExpansion

/-- How a program is started. -/
inductive LaunchMode where
  | fromParentShell
  | leavingApplication
  | stayingInApplication
  deriving DecidableEq

namespace LaunchMode

/-- The mode that the two settings of a definition ask for. Starting from the shell counts first, and
the application goes on by default. -/
def ofSettings (fromShell leaveApplication : Option Bool) : LaunchMode :=
  if fromShell = some true then fromParentShell
  else if leaveApplication = some true then leavingApplication
  else stayingInApplication

/-- Whether the program is started from a shell. -/
def usesShell (mode : LaunchMode) : Bool :=
  mode == fromParentShell

/-- Whether the application ends. -/
def leavesApplication (mode : LaunchMode) : Bool :=
  mode != stayingInApplication

end LaunchMode

/-- A command, ready to be executed. -/
inductive Command where
  /-- A line for a shell. -/
  | line (line : Text)
  /-- A program and its arguments. -/
  | arguments (arguments : List Text)
  deriving DecidableEq

/-- A program that a verb starts. -/
structure Launch where
  /-- The pattern of the command. -/
  pattern : Text
  mode : LaunchMode := .stayingInApplication
  deriving DecidableEq

/-- The command of a launch in a context: a line when a shell takes it, and else a list of
arguments. -/
def Launch.command (launch : Launch) (surroundings : Surroundings) (context : Context) :
    Except Interruption Command :=
  if launch.mode.usesShell then do
    let line ← context.commandLine surroundings launch.pattern
    return .line line
  else do
    let arguments ← context.arguments surroundings launch.pattern
    return .arguments arguments

/-- What a verb does. -/
inductive Action where
  | builtin (call : BuiltinCall)
  | launch (launch : Launch)
  deriving DecidableEq

end VerbExpansion
