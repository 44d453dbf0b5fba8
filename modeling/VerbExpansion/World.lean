import VerbExpansion.Disk.Basic

/-!
# The world around a run

An expansion looks at the disk and at the home directory only. The program as a whole looks at its
environment and at where its output goes as well.
-/

namespace VerbExpansion

/-- What an expansion looks up outside the pattern and its context. -/
structure Surroundings where
  disk : Disk
  /-- The home directory, as the user's settings write it. -/
  home : Text

/-- What a program finds where it runs. -/
structure World extends Surroundings where
  /-- The value of an environment variable, if it is set. -/
  environment? : Text → Option Text
  /-- Where the configuration is by default. -/
  defaultConfiguration : Path
  /-- Whether the output goes to a terminal. -/
  toTerminal : Bool

end VerbExpansion
