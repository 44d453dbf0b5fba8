import VerbExpansion.Disk.Basic
import VerbExpansion.Text.Numeral

/-!
# Selections

What a verb is applied to: a path, a line of it, and what the disk says the path is.
-/

namespace VerbExpansion

/-- The kinds of things that can be selected. -/
inductive SelectionKind where
  | file
  | directory
  | other
  deriving DecidableEq

/-- A selected path. Line zero stands for no line in particular. -/
structure Selection where
  path : Path
  line : Int := 0
  kind : SelectionKind := .file
  isExecutable : Bool := false
  deriving DecidableEq

/-- Whether the number of the line has no more digits than are written. -/
def Selection.hasShortLine (selection : Selection) : Bool :=
  (Text.ofNatural selection.line.natAbs).length ≤ Text.longestNumeral

/-- The number of the line in decimal. -/
def Selection.lineText (selection : Selection) : Except Interruption Text :=
  if selection.hasShortLine then .ok (Text.ofInteger selection.line) else .error .oversizedLine

/-- The selection of a path of a disk. -/
def Selection.ofDisk (disk : Disk) (path : Path) (line : Int) : Except Interruption Selection :=
  match disk.entry path with
  | .denied => .error .accessDenied
  | .directory => .ok ⟨path, line, .directory, false⟩
  | .executable => .ok ⟨path, line, .file, true⟩
  | .file => .ok ⟨path, line, .file, false⟩
  | .special | .missing => .ok ⟨path, line, .other, false⟩

end VerbExpansion
