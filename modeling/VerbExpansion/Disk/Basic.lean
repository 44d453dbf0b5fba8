import VerbExpansion.Interruption
import VerbExpansion.Path.Basic

/-!
# The disk

A disk answers what is at a path, and what the file there holds. `closestDirectory` asks it about a
path and then about one parent after the other.
-/

namespace VerbExpansion

/-- What is at a path. -/
inductive Entry where
  | missing
  | directory
  /-- A regular file that may be executed. -/
  | executable
  /-- A regular file that may not be executed. -/
  | file
  /-- Anything else that exists. -/
  | special
  /-- The disk refuses to say. Every question that ends in a failure counts as denied, whether access is
  not permitted or a name is too long for the disk. -/
  | denied
  deriving DecidableEq

/-- Whether there is something that can hold bytes. -/
def Entry.isFile : Entry → Bool
  | executable | file | special => true
  | missing | directory | denied => false

/-- A disk, as it answers questions. -/
structure Disk where
  entry : Path → Entry
  /-- The bytes of the file at a path, unless the disk refuses to open it. -/
  content : Path → Option ByteArray
  isFile_of_content : ∀ path, (content path).isSome = true → (entry path).isFile = true := by simp

namespace Disk

theorem content_eq_none_of_not_isFile (disk : Disk) {path : Path}
    (notFile : (disk.entry path).isFile = false) : disk.content path = none := by
  cases held : disk.content path with
  | none => rfl
  | some bytes =>
    have isFile := disk.isFile_of_content path (by rw [held]; rfl)
    cases isFile.symm.trans notFile

/-- Whether something is known to exist at the path. -/
def holds (disk : Disk) (path : Path) : Bool :=
  match disk.entry path with
  | .missing | .denied => false
  | .directory | .executable | .file | .special => true

/-- The path itself when it is a directory, and else the closest directory above it. Where no
directory is found on the way, the answer is the path at which the way ends. -/
def closestDirectory (disk : Disk) (path : Path) : Except Interruption Path :=
  match disk.entry path with
  | .denied => .error .accessDenied
  | .directory => .ok path
  | .missing | .executable | .file | .special =>
    if path.names = [] then .ok path
    else closestDirectory disk path.parent
termination_by path.names.length
decreasing_by
  rename_i notAtEnd
  have := List.length_pos_iff.2 notAtEnd
  simp only [Path.parent, List.length_dropLast]
  omega

end Disk

end VerbExpansion
