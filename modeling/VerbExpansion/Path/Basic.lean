import VerbExpansion.Text.Blank

/-!
# Paths

A path is a root and the names below it. Reading a path drops what says nothing: empty names, the
name `.`, and slashes at the end. The name `..` is kept, since what it stands for may depend on the
disk. Written and read again, a path is the same path.
-/

namespace VerbExpansion

/-- Where a path starts. -/
inductive Root where
  /-- Anywhere: the path is relative. -/
  | none
  | slash
  /-- Exactly two leading slashes, which a system may treat differently from one. -/
  | doubleSlash
  deriving DecidableEq

/-- The root as it is written. -/
def Root.text : Root → Text
  | none => []
  | slash => [.scalar '/']
  | doubleSlash => [.scalar '/', .scalar '/']

/-- The root that a text starts with. Three slashes and more are as good as one. -/
def Root.ofText : Text → Root
  | .scalar '/' :: .scalar '/' :: .scalar '/' :: _ => slash
  | .scalar '/' :: .scalar '/' :: _ => doubleSlash
  | .scalar '/' :: _ => slash
  | _ => none

/-- Whether a text can be one name of a path. -/
def IsPathName (text : Text) : Prop :=
  text ≠ [] ∧ text ≠ [.scalar '.'] ∧ .scalar '/' ∉ text

instance (text : Text) : Decidable (IsPathName text) :=
  inferInstanceAs (Decidable (_ ∧ _))

/-- One name of a path. -/
structure PathName where
  text : Text
  valid : IsPathName text
  deriving DecidableEq

namespace PathName

/-- The name of the directory above. -/
def up : PathName := ⟨[.scalar '.', .scalar '.'], by decide⟩

/-- The name with this text, if it can be one. -/
def ofText? (text : Text) : Option PathName :=
  if valid : IsPathName text then some ⟨text, valid⟩ else none

/-- The names in a text, between its slashes. -/
def listOfText (text : Text) : List PathName :=
  (text.splitOn (.scalar '/')).filterMap ofText?

@[simp] theorem ofText?_text (name : PathName) : ofText? name.text = some name := by
  simp [ofText?, name.valid]

end PathName

/-- A path of a file system. -/
structure Path where
  root : Root
  names : List PathName
  deriving DecidableEq

namespace Path

/-- The path that a text writes. -/
def ofText (text : Text) : Path :=
  ⟨Root.ofText text, PathName.listOfText text⟩

/-- The path as it is written; the path without root and names is a dot. -/
def text (path : Path) : Text :=
  match path.root, path.names with
  | .none, [] => [.scalar '.']
  | root, names => root.text ++ [.scalar '/'].intercalate (names.map (·.text))

/-- Whether the path is relative. -/
def isRelative (path : Path) : Bool :=
  path.root == .none

/-- The path without its last name. A path without names is its own parent. -/
def parent (path : Path) : Path :=
  ⟨path.root, path.names.dropLast⟩

/-- The path, its parent, the parent of that, and so on, up to the path without names. -/
def lineage (path : Path) : List Path :=
  if path.names = [] then [path] else path :: lineage path.parent
termination_by path.names.length
decreasing_by
  rename_i notAtEnd
  have := List.length_pos_iff.2 notAtEnd
  simp only [Path.parent, List.length_dropLast]
  omega

/-- The path with more names below it. -/
def extend (path : Path) (names : List PathName) : Path :=
  ⟨path.root, path.names ++ names⟩

end Path

end VerbExpansion
