import VerbExpansion.Path.Basic

/-!
# Normal paths

A normal path has no name `..`, except at the start of a relative path. `normalize` resolves every
other one by taking away the name before it, without looking at the disk. Above a root there is only
the root.
-/

namespace VerbExpansion.Path

/-- The names below a root after one more name, with the last name first. A step up removes the name
before it, unless that is a step up itself; with nothing to remove it stays in a relative path and
vanishes in any other. -/
def follow (root : Root) (above : List PathName) (name : PathName) : List PathName :=
  if name ≠ .up then name :: above
  else
    match above with
    | [] => if root = .none then [name] else []
    | last :: rest => if last = .up then name :: above else rest

/-- The path with its steps up resolved. -/
def normalize (path : Path) : Path :=
  ⟨path.root, (path.names.foldl (follow path.root) []).reverse⟩

end VerbExpansion.Path
