import VerbExpansion.Path.Home
import VerbExpansion.Path.Normal

/-!
# Paths as they are typed

A typed path is absolute, starts at the home directory, or is meant from some base directory. Only in
the last case is the path made normal.
-/

namespace VerbExpansion

/-- Whether a typed path starts at the home directory: it is a tilde, or starts with a tilde and a
slash. A line end after a lone tilde does not count against it. -/
def startsAtHome : Text → Bool
  | [.scalar '~'] | [.scalar '~', .scalar '\n'] => true
  | .scalar '~' :: .scalar '/' :: _ => true
  | _ => false

namespace Path

/-- The path meant by what was typed, from a base directory. -/
def resolve (home : Text) (base : Path) (typed : Text) : Path :=
  if typed.head? = some (.scalar '/') then ofText typed
  else if startsAtHome typed then ofText (expandTilde home typed)
  else (base.extend (PathName.listOfText typed)).normalize

end Path

end VerbExpansion
