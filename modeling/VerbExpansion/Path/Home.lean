import VerbExpansion.Path.Basic

/-!
# Home directories

A tilde stands for the home directory. A tilde with a user name after it would stand for the home of
that user; no other users are known here, and such a text stays as it is.
-/

namespace VerbExpansion

/-- The text that a home directory is written with: what the setting says, without slashes at its
end, followed by what follows the tilde; a slash when that is nothing. -/
def homeText (home rest : Text) : Text :=
  let expanded := (home.reverse.dropWhile (· == .scalar '/')).reverse ++ rest
  if expanded.isEmpty then [.scalar '/'] else expanded

/-- The text with a tilde that stands alone, or before a slash, replaced by the home directory. -/
def expandTilde (home : Text) : Text → Text
  | [.scalar '~'] => homeText home []
  | .scalar '~' :: .scalar '/' :: rest => homeText home (.scalar '/' :: rest)
  | text => text

namespace Path

/-- The path with a tilde at its start replaced by the home directory; nothing when the first name
starts with a tilde and stands for no directory. -/
def expandHome? (home : Text) (path : Path) : Option Path :=
  match path.root, path.names with
  | .none, first :: rest =>
    if first.text.head? = some (.scalar '~') then
      let directory := expandTilde home first.text
      if directory.head? = some (.scalar '~') then none else some ((ofText directory).extend rest)
    else some path
  | _, _ => some path

end Path

end VerbExpansion
