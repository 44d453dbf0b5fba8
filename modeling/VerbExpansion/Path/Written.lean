import VerbExpansion.Path.Basic

/-!
# Paths written and read

Reading a path that was written gives the path (`Path.ofText_text`), so the text of a path says all
about it.
-/

namespace VerbExpansion

/-- Nothing is written before a slash that starts a text. -/
theorem splitOn_slash_cons (text : Text) : (.scalar '/' :: text : Text).splitOn (.scalar '/') =
    [] :: text.splitOn (.scalar '/') := by
  have split := List.splitOn_append_cons_self (a := .scalar '/') [] text
  rwa [List.nil_append, List.splitOn_nil] at split

/-- A slash in front of a text adds no name. -/
@[simp] theorem PathName.listOfText_slash_cons (text : Text) :
    PathName.listOfText (.scalar '/' :: text) = PathName.listOfText text := by
  simp [PathName.listOfText, splitOn_slash_cons, PathName.ofText?, IsPathName]

/-- The names written between slashes are found there. -/
theorem PathName.splitOn_intercalate (names : List PathName) (notEmpty : names ≠ []) :
    ([.scalar '/'].intercalate (names.map (·.text))).splitOn (.scalar '/') = names.map (·.text) := by
  refine List.splitOn_intercalate (Character.scalar '/') (fun text member => ?_) (by simpa)
  obtain ⟨name, _, rfl⟩ := List.mem_map.1 member
  exact name.valid.2.2

/-- The names written between slashes are read back. -/
theorem PathName.listOfText_intercalate (names : List PathName) (notEmpty : names ≠ []) :
    PathName.listOfText ([.scalar '/'].intercalate (names.map (·.text))) = names := by
  have found : PathName.ofText? ∘ (·.text) = some := funext PathName.ofText?_text
  rw [PathName.listOfText, PathName.splitOn_intercalate names notEmpty, List.filterMap_map, found,
    List.filterMap_some]

/-- The root written before a name is read back. -/
theorem Root.ofText_append (root : Root) (name : PathName) (text : Text) :
    Root.ofText (root.text ++ (name.text ++ text)) = root := by
  obtain ⟨nameText, notEmpty, _, slashless⟩ := name
  cases nameText with
  | nil => exact absurd rfl notEmpty
  | cons first rest =>
    have notSlash : first ≠ .scalar '/' := fun same => slashless (same ▸ List.mem_cons_self)
    cases root <;> simp [Root.text, Root.ofText, notSlash]

/-- A root in front of a text adds no name. -/
theorem Root.listOfText_append (root : Root) (text : Text) :
    PathName.listOfText (root.text ++ text) = PathName.listOfText text := by
  cases root <;> simp [Root.text]

/-- A path that is not written as a dot is written as its root and its names. -/
theorem Path.text_of_ne_dot (path : Path) (notDot : path.root = .none → path.names ≠ []) :
    path.text = path.root.text ++ [.scalar '/'].intercalate (path.names.map (·.text)) := by
  obtain ⟨root, names⟩ := path
  cases names with
  | nil =>
    cases root with
    | none => exact absurd rfl (notDot rfl)
    | slash | doubleSlash => rfl
  | cons name names => cases root <;> rfl

/-- A path that was written is read back. -/
@[simp] theorem Path.ofText_text (path : Path) : Path.ofText path.text = path := by
  obtain ⟨root, names⟩ := path
  cases names with
  | nil => cases root <;> decide
  | cons name names =>
    have written := Path.text_of_ne_dot ⟨root, name :: names⟩ fun _ => List.cons_ne_nil name names
    have starts : ∃ rest,
        [.scalar '/'].intercalate ((name :: names).map (·.text)) = name.text ++ rest := by
      cases names with
      | nil => exact ⟨[], by simp⟩
      | cons second names =>
        exact ⟨_, by
          rw [List.map_cons, List.map_cons, List.intercalate_cons_cons, List.append_assoc]⟩
    obtain ⟨rest, starts⟩ := starts
    rw [written, Path.ofText, Root.listOfText_append,
      PathName.listOfText_intercalate _ (List.cons_ne_nil _ _), starts, Root.ofText_append]

/-- The root of a path is read off its text. -/
theorem Root.ofText_text (path : Path) : Root.ofText path.text = path.root :=
  congrArg Path.root path.ofText_text

end VerbExpansion
