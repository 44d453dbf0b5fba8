import VerbExpansion.Placeholder.Basic

/-!
# What placeholders ask for

Some names are set aside for what is selected; any other name asks for a typed value. A format asks
for the value to be read as a path, and says from where.
-/

namespace VerbExpansion

/-- The names that are filled from the selection and from the other panel. -/
inductive ContextName where
  | line
  | file
  | directory
  | parent
  | otherPanelFile
  | otherPanelDirectory
  | otherPanelParent
  deriving DecidableEq

namespace ContextName

/-- Every such name, in order. -/
def all : List ContextName :=
  [line, file, directory, parent, otherPanelFile, otherPanelDirectory, otherPanelParent]

/-- The name as placeholders spell it. -/
def text : ContextName → Text
  | line => "line"
  | file => "file"
  | directory => "directory"
  | parent => "parent"
  | otherPanelFile => "other-panel-file"
  | otherPanelDirectory => "other-panel-directory"
  | otherPanelParent => "other-panel-parent"

/-- The name that is spelled so. -/
def ofText? (text : Text) : Option ContextName :=
  all.find? (·.text == text)

theorem mem_all (name : ContextName) : name ∈ all := by
  cases name <;> decide

/-- Each name is found by its spelling. -/
@[simp] theorem ofText?_text (name : ContextName) : ofText? name.text = some name := by
  cases name <;> decide

/-- A name is found by no other spelling. -/
theorem text_eq_of_ofText? {text : Text} {name : ContextName} (found : ofText? text = some name) :
    name.text = text := by
  simpa using List.find?_some found

end ContextName

/-- The directory from which a typed path is read. -/
inductive PathBase where
  /-- The selection, when it is a directory, and else the closest directory above it. -/
  | directory
  /-- The parent of the selection. -/
  | parent
  deriving DecidableEq

namespace PathBase

/-- The base as formats spell it. -/
def text : PathBase → Text
  | directory => "path-from-directory"
  | parent => "path-from-parent"

/-- The base that is spelled so. -/
def ofText? (text : Text) : Option PathBase :=
  [directory, parent].find? (·.text == text)

@[simp] theorem ofText?_text (base : PathBase) : ofText? base.text = some base := by
  cases base <;> decide

theorem text_eq_of_ofText? {text : Text} {base : PathBase} (found : ofText? text = some base) :
    base.text = text := by
  simpa using List.find?_some found

end PathBase

namespace Placeholder

/-- What the placeholder's name stands for in the context, if it is set aside. -/
def contextName? (placeholder : Placeholder) : Option ContextName :=
  ContextName.ofText? placeholder.name

/-- The base that the placeholder's format asks for, if it has a known format. -/
def pathBase? (placeholder : Placeholder) : Option PathBase :=
  placeholder.format.bind PathBase.ofText?

end Placeholder

end VerbExpansion
