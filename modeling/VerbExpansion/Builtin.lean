import VerbExpansion.Text.Blank

/-!
# Builtins

The commands that need no program: moving around, changing what is shown, and leaving.
-/

namespace VerbExpansion

/-- A builtin command. -/
inductive Builtin where
  | back
  | closePanelOk
  | closePanelCancel
  | copyPath
  | focus
  | help
  | lineDown
  | lineUp
  | openLeave
  | openStay
  | pageDown
  | pageUp
  | panelLeft
  | panelRight
  | parent
  | printPath
  | printRelativePath
  | printTree
  | quit
  | refresh
  | selectFirst
  | selectLast
  | startEndPanel
  | toggleDates
  | toggleFiles
  | toggleGitIgnore
  | toggleHidden
  | togglePerm
  | toggleSizes
  | totalSearch
  | upTree
  deriving DecidableEq

namespace Builtin

/-- Every builtin, in the order in which they are listed. -/
def all : List Builtin := [
    back, closePanelOk, closePanelCancel, copyPath, focus, help, lineDown, lineUp, openLeave,
    openStay, pageDown, pageUp, panelLeft, panelRight, parent, printPath, printRelativePath,
    printTree, quit, refresh, selectFirst, selectLast, startEndPanel, toggleDates, toggleFiles,
    toggleGitIgnore, toggleHidden, togglePerm, toggleSizes, totalSearch, upTree]

/-- The name by which verbs execute the builtin. -/
def name : Builtin → Text
  | back => "back"
  | closePanelOk => "close_panel_ok"
  | closePanelCancel => "close_panel_cancel"
  | copyPath => "copy_path"
  | focus => "focus"
  | help => "help"
  | lineDown => "line_down"
  | lineUp => "line_up"
  | openLeave => "open_leave"
  | openStay => "open_stay"
  | pageDown => "page_down"
  | pageUp => "page_up"
  | panelLeft => "panel_left"
  | panelRight => "panel_right"
  | parent => "parent"
  | printPath => "print_path"
  | printRelativePath => "print_relative_path"
  | printTree => "print_tree"
  | quit => "quit"
  | refresh => "refresh"
  | selectFirst => "select_first"
  | selectLast => "select_last"
  | startEndPanel => "start_end_panel"
  | toggleDates => "toggle_dates"
  | toggleFiles => "toggle_files"
  | toggleGitIgnore => "toggle_git_ignore"
  | toggleHidden => "toggle_hidden"
  | togglePerm => "toggle_perm"
  | toggleSizes => "toggle_sizes"
  | totalSearch => "total_search"
  | upTree => "up_tree"

/-- What the builtin does. -/
def description : Builtin → Text
  | back => "revert to the previous state (mapped to *esc*)"
  | closePanelOk => "close the panel, validating the selected path"
  | closePanelCancel => "close the panel, not using the selected path"
  | copyPath => "copy path to system clipboard"
  | focus => "display the directory (mapped to *enter*)"
  | help => "display help"
  | lineDown => "move one line down"
  | lineUp => "move one line up"
  | openLeave => "open file or directory according to OS settings (quit)"
  | openStay => "open file or directory according to OS settings (stay)"
  | pageDown => "scroll one page down"
  | pageUp => "scroll one page up"
  | panelLeft => "focus the panel on the left"
  | panelRight => "focus the panel on the right"
  | parent => "move to the parent directory"
  | printPath => "print path and leave"
  | printRelativePath => "print relative path and leave"
  | printTree => "print tree and leave"
  | quit => "quit"
  | refresh => "refresh tree and clear size cache"
  | selectFirst => "select the first item"
  | selectLast => "select the last item"
  | startEndPanel => "start or end a panel"
  | toggleDates => "toggle showing last modified dates"
  | toggleFiles => "toggle showing files (or just folders)"
  | toggleGitIgnore => "toggle use of .gitignore"
  | toggleHidden => "toggle showing hidden files"
  | togglePerm => "toggle showing file permissions"
  | toggleSizes => "toggle showing sizes"
  | totalSearch => "search again but on all children"
  | upTree => "focus the parent of the current root"

/-- The builtin with this name. -/
def ofName? (name : Text) : Option Builtin :=
  all.find? (·.name == name)

theorem mem_all (builtin : Builtin) : builtin ∈ all := by
  cases builtin <;> decide

/-- Each builtin is found by its name. -/
@[simp] theorem ofName?_name (builtin : Builtin) : ofName? builtin.name = some builtin := by
  have checked : (all.all fun builtin => ofName? builtin.name == some builtin) = true := by
    decide +kernel
  simpa using List.all_eq_true.1 checked builtin (mem_all builtin)

/-- A builtin is found by no other name. -/
theorem name_eq_of_ofName? {name : Text} {builtin : Builtin}
    (found : ofName? name = some builtin) : builtin.name = name := by
  simpa using List.find?_some found

end Builtin

end VerbExpansion
