import Mathlib.Data.List.Iterate
import VerbExpansion.Proofs.Disk.Lineage

/-!
# Closest directories

The lineage of a path is what is reached by one step up after the other, until a step leads nowhere
(`lineage_eq_iterate`). Where nothing is denied before it, the first directory of the lineage is
found, and the last path of a lineage without directories (`IsClosest`). A path that was found is
closest to itself.
-/

namespace VerbExpansion

namespace Path

/-! ## Steps up -/

/-- A path is its own parent where there is no name to take off. -/
theorem parent_eq_self_iff {path : Path} : path.parent = path ↔ path.names = [] := by
  constructor
  · intro same
    have lengths := congrArg (fun path : Path => path.names.length) same
    simp only [parent, List.length_dropLast] at lengths
    exact List.length_eq_zero_iff.1 (by omega)
  · intro atEnd
    obtain ⟨root, names⟩ := path
    cases atEnd
    rfl

/-- Each step up takes one name off, as long as there are names. -/
theorem length_names_iterate_parent (path : Path) (steps : Nat) :
    (parent^[steps] path).names.length = path.names.length - steps := by
  induction steps with
  | zero => rfl
  | succ steps inductionHypothesis =>
    rw [Function.iterate_succ_apply', parent, List.length_dropLast, inductionHypothesis]
    omega

theorem parent_iterate_eq_self_iff {path : Path} {steps : Nat} :
    (parent^[steps] path).parent = parent^[steps] path ↔ path.names.length ≤ steps := by
  rw [parent_eq_self_iff, ← List.length_eq_zero_iff, length_names_iterate_parent]
  omega

/-- The lineage of a path is what the steps up lead to. -/
theorem lineage_eq_iterate (path : Path) :
    path.lineage = List.iterate parent path (path.names.length + 1) := by
  fun_induction lineage path with
  | case1 path atEnd => simp [atEnd]
  | case2 path below inductionHypothesis =>
    have length : path.names.length = path.parent.names.length + 1 := by
      have positive := List.length_pos_iff.2 below
      simp only [parent, List.length_dropLast]
      omega
    rw [inductionHypothesis, length]
    rfl

end Path

namespace Disk

/-! ## The first directory on the way -/

/-- The path is the first directory of the lineage, or where the lineage ends that has no directory. -/
inductive IsClosest (disk : Disk) (path : Path) : Path → Prop where
  | directory (passed above : List Path) {found : Path}
      (spelled : path.lineage = passed ++ found :: above)
      (noneBefore : ∀ other ∈ passed, disk.entry other ≠ .directory)
      (isDirectory : disk.entry found = .directory) : IsClosest disk path found
  | last (passed : List Path) {last : Path} (spelled : path.lineage = passed ++ [last])
      (noDirectory : ∀ other ∈ path.lineage, disk.entry other ≠ .directory) :
      IsClosest disk path last

variable {disk : Disk} {path found : Path}

/-- The closest path is in the lineage, with no directory before it. -/
theorem IsClosest.exists_passed (isClosest : disk.IsClosest path found) :
    ∃ passed above, path.lineage = passed ++ found :: above ∧
      ∀ other ∈ passed, disk.entry other ≠ .directory := by
  cases isClosest with
  | directory passed above spelled noneBefore _ => exact ⟨passed, above, spelled, noneBefore⟩
  | last passed spelled noDirectory =>
    refine ⟨passed, [], spelled, fun other member => noDirectory other ?_⟩
    rw [spelled]
    exact List.mem_append_left _ member

/-- A directory is closest to itself. -/
theorem isClosest_iff_of_directory (directory : disk.entry path = .directory) :
    disk.IsClosest path found ↔ found = path := by
  obtain ⟨others, starts⟩ := path.exists_lineage_eq_cons
  constructor
  · intro isClosest
    obtain ⟨passed, above, spelled, noneBefore⟩ := isClosest.exists_passed
    rw [starts] at spelled
    cases passed with
    | nil => exact (List.cons.inj spelled).1.symm
    | cons first passed =>
      obtain ⟨rfl, -⟩ := List.cons.inj spelled
      exact absurd directory (noneBefore path List.mem_cons_self)
  · rintro rfl
    exact .directory [] others starts (by simp) directory

/-- A path without names is the only one of its lineage. -/
theorem isClosest_iff_of_names_eq_nil (atEnd : path.names = []) :
    disk.IsClosest path found ↔ found = path := by
  by_cases directory : disk.entry path = .directory
  · exact isClosest_iff_of_directory directory
  · have alone := Path.lineage_of_names_eq_nil atEnd
    constructor
    · intro isClosest
      obtain ⟨passed, above, spelled, -⟩ := isClosest.exists_passed
      have member : found ∈ path.lineage := by simp [spelled]
      rwa [alone, List.mem_singleton] at member
    · rintro rfl
      exact .last [] alone (by simpa [alone] using directory)

/-- What is closest to a path that is no directory is closest to its parent. -/
theorem isClosest_iff_parent (notDirectory : disk.entry path ≠ .directory)
    (below : path.names ≠ []) : disk.IsClosest path found ↔ disk.IsClosest path.parent found := by
  have starts := Path.lineage_of_names_ne_nil below
  constructor
  · intro isClosest
    cases isClosest with
    | directory passed above spelled noneBefore isDirectory =>
      rw [starts] at spelled
      cases passed with
      | nil =>
        obtain ⟨rfl, -⟩ := List.cons.inj spelled
        exact absurd isDirectory notDirectory
      | cons first passed =>
        exact .directory passed above (List.cons.inj spelled).2
          (List.forall_mem_cons.1 noneBefore).2 isDirectory
    | last passed spelled noDirectory =>
      rw [starts] at spelled noDirectory
      cases passed with
      | nil =>
        -- The lineage of the parent has at least the parent in it.
        obtain ⟨others, parentStarts⟩ := path.parent.exists_lineage_eq_cons
        rw [parentStarts] at spelled
        cases spelled
      | cons first passed =>
        exact .last passed (List.cons.inj spelled).2 (List.forall_mem_cons.1 noDirectory).2
  · intro isClosest
    cases isClosest with
    | directory passed above spelled noneBefore isDirectory =>
      refine .directory (path :: passed) above ?_
        (List.forall_mem_cons.2 ⟨notDirectory, noneBefore⟩) isDirectory
      rw [starts, spelled, List.cons_append]
    | last passed spelled noDirectory =>
      refine .last (path :: passed) ?_ ?_
      · rw [starts, spelled, List.cons_append]
      · rw [starts]
        exact List.forall_mem_cons.2 ⟨notDirectory, noDirectory⟩

/-- Where nothing on the way is denied, what is closest is found. -/
theorem closestDirectory_eq_ok_iff :
    disk.closestDirectory path = .ok found ↔
      ¬ disk.IsDeniedAbove path ∧ disk.IsClosest path found := by
  fun_induction closestDirectory disk path
  case case1 path denied => simp [isDeniedAbove_of_denied denied]
  case case2 path directory =>
    simp [not_isDeniedAbove_of_directory directory, isClosest_iff_of_directory directory, eq_comm]
  case case3 path answer atEnd | case5 path answer atEnd | case7 path answer atEnd |
      case9 path answer atEnd =>
    rw [isDeniedAbove_iff_of_not (by simp [answer]) (by simp [answer]),
      isClosest_iff_of_names_eq_nil atEnd]
    simp [atEnd, eq_comm]
  case case4 path answer below inductionHypothesis | case6 path answer below inductionHypothesis |
      case8 path answer below inductionHypothesis | case10 path answer below inductionHypothesis =>
    rw [isDeniedAbove_iff_of_not (by simp [answer]) (by simp [answer]),
      isClosest_iff_parent (by simp [answer]) below, inductionHypothesis]
    simp [below]

/-- What was found is closest to itself. -/
theorem closestDirectory_of_found (isFound : disk.closestDirectory path = .ok found) :
    disk.closestDirectory found = .ok found := by
  fun_induction closestDirectory disk path
  case case1 path denied => cases isFound
  case case2 path directory =>
    cases isFound
    rw [closestDirectory, directory]
  case case3 path answer atEnd | case5 path answer atEnd | case7 path answer atEnd |
      case9 path answer atEnd =>
    cases isFound
    rw [closestDirectory, answer]
    exact if_pos atEnd
  case case4 path answer below inductionHypothesis | case6 path answer below inductionHypothesis |
      case8 path answer below inductionHypothesis | case10 path answer below inductionHypothesis =>
    exact inductionHypothesis isFound

/-- The lineage of a path is made of the steps up, with the first path that is its own parent as the
last. The closest directory is not found exactly when a path of the lineage is denied and no directory
stands before it. Otherwise it is the first directory of the lineage, or the last path of a lineage
without directories; it is then the closest directory of itself, and no path before it is a
directory. -/
theorem lineage_and_closestDirectory_eq_iff (disk : Disk) (path : Path) :
    (∃ last, (∀ steps, (Path.parent^[steps] path).parent = Path.parent^[steps] path ↔ last ≤ steps) ∧
        path.lineage = List.iterate Path.parent path (last + 1)) ∧
      (∀ interruption, disk.closestDirectory path = .error interruption ↔
        interruption = .accessDenied ∧ disk.IsDeniedAbove path) ∧
      ((∃ found, disk.closestDirectory path = .ok found) ↔ ¬ disk.IsDeniedAbove path) ∧
      (∀ found, disk.closestDirectory path = .ok found ↔
        ¬ disk.IsDeniedAbove path ∧ disk.IsClosest path found) ∧
      ∀ found, disk.closestDirectory path = .ok found →
        disk.closestDirectory found = .ok found ∧
          ∃ passed above, path.lineage = passed ++ found :: above ∧
            ∀ other ∈ passed, disk.entry other ≠ .directory := by
  refine ⟨⟨_, fun steps => Path.parent_iterate_eq_self_iff, path.lineage_eq_iterate⟩,
    fun interruption => closestDirectory_eq_error_iff, ⟨?_, fun undenied => ?_⟩,
    fun found => closestDirectory_eq_ok_iff, fun found isFound => ?_⟩
  · rintro ⟨found, isFound⟩
    exact (closestDirectory_eq_ok_iff.1 isFound).1
  · cases answer : disk.closestDirectory path with
    | ok found => exact ⟨found, rfl⟩
    | error interruption => exact absurd (closestDirectory_eq_error_iff.1 answer).2 undenied
  · exact ⟨closestDirectory_of_found isFound, (closestDirectory_eq_ok_iff.1 isFound).2.exists_passed⟩

/-- A relative path with a step up in it, and a denied path above the directory that is found. -/
theorem closestDirectory_below_denied :
    let directory := Path.ofText "x/.."
    let disk : Disk :=
      { entry := fun path =>
          if path = directory then .directory
          else if path = Path.ofText "x" then .denied
          else if path = Path.ofText "x/../y" then .file
          else .missing
        content := fun _ => none }
    let path := Path.ofText "x/../y/f"
    disk.closestDirectory path = .ok directory ∧ disk.closestDirectory directory = .ok directory ∧
      ¬ disk.IsDeniedAbove path ∧ disk.IsClosest path directory := by
  intro directory disk path
  have isFound : disk.closestDirectory path = .ok directory := by decide +kernel
  obtain ⟨-, -, -, isFound_iff, closestToItself⟩ := lineage_and_closestDirectory_eq_iff disk path
  obtain ⟨undenied, isClosest⟩ := (isFound_iff directory).1 isFound
  exact ⟨isFound, (closestToItself directory isFound).1, undenied, isClosest⟩

end Disk

end VerbExpansion
