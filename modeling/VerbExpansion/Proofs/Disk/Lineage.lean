import VerbExpansion.Disk.Basic

/-!
# The way up from a path

The closest directory is looked for along the lineage of a path. The disk may refuse to answer on the
way, and that is the only way to fail (`closestDirectory_eq_error_iff`). Nothing outside of the lineage
is looked at (`closestDirectory_congr`).
-/

namespace VerbExpansion

namespace Path

/-- A lineage starts with the path. -/
theorem exists_lineage_eq_cons (path : Path) : ∃ above, path.lineage = path :: above := by
  rw [lineage]
  split
  · exact ⟨[], rfl⟩
  · exact ⟨path.parent.lineage, rfl⟩

theorem lineage_of_names_eq_nil {path : Path} (atEnd : path.names = []) : path.lineage = [path] := by
  rw [lineage, if_pos atEnd]

theorem lineage_of_names_ne_nil {path : Path} (below : path.names ≠ []) :
    path.lineage = path :: path.parent.lineage := by
  rw [lineage, if_neg below]

end Path

namespace Disk

/-- A denied path stands in the lineage, and no directory before it. -/
def IsDeniedAbove (disk : Disk) (path : Path) : Prop :=
  ∃ passed denied above, path.lineage = passed ++ denied :: above ∧
    (∀ other ∈ passed, disk.entry other ≠ .directory) ∧ disk.entry denied = .denied

variable {disk : Disk} {path : Path}

theorem isDeniedAbove_of_denied (denied : disk.entry path = .denied) : disk.IsDeniedAbove path := by
  obtain ⟨above, spelled⟩ := path.exists_lineage_eq_cons
  exact ⟨[], path, above, spelled, by simp, denied⟩

/-- What is denied above a path that is no directory and not denied is denied above its parent. -/
theorem isDeniedAbove_iff_of_not (notDirectory : disk.entry path ≠ .directory)
    (notDenied : disk.entry path ≠ .denied) :
    disk.IsDeniedAbove path ↔ path.names ≠ [] ∧ disk.IsDeniedAbove path.parent := by
  constructor
  · rintro ⟨passed, denied, above, spelled, noDirectory, isDenied⟩
    obtain ⟨others, starts⟩ := path.exists_lineage_eq_cons
    cases passed with
    | nil =>
      rw [starts] at spelled
      obtain ⟨rfl, -⟩ := List.cons.inj spelled
      exact absurd isDenied notDenied
    | cons first passed =>
      by_cases atEnd : path.names = []
      · rw [Path.lineage_of_names_eq_nil atEnd] at spelled
        have nothing := (List.cons.inj spelled).2
        cases passed <;> cases nothing
      · rw [Path.lineage_of_names_ne_nil atEnd] at spelled
        obtain ⟨-, spelled⟩ := List.cons.inj spelled
        refine ⟨atEnd, passed, denied, above, spelled, fun other member => ?_, isDenied⟩
        exact noDirectory other (List.mem_cons_of_mem _ member)
  · rintro ⟨below, passed, denied, above, spelled, noDirectory, isDenied⟩
    refine ⟨path :: passed, denied, above, ?_, ?_, isDenied⟩
    · rw [Path.lineage_of_names_ne_nil below, spelled, List.cons_append]
    · exact List.forall_mem_cons.2 ⟨notDirectory, noDirectory⟩

theorem not_isDeniedAbove_of_directory (directory : disk.entry path = .directory) :
    ¬ disk.IsDeniedAbove path := by
  rintro ⟨passed, denied, above, spelled, noDirectory, isDenied⟩
  obtain ⟨others, starts⟩ := path.exists_lineage_eq_cons
  rw [starts] at spelled
  cases passed with
  | nil =>
    obtain ⟨rfl, -⟩ := List.cons.inj spelled
    rw [directory] at isDenied
    cases isDenied
  | cons first passed =>
    obtain ⟨rfl, -⟩ := List.cons.inj spelled
    exact noDirectory path List.mem_cons_self directory

/-- The closest directory is not found exactly when a path on the way to it is denied. -/
theorem closestDirectory_eq_error_iff {interruption : Interruption} :
    disk.closestDirectory path = .error interruption ↔
      interruption = .accessDenied ∧ disk.IsDeniedAbove path := by
  fun_induction closestDirectory disk path
  case case1 path denied => simp [isDeniedAbove_of_denied denied, eq_comm]
  case case2 path directory => simp [not_isDeniedAbove_of_directory directory]
  -- Whatever else is there, the way ends or goes on to the parent.
  case case3 path answer atEnd | case5 path answer atEnd | case7 path answer atEnd |
      case9 path answer atEnd =>
    have undenied : ¬ disk.IsDeniedAbove path := by
      rw [isDeniedAbove_iff_of_not (by simp [answer]) (by simp [answer])]
      exact fun denied => denied.1 atEnd
    simp [undenied]
  case case4 path answer below inductionHypothesis | case6 path answer below inductionHypothesis |
      case8 path answer below inductionHypothesis | case10 path answer below inductionHypothesis =>
    rw [isDeniedAbove_iff_of_not (by simp [answer]) (by simp [answer]), inductionHypothesis]
    simp [below]

/-- Two disks answer alike about a path and all paths above it. -/
def AgreesAbove (disk other : Disk) (path : Path) : Prop :=
  ∀ place ∈ path.lineage, disk.entry place = other.entry place

theorem AgreesAbove.entry_eq {other : Disk} (agrees : disk.AgreesAbove other path) :
    other.entry path = disk.entry path := by
  obtain ⟨above, spelled⟩ := path.exists_lineage_eq_cons
  exact (agrees path (by simp [spelled])).symm

theorem AgreesAbove.parent {other : Disk} (agrees : disk.AgreesAbove other path)
    (below : path.names ≠ []) : disk.AgreesAbove other path.parent := by
  intro place member
  refine agrees place ?_
  rw [Path.lineage_of_names_ne_nil below]
  exact List.mem_cons_of_mem _ member

/-- The closest directory of a path depends on its lineage only. -/
theorem closestDirectory_congr {other : Disk} (agrees : disk.AgreesAbove other path) :
    disk.closestDirectory path = other.closestDirectory path := by
  fun_induction closestDirectory disk path
  case case1 path answer | case2 path answer =>
    rw [closestDirectory, agrees.entry_eq, answer]
  case case3 path answer atEnd | case5 path answer atEnd | case7 path answer atEnd |
      case9 path answer atEnd =>
    rw [closestDirectory, agrees.entry_eq, answer]
    simp [atEnd]
  case case4 path answer below inductionHypothesis | case6 path answer below inductionHypothesis |
      case8 path answer below inductionHypothesis | case10 path answer below inductionHypothesis =>
    rw [inductionHypothesis (agrees.parent below), closestDirectory.eq_1 other path, agrees.entry_eq,
      answer]
    simp [below]

end Disk

end VerbExpansion
