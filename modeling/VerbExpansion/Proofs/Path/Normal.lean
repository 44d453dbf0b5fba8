import VerbExpansion.Path.Normal
import VerbExpansion.Path.Written

/-!
# Normal paths, as paths and as texts

Following one name after the other keeps the names normal (`AreNormal`), and from the names of a normal
path the same names are reached again, so the steps can be resumed where they ended
(`normalize_extend_normalize`). A text can be made normal as well, name by name as it is written
(`normalText`). For the text of a path that is the text of the normal path (`normalText_text`).
-/

namespace VerbExpansion

namespace Path

variable {root : Root} {name last : PathName} {above rest names below : List PathName}

/-! ## One name after the other -/

theorem follow_of_ne (isName : name ≠ .up) : follow root above name = name :: above :=
  if_pos isName

theorem follow_up_nil : follow root [] .up = if root = .none then [.up] else [] :=
  if_neg (by simp)

theorem follow_up_up : follow root (.up :: rest) .up = .up :: .up :: rest := by
  rw [follow, if_neg (by simp)]
  exact if_pos rfl

theorem follow_up_of_ne (isName : last ≠ .up) : follow root (last :: rest) .up = rest := by
  rw [follow, if_neg (by simp)]
  exact if_neg isName

/-- Whether there are steps up only at the start, and none below a root. -/
def AreNormal (root : Root) (names : List PathName) : Prop :=
  ∃ steps below, names = List.replicate steps .up ++ below ∧ .up ∉ below ∧
    (root ≠ .none → steps = 0)

theorem areNormal_nil (root : Root) : AreNormal root [] :=
  ⟨0, [], rfl, List.not_mem_nil, fun _ => rfl⟩

/-- One more name after normal names leads to normal names. -/
theorem areNormal_follow (normal : AreNormal root above.reverse) (name : PathName) :
    AreNormal root (follow root above name).reverse := by
  obtain ⟨steps, below, spelled, noStep, rooted⟩ := normal
  by_cases isName : name ≠ .up
  · refine ⟨steps, below ++ [name], ?_, ?_, rooted⟩
    · rw [follow_of_ne isName, List.reverse_cons, spelled, List.append_assoc]
    · simpa [noStep] using Ne.symm isName
  · obtain rfl : name = .up := by simpa using isName
    cases above with
    | nil =>
      rw [follow_up_nil]
      split
      · next relative => exact ⟨1, [], rfl, List.not_mem_nil, fun isRoot => absurd relative isRoot⟩
      · exact areNormal_nil root
    | cons last rest =>
      rw [List.reverse_cons] at spelled
      -- Either a name is the last one, or there are only steps up.
      rcases List.eq_nil_or_concat below with rfl | ⟨start, other, rfl⟩
      · rw [List.append_nil] at spelled
        have isStep : last ∈ List.replicate steps PathName.up := by
          rw [← spelled]
          exact List.mem_append_right _ (List.mem_singleton_self last)
        obtain rfl := List.eq_of_mem_replicate isStep
        refine ⟨steps + 1, [], ?_, List.not_mem_nil, fun isRoot => ?_⟩
        · rw [follow_up_up, List.reverse_cons, List.reverse_cons, spelled, List.append_nil,
            List.replicate_succ']
        · rw [rooted isRoot] at spelled
          exact absurd spelled (by simp)
      · rw [List.concat_eq_append, ← List.append_assoc] at spelled
        obtain ⟨restSpelled, same⟩ := List.append_inj' spelled rfl
        obtain rfl := List.singleton_inj.1 same
        simp only [List.concat_eq_append, List.mem_append, List.mem_singleton, not_or] at noStep
        rw [follow_up_of_ne (Ne.symm noStep.2)]
        exact ⟨steps, start, restSpelled, noStep.1, rooted⟩

/-- What is reached from normal names is normal. -/
theorem areNormal_foldl_follow (names : List PathName) (normal : AreNormal root above.reverse) :
    AreNormal root (names.foldl (follow root) above).reverse := by
  induction names generalizing above with
  | nil => exact normal
  | cons name names inductionHypothesis =>
    exact inductionHypothesis (areNormal_follow normal name)

theorem areNormal_normalize (path : Path) : AreNormal path.root path.normalize.names :=
  areNormal_foldl_follow path.names (areNormal_nil path.root)

/-! ## The same names again -/

theorem foldl_follow_of_notMem (noStep : .up ∉ below) :
    below.foldl (follow root) above = below.reverse ++ above := by
  induction below generalizing above with
  | nil => rfl
  | cons name below inductionHypothesis =>
    have isName : name ≠ .up := (List.ne_of_not_mem_cons noStep).symm
    rw [List.foldl_cons, follow_of_ne isName,
      inductionHypothesis (List.not_mem_of_not_mem_cons noStep), List.reverse_cons,
      List.append_assoc, List.singleton_append]

theorem foldl_follow_replicate (steps : Nat) :
    (List.replicate steps .up).foldl (follow .none) [] = List.replicate steps .up := by
  induction steps with
  | zero => rfl
  | succ steps inductionHypothesis =>
    rw [List.replicate_succ', List.foldl_append, inductionHypothesis, ← List.replicate_succ']
    cases steps with
    | zero => rfl
    | succ steps => exact @follow_up_up .none (List.replicate steps .up)

/-- Normal names are followed without a change. -/
theorem foldl_follow_of_areNormal (normal : AreNormal root names) :
    names.foldl (follow root) [] = names.reverse := by
  obtain ⟨steps, below, rfl, noStep, rooted⟩ := normal
  have started : (List.replicate steps .up).foldl (follow root) [] = List.replicate steps .up := by
    by_cases relative : root = .none
    · rw [relative, foldl_follow_replicate]
    · rw [rooted relative]
      rfl
  rw [List.foldl_append, started, foldl_follow_of_notMem noStep, List.reverse_append,
    List.reverse_replicate]

/-- Normalizing changes nothing exactly in a path whose names are normal. -/
theorem normalize_eq_self_iff {path : Path} :
    path.normalize = path ↔ AreNormal path.root path.names := by
  constructor
  · intro same
    exact same ▸ areNormal_normalize path
  · intro normal
    rw [normalize, foldl_follow_of_areNormal normal, List.reverse_reverse]

@[simp] theorem normalize_normalize (path : Path) : path.normalize.normalize = path.normalize :=
  normalize_eq_self_iff.2 (areNormal_normalize path)

/-- Names below a path may be followed from where the path leads to. -/
theorem normalize_extend_normalize (path : Path) (names : List PathName) :
    (path.normalize.extend names).normalize = (path.extend names).normalize := by
  have resumed := foldl_follow_of_areNormal (areNormal_normalize path)
  simp only [normalize, List.reverse_reverse] at resumed
  simp only [normalize, extend, List.foldl_append, resumed]

/-! ## Texts made normal -/

/-- The names in a text after one more, with the last name first. Names that say nothing are left
out, and a step up is resolved where there is a name to take away. -/
def followWritten (root : Root) (above : List Text) (written : Text) : List Text :=
  if written = [] ∨ written = [.scalar '.'] then above
  else if written ≠ [.scalar '.', .scalar '.'] ∨ (root = .none ∧ above = []) ∨
      above.head? = some [.scalar '.', .scalar '.'] then written :: above
  else above.tail

/-- The text with its names made normal; a dot when nothing is left. -/
def normalText (text : Text) : Text :=
  let root := Root.ofText text
  let names := ((text.splitOn (.scalar '/')).foldl (followWritten root) []).reverse
  let normal := root.text ++ [.scalar '/'].intercalate names
  if normal = [] then [.scalar '.'] else normal

theorem text_eq_up_iff : name.text = [.scalar '.', .scalar '.'] ↔ name = .up := by
  rw [← show PathName.up.text = [.scalar '.', .scalar '.'] from rfl]
  constructor
  · intro same
    cases name
    cases same
    rfl
  · rintro rfl
    rfl

/-- A name of a path is followed as it is written. -/
theorem followWritten_map_text (root : Root) (above : List PathName) (name : PathName) :
    followWritten root (above.map (·.text)) name.text = (follow root above name).map (·.text) := by
  have isWritten : ¬ (name.text = [] ∨ name.text = [.scalar '.']) :=
    fun nothing => nothing.elim name.valid.1 name.valid.2.1
  rw [followWritten, if_neg isWritten]
  by_cases isName : name = .up
  · subst isName
    cases above with
    | nil =>
      rw [follow_up_nil]
      by_cases relative : root = .none <;> simp [relative, PathName.up]
    | cons last rest =>
      by_cases lastStep : last = .up
      · subst lastStep
        rw [follow_up_up]
        simp [PathName.up]
      · rw [follow_up_of_ne lastStep]
        have lastIsName : last.text ≠ [.scalar '.', .scalar '.'] := mt text_eq_up_iff.1 lastStep
        simp [PathName.up, lastIsName]
  · rw [follow_of_ne isName, if_pos (.inl (mt text_eq_up_iff.1 isName)), List.map_cons]

theorem foldl_followWritten (root : Root) (above names : List PathName) :
    (names.map (·.text)).foldl (followWritten root) (above.map (·.text)) =
      (names.foldl (follow root) above).map (·.text) := by
  induction names generalizing above with
  | nil => rfl
  | cons name names inductionHypothesis =>
    rw [List.map_cons, List.foldl_cons, followWritten_map_text, inductionHypothesis, List.foldl_cons]

/-- The slashes of a root separate nothing. -/
theorem foldl_followWritten_root_append (root : Root) (text : Text) :
    ((root.text ++ text).splitOn (.scalar '/')).foldl (followWritten root) [] =
      (text.splitOn (.scalar '/')).foldl (followWritten root) [] := by
  have slash (rest : Text) :
      ((.scalar '/' :: rest : Text).splitOn (.scalar '/')).foldl (followWritten root) [] =
        (rest.splitOn (.scalar '/')).foldl (followWritten root) [] := by
    rw [splitOn_slash_cons]
    rfl
  cases root with
  | none => rfl
  | slash => exact slash text
  | doubleSlash => exact (slash (.scalar '/' :: text)).trans (slash text)

/-- The text of a path is its root and its names, and a dot when that would be nothing. -/
theorem text_eq (path : Path) : path.text =
    let written := path.root.text ++ [.scalar '/'].intercalate (path.names.map (·.text))
    if written = [] then [.scalar '.'] else written := by
  obtain ⟨root, names⟩ := path
  cases names with
  | nil => cases root <;> rfl
  | cons name names =>
    have notEmpty : root.text ++ [.scalar '/'].intercalate ((name :: names).map (·.text)) ≠ [] := by
      cases names with
      | nil => simp [name.valid.1]
      | cons second names => simp [List.intercalate_cons_cons]
    rw [if_neg notEmpty, text_of_ne_dot _ fun _ => List.cons_ne_nil name names]

/-- The names of a path are followed as its text writes them. -/
theorem foldl_followWritten_text (path : Path) :
    (path.text.splitOn (.scalar '/')).foldl (followWritten path.root) [] =
      (path.names.foldl (follow path.root) []).map (·.text) := by
  obtain ⟨root, names⟩ := path
  cases names with
  | nil => cases root <;> rfl
  | cons name names =>
    have notEmpty := List.cons_ne_nil name names
    rw [text_of_ne_dot _ fun _ => notEmpty, foldl_followWritten_root_append,
      PathName.splitOn_intercalate _ notEmpty]
    exact foldl_followWritten root [] (name :: names)

/-- Made normal as a text, the text of a path is that of the normal path. -/
theorem normalText_text (path : Path) : normalText path.text = path.normalize.text := by
  rw [normalText, Root.ofText_text, foldl_followWritten_text, ← List.map_reverse, text_eq path.normalize]
  rfl

end Path

end VerbExpansion
