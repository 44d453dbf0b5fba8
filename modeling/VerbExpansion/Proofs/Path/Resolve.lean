import Mathlib.Data.List.DropRight
import VerbExpansion.Path.Resolve
import VerbExpansion.Proofs.Path.Normal

/-!
# Where typed paths lead

A typed path that is neither absolute nor starts at the home directory leads from the base directory to
a normal path, and one such path after the other leads to the same place as both in one
(`isNormalText_resolve_and_resolve_resolve`). From an absolute base and with an absolute home, all typed
paths lead to absolute paths but one: a tilde before a line end is taken for the home directory and then
left as it is (`head?_text_resolve_iff_and_isMeant_iff`).
-/

namespace VerbExpansion

/-! ## Slashes at the start -/

theorem Root.ofText_ne_none_iff {text : Text} :
    Root.ofText text ≠ .none ↔ text.head? = some (.scalar '/') := by
  cases text with
  | nil => simp [ofText]
  | cons first rest =>
    by_cases slash : first = .scalar '/'
    · subst slash
      refine iff_of_true (fun isNone => ?_) rfl
      unfold ofText at isNone
      split at isNone <;> simp_all
    · refine iff_of_false (not_not_intro ?_) (by simpa using slash)
      unfold ofText
      split <;> simp_all

/-- A path is written with a slash at the start exactly when it has a root. -/
theorem Path.head?_text_iff (path : Path) :
    path.text.head? = some (.scalar '/') ↔ path.root ≠ .none := by
  rw [← Root.ofText_ne_none_iff, Root.ofText_text]

/-- What a tilde leads to starts with a slash when the home directory does. -/
theorem head?_homeText {home rest : Text} (absolute : home.head? = some (.scalar '/'))
    (below : rest = [] ∨ rest.head? = some (.scalar '/')) :
    (homeText home rest).head? = some (.scalar '/') := by
  obtain ⟨slashes, cut⟩ := List.rdropWhile_prefix (· == Character.scalar '/') home
  change (if (home.rdropWhile (· == .scalar '/') ++ rest).isEmpty then [.scalar '/']
    else home.rdropWhile (· == .scalar '/') ++ rest).head? = some (.scalar '/')
  cases directory : home.rdropWhile (· == .scalar '/') with
  | nil =>
    rcases below with rfl | starts
    · rfl
    · cases rest with
      | nil => cases starts
      | cons first rest => exact starts
  | cons first names =>
    rw [directory] at cut
    rw [← cut] at absolute
    exact absolute

/-! ## At home or not -/

theorem startsAtHome_iff {typed : Text} : startsAtHome typed = true ↔
    typed = [.scalar '~'] ∨ typed = [.scalar '~', .scalar '\n'] ∨
      ∃ rest, typed = .scalar '~' :: .scalar '/' :: rest := by
  constructor
  · intro atHome
    unfold startsAtHome at atHome
    split at atHome
    · exact .inl rfl
    · exact .inr (.inl rfl)
    · exact .inr (.inr ⟨_, rfl⟩)
    · cases atHome
  · rintro (rfl | rfl | ⟨rest, rfl⟩) <;> rfl

/-- A typed path that is meant from the base directory. -/
structure IsFromBase (typed : Text) : Prop where
  notAbsolute : typed.head? ≠ some (.scalar '/')
  notAtHome : startsAtHome typed = false

/-- What is typed behind a slash does not change where a typed path is meant from. -/
theorem IsFromBase.append_slash {first : Text} (fromBase : IsFromBase first) (notEmpty : first ≠ [])
    (second : Text) : IsFromBase (first ++ .scalar '/' :: second) := by
  refine ⟨?_, ?_⟩
  · rw [List.head?_append_of_ne_nil _ notEmpty]
    exact fromBase.notAbsolute
  · rw [← Bool.not_eq_true, startsAtHome_iff]
    have notAtHome := fromBase.notAtHome
    rw [← Bool.not_eq_true, startsAtHome_iff] at notAtHome
    obtain ⟨character, first, rfl⟩ := List.exists_cons_of_ne_nil notEmpty
    rw [List.cons_append]
    rintro (home | home | ⟨rest, home⟩) <;> obtain ⟨rfl, behind⟩ := List.cons.inj home
    · exact absurd behind (by simp)
    · cases first with
      | nil => cases behind
      | cons next first => exact absurd (List.cons.inj behind).2 (by simp)
    · -- The slash is the one that follows what was typed first, or one in it.
      cases first with
      | nil => exact notAtHome (.inl rfl)
      | cons next first =>
        obtain ⟨rfl, -⟩ := List.cons.inj behind
        exact notAtHome (.inr (.inr ⟨first, rfl⟩))

theorem PathName.listOfText_append_slash (first second : Text) :
    listOfText (first ++ .scalar '/' :: second) = listOfText first ++ listOfText second := by
  rw [listOfText, List.splitOn_append_cons_self, List.filterMap_append]
  rfl

namespace Path

variable {home typed first second : Text} {base : Path}

/-! ## From the base directory -/

theorem resolve_of_isFromBase (fromBase : IsFromBase typed) :
    resolve home base typed = (base.extend (PathName.listOfText typed)).normalize := by
  rw [resolve, if_neg fromBase.notAbsolute, if_neg (by simp [fromBase.notAtHome])]

/-- The text of a path with this root and with normal names: it has no empty names, no dots among its
names, and steps up only at the start of a relative path. A dot stands for the relative path without
names. -/
inductive IsNormalText : Root → Text → Prop where
  | dot : IsNormalText .none [.scalar '.']
  | written {root : Root} (steps : Nat) (names : List Text) (rooted : root ≠ .none → steps = 0)
      (notDot : root = .none → steps ≠ 0 ∨ names ≠ [])
      (areNames : ∀ name ∈ names, name ≠ [] ∧ name ≠ [.scalar '.'] ∧
        name ≠ [.scalar '.', .scalar '.'] ∧ .scalar '/' ∉ name) :
      IsNormalText root (root.text ++ [.scalar '/'].intercalate
        (List.replicate steps [.scalar '.', .scalar '.'] ++ names))

theorem isNormalText_text (path : Path) (normal : AreNormal path.root path.names) :
    IsNormalText path.root path.text := by
  obtain ⟨steps, below, spelled, noStep, rooted⟩ := normal
  by_cases nothing : path.root = .none ∧ path.names = []
  · obtain ⟨relative, noNames⟩ := nothing
    rw [text_eq, relative, noNames]
    exact .dot
  · have notDot : path.root = .none → path.names ≠ [] := fun relative noNames =>
      nothing ⟨relative, noNames⟩
    rw [text_of_ne_dot path notDot, spelled, List.map_append, List.map_replicate]
    refine .written steps (below.map (·.text)) rooted (fun relative => ?_) ?_
    · by_contra nothingWritten
      simp only [not_or, not_not, ne_eq, List.map_eq_nil_iff] at nothingWritten
      refine notDot relative ?_
      rw [spelled, nothingWritten.1, nothingWritten.2]
      rfl
    · intro text member
      obtain ⟨name, isBelow, rfl⟩ := List.mem_map.1 member
      have isName : name ≠ .up := fun isStep => noStep (isStep ▸ isBelow)
      exact ⟨name.valid.1, name.valid.2.1, mt text_eq_up_iff.1 isName, name.valid.2.2⟩

theorem isNormalText_text_normalize (path : Path) : IsNormalText path.root path.normalize.text :=
  isNormalText_text path.normalize (areNormal_normalize path)

/-- A path meant from the base directory is normal and stays as it is when it is made normal again, as
a path and as a text. What is typed from there on leads to the same place as when it is typed behind
it at once. -/
theorem isNormalText_resolve_and_resolve_resolve (home : Text) (base : Path) {first second : Text}
    (firstFromBase : IsFromBase first) (secondFromBase : IsFromBase second)
    (notEmpty : first ≠ []) :
    IsNormalText base.root (resolve home base first).text ∧
      normalText (resolve home base first).text = (resolve home base first).text ∧
      (resolve home base first).normalize = resolve home base first ∧
      resolve home (resolve home base first) second =
        resolve home base (first ++ .scalar '/' :: second) := by
  have both := firstFromBase.append_slash notEmpty second
  rw [resolve_of_isFromBase firstFromBase, resolve_of_isFromBase secondFromBase,
    resolve_of_isFromBase both]
  refine ⟨isNormalText_text_normalize (base.extend _), ?_, normalize_normalize _, ?_⟩
  · rw [normalText_text, normalize_normalize]
  · rw [normalize_extend_normalize, PathName.listOfText_append_slash, extend, extend, extend,
      List.append_assoc]

/-- A step up above a relative base directory, and then one more. -/
theorem resolve_resolve_above_base :
    let base := ofText "x"
    IsFromBase "a/../.." ∧ IsFromBase "../b//./c/" ∧
      (resolve "/home/me" base "a/../..").text = "." ∧
      IsNormalText .none (resolve "/home/me" base "a/../..").text ∧
      resolve "/home/me" (resolve "/home/me" base "a/../..") "../b//./c/" =
        resolve "/home/me" base "a/../../../b//./c/" ∧
      (resolve "/home/me" base "a/../../../b//./c/").text = "../b/c" := by
  intro base
  have first : IsFromBase "a/../.." := ⟨by decide, rfl⟩
  have second : IsFromBase "../b//./c/" := ⟨by decide, rfl⟩
  obtain ⟨isNormal, -, -, same⟩ :=
    isNormalText_resolve_and_resolve_resolve "/home/me" base first second (by decide)
  exact ⟨first, second, by decide +kernel, isNormal, same, by decide +kernel⟩

/-! ## Absolute paths -/

/-- What a typed path means by the rule: absolute paths are kept, a tilde that stands alone or before a
slash is the home directory, and all else is meant from the base directory. -/
inductive IsMeant (home : Text) (base : Path) : (typed : Text) → Path → Prop where
  | absolute (rest : Text) : IsMeant home base (.scalar '/' :: rest) (ofText (.scalar '/' :: rest))
  | atHome : IsMeant home base [.scalar '~'] (ofText (homeText home []))
  | belowHome (rest : Text) : IsMeant home base (.scalar '~' :: .scalar '/' :: rest)
      (ofText (homeText home (.scalar '/' :: rest)))
  | fromBase {typed : Text} (notAbsolute : typed.head? ≠ some (.scalar '/'))
      (notHome : typed ≠ [.scalar '~'])
      (notBelowHome : ∀ rest, typed ≠ .scalar '~' :: .scalar '/' :: rest) :
      IsMeant home base typed (base.extend (PathName.listOfText typed)).normalize

/-- A tilde before a line end is neither expanded nor meant from the base directory. -/
theorem resolve_tilde_line (home : Text) (base : Path) :
    resolve home base [.scalar '~', .scalar '\n'] = ofText [.scalar '~', .scalar '\n'] := rfl

/-- All other typed paths are resolved by the rule. -/
theorem isMeant_resolve (home : Text) (base : Path)
    (notTildeLine : typed ≠ [.scalar '~', .scalar '\n']) :
    IsMeant home base typed (resolve home base typed) := by
  by_cases absolute : typed.head? = some (.scalar '/')
  · obtain ⟨rest, rfl⟩ := List.head?_eq_some_iff.1 absolute
    exact .absolute rest
  · by_cases atHome : startsAtHome typed = true
    · rcases startsAtHome_iff.1 atHome with rfl | tildeLine | ⟨rest, rfl⟩
      · exact .atHome
      · exact absurd tildeLine notTildeLine
      · exact .belowHome rest
    · rw [resolve_of_isFromBase ⟨absolute, by simpa using atHome⟩]
      rw [startsAtHome_iff, not_or, not_or, not_exists] at atHome
      exact .fromBase absolute atHome.1 atHome.2.2

/-- By the rule, a typed path leads to an absolute path from an absolute base directory and with an
absolute home. -/
theorem IsMeant.root_ne_none {path : Path} (isMeant : IsMeant home base typed path)
    (baseAbsolute : base.root ≠ .none) (homeAbsolute : home.head? = some (.scalar '/')) :
    path.root ≠ .none := by
  cases isMeant with
  | absolute rest => exact Root.ofText_ne_none_iff.2 rfl
  | atHome => exact Root.ofText_ne_none_iff.2 (head?_homeText homeAbsolute (.inl rfl))
  | belowHome rest => exact Root.ofText_ne_none_iff.2 (head?_homeText homeAbsolute (.inr rfl))
  | fromBase => exact baseAbsolute

/-- From an absolute base directory and with an absolute home, a typed path leads to an absolute path,
and is resolved by the rule, unless it is a tilde before a line end. -/
theorem head?_text_resolve_iff_and_isMeant_iff {home : Text} {base : Path} (typed : Text)
    (baseAbsolute : base.root ≠ .none) (homeAbsolute : home.head? = some (.scalar '/')) :
    ((resolve home base typed).text.head? = some (.scalar '/') ↔
        typed ≠ [.scalar '~', .scalar '\n']) ∧
      (IsMeant home base typed (resolve home base typed) ↔
        typed ≠ [.scalar '~', .scalar '\n']) := by
  have relative : typed = [.scalar '~', .scalar '\n'] → (resolve home base typed).root = .none := by
    rintro rfl
    rw [resolve_tilde_line]
    rfl
  rw [head?_text_iff]
  constructor
  · constructor
    · exact fun isRooted tildeLine => isRooted (relative tildeLine)
    · exact fun notTildeLine =>
        (isMeant_resolve home base notTildeLine).root_ne_none baseAbsolute homeAbsolute
  · constructor
    · exact fun isMeant tildeLine =>
        isMeant.root_ne_none baseAbsolute homeAbsolute (relative tildeLine)
    · exact isMeant_resolve home base

/-- A name that starts with a tilde and ends a line is meant from the base directory. -/
theorem head?_text_resolve_of_tilde_name :
    (ofText "/base").root ≠ .none ∧ ("/home/me" : Text).head? = some (.scalar '/') ∧
      ((resolve "/home/me" (ofText "/base") "~x\n").text.head? = some (.scalar '/') ↔
        ("~x\n" : Text) ≠ [.scalar '~', .scalar '\n']) ∧
      (resolve "/home/me" (ofText "/base") "~x\n").text = "/base/~x\n" := by
  have baseAbsolute : (ofText "/base").root ≠ .none := by decide
  have homeAbsolute : ("/home/me" : Text).head? = some (.scalar '/') := rfl
  obtain ⟨absolute, -⟩ := head?_text_resolve_iff_and_isMeant_iff "~x\n" baseAbsolute homeAbsolute
  exact ⟨baseAbsolute, homeAbsolute, absolute, by decide +kernel⟩

/-- A tilde before a line end leads nowhere absolute. -/
theorem head?_text_resolve_of_tilde_line :
    (ofText "/base").root ≠ .none ∧ ("/home/me" : Text).head? = some (.scalar '/') ∧
      (resolve "/home/me" (ofText "/base") "~\n").text = "~\n" ∧
      (resolve "/home/me" (ofText "/base") "~\n").text.head? ≠ some (.scalar '/') := by
  decide +kernel

end Path

end VerbExpansion
