import VerbExpansion.Proofs.Pattern.Capture
import VerbExpansion.Proofs.Signature.Reading

/-!
# What is typed for the groups of a signature

Typed arguments are matched with the pattern of the signature. They have values exactly when the
pattern accepts them, and the values are then the greedy captures of the pattern, each under the
name of its gap (`isSome_values?_iff_and_eq_some_iff`).
-/

namespace VerbExpansion.Signature

variable {signature : Signature} {pattern : Pattern}

theorem groups_eq (takes : signature.command.pattern? = some pattern) :
    signature.groups = pattern.placeholders.map (·.name) := by
  rw [groups, TypedCommand.groups, takes]

theorem values?_eq (takes : signature.command.pattern? = some pattern) (arguments : Text) :
    signature.values? arguments = (pattern.capture? arguments).map (signature.groups.zip ·) := by
  rw [values?, takes]

/-- There is one group for each text that a pattern captures. -/
theorem length_captures_eq (takes : signature.command.pattern? = some pattern)
    {captures : List Text} {arguments : Text} (accepts : pattern.Accepts captures arguments) :
    captures.length = signature.groups.length := by
  rw [groups_eq takes, List.length_map]
  rcases accepts with fits | ⟨_, _, fits⟩
  · exact fits.length_eq
  · exact fits.length_eq

/-- Typed arguments have values exactly when the pattern accepts them. -/
theorem isSome_values?_iff (takes : signature.command.pattern? = some pattern) {arguments : Text} :
    (signature.values? arguments).isSome ↔ ∃ captures, pattern.Accepts captures arguments := by
  rw [values?_eq takes, Option.isSome_map, Pattern.isSome_capture?_iff]

/-- The values of typed arguments are the greedy captures, under the names of the groups. -/
theorem values?_eq_some_iff (takes : signature.command.pattern? = some pattern) {arguments : Text}
    {values : GroupValues} :
    signature.values? arguments = some values ↔
      values.map Prod.fst = signature.groups ∧
      pattern.IsGreedy (values.map Prod.snd) arguments := by
  rw [values?_eq takes, Option.map_eq_some_iff]
  constructor
  · rintro ⟨captures, captured, rfl⟩
    have isGreedy := Pattern.capture?_eq_some_iff.1 captured
    have sameLength := length_captures_eq takes isGreedy.accepts
    rw [List.map_fst_zip (by omega), List.map_snd_zip (by omega)]
    exact ⟨rfl, isGreedy⟩
  · rintro ⟨sameNames, isGreedy⟩
    exact ⟨_, Pattern.capture?_eq_some_iff.2 isGreedy, (List.zip_of_prod sameNames rfl).symm⟩

/-! ## Values put back -/

/-- The value of a name that no other value has. -/
theorem lookup_of_mem {values : GroupValues} (distinct : (values.map Prod.fst).Nodup)
    {name value : Text} (member : (name, value) ∈ values) : values.lookup name = some value := by
  induction values with
  | nil => cases member
  | cons first others inductionHypothesis =>
    obtain ⟨firstName, firstValue⟩ := first
    rw [List.map_cons, List.nodup_cons] at distinct
    rcases List.mem_cons.1 member with same | inOthers
    · cases same
      exact List.lookup_cons_self
    · have different : name ≠ firstName := by
        rintro rfl
        exact distinct.1 (List.mem_map.2 ⟨_, inOthers, rfl⟩)
      rw [List.lookup_cons, beq_false_of_ne different]
      exact inductionHypothesis distinct.2 inOthers

/-- A pattern with each value put in place of the placeholders of its name. -/
def restored (values : GroupValues) (pattern : Pattern) : Text :=
  pattern.filled fun placeholder => (values.lookup placeholder.name).getD placeholder.source

/-- The values of arguments, put back into the pattern that fits them, give the arguments. -/
theorem restored_eq (takes : signature.command.pattern? = some pattern) {values : GroupValues}
    {arguments : Text} (named : values.map Prod.fst = signature.groups)
    (fits : pattern.Fits (values.map Prod.snd) arguments) : restored values pattern = arguments := by
  have distinct : (values.map Prod.fst).Nodup := named ▸ signature.distinct
  refine fits.filled_eq (List.ext_getElem ?_ fun index inPlaceholders inValues => ?_)
  · rw [List.length_map, fits.length_eq]
  · rw [List.length_map] at inPlaceholders inValues
    have sameName : pattern.placeholders[index].name = values[index].1 := by
      have names := named.trans (groups_eq takes)
      have atIndex := congrArg (·[index]?) names
      simpa [inPlaceholders, inValues, eq_comm] using atIndex
    have valued : values.lookup values[index].1 = some values[index].2 :=
      lookup_of_mem distinct (List.getElem_mem inValues)
    rw [List.getElem_map, List.getElem_map, sameName, valued, Option.getD_some]

/-- The values of trimmed arguments are one for each group, and put back they give the arguments:
no line end was left over. -/
theorem restored_of_isTrimmed (takes : signature.command.pattern? = some pattern)
    {values : GroupValues} {arguments : Text} (isTrimmed : Text.IsTrimmed arguments)
    (matched : signature.values? arguments = some values) :
    values.map Prod.fst = signature.groups ∧ restored values pattern = arguments := by
  obtain ⟨named, isGreedy⟩ := (values?_eq_some_iff takes).1 matched
  exact ⟨named, restored_eq takes named (isGreedy.accepts.fits_of_isTrimmed isTrimmed)⟩

/-! ## Matching -/

/-- Where a text is accepted as a signature that takes arguments, typed arguments have values exactly
when the gaps of its pattern can be filled so that the pattern becomes the arguments. The values are
then the greedy ones, each under the name of its placeholder. -/
theorem isSome_values?_iff_and_eq_some_iff (invocation argumentPattern : Text)
    (signature : Signature) (accepted : Signature.ofText invocation = .ok signature)
    (takes : (TypedCommand.ofText invocation).arguments = some argumentPattern)
    (arguments : Text) :
    ((signature.values? arguments).isSome ↔
      ∃ captures, (Pattern.ofText argumentPattern).Accepts captures arguments) ∧
    ∀ values, signature.values? arguments = some values ↔
      values.map Prod.fst = (Pattern.ofText argumentPattern).placeholders.map (·.name) ∧
      (Pattern.ofText argumentPattern).IsGreedy (values.map Prod.snd) arguments := by
  have takesPattern : signature.command.pattern? = some (Pattern.ofText argumentPattern) := by
    rw [← ofText_eq_ok_iff.1 accepted, TypedCommand.pattern?, takes, Option.map_some]
  refine ⟨isSome_values?_iff takesPattern, fun values => ?_⟩
  rw [values?_eq_some_iff takesPattern, groups_eq takesPattern]

/-- Literals that stand in the arguments more often than in the pattern, and a line end that can be
captured or left over. -/
theorem isSome_values?_and_isGreedy_of_repeated_literals :
    let argumentPattern : Text := "{a}.{b:path}(*{c}"
    let pattern := Pattern.ofText argumentPattern
    let arguments : Text := "x.y.z(*(*\n"
    ∃ signature, Signature.ofText (":mv! " ++ argumentPattern) = .ok signature ∧
      (TypedCommand.ofText (":mv! " ++ argumentPattern)).arguments = some argumentPattern ∧
      ((signature.values? arguments).isSome ↔
        ∃ captures, pattern.Accepts captures arguments) ∧
      pattern.IsGreedy ["x.y", "z(*", "\n"] arguments := by
  intro argumentPattern pattern arguments
  have typed : TypedCommand.ofText (":mv! " ++ argumentPattern) =
      ⟨"mv", true, some argumentPattern⟩ := by
    decide +kernel
  have takes : (TypedCommand.ofText (":mv! " ++ argumentPattern)).arguments =
      some argumentPattern := by
    rw [typed]
  let signature : Signature := ⟨⟨"mv", true, some argumentPattern⟩, by decide +kernel⟩
  have accepted : Signature.ofText (":mv! " ++ argumentPattern) = .ok signature :=
    ofText_eq_ok_iff.2 typed
  let values : GroupValues := [("a", "x.y"), ("b", "z(*"), ("c", "\n")]
  have found : signature.values? arguments = some values := by
    decide +kernel
  have matched := isSome_values?_iff_and_eq_some_iff _ argumentPattern signature accepted takes
    arguments
  exact ⟨signature, accepted, takes, matched.1, ((matched.2 values).1 found).2⟩

end VerbExpansion.Signature
