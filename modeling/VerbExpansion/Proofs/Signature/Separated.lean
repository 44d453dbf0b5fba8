import Mathlib.Data.List.Forall2
import VerbExpansion.Proofs.Signature.Values

/-!
# Values between separators

Where one character stands between each two gaps of a pattern, values without these characters can be
put into the pattern and are read back (`values?_of_separated`). Whatever else the pattern accepts in
the text gives each gap a start of its value (`prefixes_of_accepts`): to let a gap go on past its
value would use up a separator, and then there are too few left for the gaps behind it.
-/

namespace VerbExpansion

/-- A gap behind another one, the character between the two, and a value for the gap. -/
structure Field where
  separator : Character
  placeholder : Placeholder
  value : Text

namespace Field

/-- A gap and all the fields behind it, as a pattern. -/
def pattern (placeholder : Placeholder) (fields : List Field) : Pattern :=
  .gap placeholder ::
    fields.flatMap fun field => [.literal field.separator, .gap field.placeholder]

/-- The value of a gap and of all the fields behind it, as a text. -/
def text (value : Text) (fields : List Field) : Text :=
  value ++ fields.flatMap fun field => field.separator :: field.value

variable {placeholder : Placeholder} {value : Text} {field : Field} {fields : List Field}

@[simp] theorem pattern_nil : pattern placeholder [] = [.gap placeholder] := rfl

@[simp] theorem pattern_cons :
    pattern placeholder (field :: fields) =
      .gap placeholder :: .literal field.separator :: pattern field.placeholder fields := rfl

@[simp] theorem text_nil : text value [] = value :=
  List.append_nil value

@[simp] theorem text_cons :
    text value (field :: fields) = value ++ field.separator :: text field.value fields := rfl

/-- The characters between the gaps are among these, and no value holds any of these. -/
structure Separates (isSeparator : Character → Bool) (value : Text) (fields : List Field) : Prop where
  separators : ∀ field ∈ fields, isSeparator field.separator = true
  first : ∀ character ∈ value, isSeparator character = false
  others : ∀ field ∈ fields, ∀ character ∈ field.value, isSeparator character = false

/-- The characters between the gaps, when none of them occurs in a value. -/
theorem separates_of_notMem (unseparated : ∀ field ∈ fields, field.separator ∉ value ∧
    ∀ other ∈ fields, field.separator ∉ other.value) :
    Separates (fun character => fields.any (·.separator == character)) value fields := by
  have notSeparator : ∀ {text : Text}, (∀ field ∈ fields, field.separator ∉ text) →
      ∀ character ∈ text, (fields.any (·.separator == character)) = false := by
    intro text noneIn character member
    rw [List.any_eq_false]
    intro field isField same
    exact noneIn field isField (eq_of_beq same ▸ member)
  refine ⟨fun field member => ?_, notSeparator fun field member => (unseparated field member).1,
    fun other member => notSeparator fun field isField => (unseparated field isField).2 other member⟩
  exact List.any_eq_true.2 ⟨field, member, beq_self_eq_true _⟩

theorem Separates.tail {isSeparator : Character → Bool}
    (separates : Separates isSeparator value (field :: fields)) :
    Separates isSeparator field.value fields where
  separators := (List.forall_mem_cons.1 separates.separators).2
  first := separates.others field List.mem_cons_self
  others := (List.forall_mem_cons.1 separates.others).2

/-- Separators that no value holds are the only separators of the text. -/
theorem Separates.countP_text {isSeparator : Character → Bool}
    (separates : Separates isSeparator value fields) :
    (text value fields).countP isSeparator = fields.length := by
  induction fields generalizing value with
  | nil =>
    rw [text_nil, List.countP_eq_zero.2 (by simpa using separates.first), List.length_nil]
  | cons field fields inductionHypothesis =>
    rw [text_cons, List.countP_append, List.countP_eq_zero.2 (by simpa using separates.first),
      List.countP_cons_of_pos (separates.separators field List.mem_cons_self),
      inductionHypothesis separates.tail, List.length_cons, Nat.zero_add]

end Field

namespace Pattern

variable {placeholder : Placeholder} {value trailing : Text} {fields : List Field}
  {captures : List Text}

@[simp] theorem placeholders_literals (text : Text) : placeholders (text.map .literal) = [] := by
  induction text with
  | nil => rfl
  | cons character text inductionHypothesis => exact inductionHypothesis

/-- The gaps of the fields are those of the pattern, in order. -/
theorem placeholders_field_pattern (placeholder : Placeholder) (fields : List Field) :
    (Field.pattern placeholder fields).placeholders = placeholder :: fields.map (·.placeholder) := by
  induction fields generalizing placeholder with
  | nil => rfl
  | cons field fields inductionHypothesis =>
    rw [Field.pattern_cons, placeholders_gap_cons, placeholders_literal_cons, inductionHypothesis,
      List.map_cons]

/-- Literal text before a pattern has to stand before what the pattern accepts. -/
theorem accepts_literals_append_iff {pattern : Pattern} {leading text : Text} :
    Accepts (leading.map .literal ++ pattern) captures text ↔
      ∃ rest, text = leading ++ rest ∧ pattern.Accepts captures rest := by
  induction leading generalizing text with
  | nil => simp
  | cons character leading inductionHypothesis =>
    rw [List.map_cons, List.cons_append, accepts_literal_iff]
    constructor
    · rintro ⟨rest, rfl, accepts⟩
      obtain ⟨left, rfl, patternAccepts⟩ := inductionHypothesis.1 accepts
      exact ⟨left, rfl, patternAccepts⟩
    · rintro ⟨left, rfl, accepts⟩
      exact ⟨leading ++ left, rfl, inductionHypothesis.2 ⟨left, rfl, accepts⟩⟩

/-- Literal text fits itself only. -/
theorem fits_literals_iff {text : Text} :
    Fits (trailing.map .literal) captures text ↔ captures = [] ∧ text = trailing := by
  induction trailing generalizing text with
  | nil =>
    constructor
    · rintro ⟨⟩
      exact ⟨rfl, rfl⟩
    · rintro ⟨rfl, rfl⟩
      exact .nil
  | cons character trailing inductionHypothesis =>
    constructor
    · intro fits
      cases fits with
      | literal _ fits =>
        obtain ⟨rfl, rfl⟩ := inductionHypothesis.1 fits
        exact ⟨rfl, rfl⟩
    · rintro ⟨rfl, rfl⟩
      exact .literal character (inductionHypothesis.2 ⟨rfl, rfl⟩)

/-- What fits one gap before literal text. -/
theorem Fits.exists_of_separated_nil {text : Text}
    (fits : Fits (Field.pattern placeholder [] ++ trailing.map .literal) captures text) :
    ∃ capture, captures = [capture] ∧ text = capture ++ trailing := by
  cases fits with
  | gap _ _ fits =>
    obtain ⟨rfl, rfl⟩ := fits_literals_iff.1 fits
    exact ⟨_, rfl, rfl⟩

/-- What fits a gap with more fields behind it has the separator behind what fits the gap. -/
theorem Fits.exists_of_separated_cons {field : Field} {text : Text}
    (fits : Fits (Field.pattern placeholder (field :: fields) ++ trailing.map .literal) captures
      text) :
    ∃ capture others rest, captures = capture :: others ∧
      text = capture ++ field.separator :: rest ∧
      Fits (Field.pattern field.placeholder fields ++ trailing.map .literal) others rest := by
  cases fits with
  | gap _ _ fits =>
    cases fits with
    | literal _ fits => exact ⟨_, _, _, rfl, rfl, fits⟩

/-- The values fit between the separators. -/
theorem fits_separated (valueNotEmpty : value ≠ [])
    (fieldsNotEmpty : ∀ field ∈ fields, field.value ≠ []) :
    Fits (Field.pattern placeholder fields ++ trailing.map .literal)
      (value :: fields.map (·.value)) (Field.text value fields ++ trailing) := by
  induction fields generalizing placeholder value with
  | nil =>
    rw [Field.text_nil]
    exact .gap placeholder valueNotEmpty (fits_literals_iff.2 ⟨rfl, rfl⟩)
  | cons field fields inductionHypothesis =>
    obtain ⟨fieldNotEmpty, othersNotEmpty⟩ := List.forall_mem_cons.1 fieldsNotEmpty
    rw [Field.text_cons, List.append_assoc]
    exact .gap placeholder valueNotEmpty
      (.literal field.separator (inductionHypothesis fieldNotEmpty othersNotEmpty))

variable {isSeparator : Character → Bool}

/-- What fits has all the separators of the pattern in it. -/
theorem Fits.le_countP {text : Text}
    (fits : Fits (Field.pattern placeholder fields ++ trailing.map .literal) captures text)
    (separators : ∀ field ∈ fields, isSeparator field.separator = true) :
    fields.length + trailing.countP isSeparator ≤ text.countP isSeparator := by
  induction fields generalizing placeholder captures text with
  | nil =>
    obtain ⟨capture, -, rfl⟩ := fits.exists_of_separated_nil
    rw [List.countP_append, List.length_nil]
    omega
  | cons field fields inductionHypothesis =>
    obtain ⟨isSeparating, others⟩ := List.forall_mem_cons.1 separators
    obtain ⟨capture, _, rest, -, rfl, restFits⟩ := fits.exists_of_separated_cons
    have counted := inductionHypothesis restFits others
    rw [List.countP_append, List.countP_cons_of_pos isSeparating, List.length_cons]
    omega

/-- Whatever fits a start of the text gives the first gap its value, when there are more gaps. -/
theorem Fits.first_eq {field : Field} {capture rest extra : Text}
    (fits : Fits (Field.pattern field.placeholder fields ++ trailing.map .literal) captures rest)
    (separates : Field.Separates isSeparator value (field :: fields))
    (spelled : capture ++ field.separator :: (rest ++ extra) =
      value ++ field.separator :: (Field.text field.value fields ++ trailing)) : capture = value := by
  have isSeparating := separates.separators field List.mem_cons_self
  rcases List.append_eq_append_iff.1 spelled with ⟨between, inValue, left⟩ | ⟨between, inCapture, left⟩
  · cases between with
    | nil => rw [inValue, List.append_nil]
    | cons first between =>
      -- The separator would be a character of the value.
      obtain ⟨rfl, -⟩ := List.cons.inj left
      have notSeparating := separates.first field.separator (by simp [inValue])
      exact absurd (notSeparating.symm.trans isSeparating) Bool.false_ne_true
  · cases between with
    | nil => rw [inCapture, List.append_nil]
    | cons first between =>
      -- The gap would use up a separator, and the rest needs all the others.
      obtain ⟨rfl, behind⟩ := List.cons.inj left
      have needed := fits.le_countP (List.forall_mem_cons.1 separates.separators).2
      have counts := congrArg (List.countP isSeparator) behind
      rw [List.append_eq] at counts
      rw [List.countP_append, separates.tail.countP_text, List.countP_append,
        List.countP_cons_of_pos isSeparating, List.countP_append] at counts
      omega

/-- Whatever fits a start of the text gives each gap a start of its value. -/
theorem Fits.prefixes {body extra : Text}
    (fits : Fits (Field.pattern placeholder fields ++ trailing.map .literal) captures body)
    (separates : Field.Separates isSeparator value fields)
    (spelled : body ++ extra = Field.text value fields ++ trailing) :
    List.Forall₂ (· <+: ·) captures (value :: fields.map (·.value)) := by
  induction fields generalizing placeholder value captures body with
  | nil =>
    obtain ⟨capture, rfl, rfl⟩ := fits.exists_of_separated_nil
    rw [Field.text_nil, List.append_assoc] at spelled
    have lengths := congrArg List.length spelled
    simp only [List.length_append] at lengths
    have isPrefix : capture <+: value :=
      List.prefix_of_prefix_length_le (List.prefix_append capture _)
        (spelled ▸ List.prefix_append value _) (by omega)
    exact .cons isPrefix .nil
  | cons field fields inductionHypothesis =>
    obtain ⟨capture, others, rest, rfl, rfl, restFits⟩ := fits.exists_of_separated_cons
    rw [Field.text_cons, List.append_assoc, List.append_assoc, List.cons_append,
      List.cons_append] at spelled
    obtain rfl := restFits.first_eq separates spelled
    have restSpelled := (List.cons.inj (List.append_cancel_left spelled)).2
    exact .cons (List.prefix_refl _) (inductionHypothesis restFits separates.tail restSpelled)

/-- Whatever the pattern accepts in the text gives each gap a start of its value. A line end may be
left over from the last value. -/
theorem prefixes_of_accepts {leading : Text} (separates : Field.Separates isSeparator value fields)
    (accepts : Accepts (leading.map .literal ++
        (Field.pattern placeholder fields ++ trailing.map .literal)) captures
      (leading ++ (Field.text value fields ++ trailing))) :
    List.Forall₂ (· <+: ·) captures (value :: fields.map (·.value)) := by
  obtain ⟨rest, same, accepts⟩ := accepts_literals_append_iff.1 accepts
  obtain rfl := List.append_cancel_left same
  rcases accepts with fits | ⟨body, spelled, fits⟩
  · exact fits.prefixes separates (List.append_nil _)
  · exact fits.prefixes separates spelled.symm

/-- The values between the separators are what the pattern captures. -/
theorem isGreedy_separated {leading : Text} (separates : Field.Separates isSeparator value fields)
    (valueNotEmpty : value ≠ []) (fieldsNotEmpty : ∀ field ∈ fields, field.value ≠ []) :
    IsGreedy (leading.map .literal ++ (Field.pattern placeholder fields ++ trailing.map .literal))
      (value :: fields.map (·.value)) (leading ++ (Field.text value fields ++ trailing)) where
  accepts := accepts_literals_append_iff.2
    ⟨_, rfl, .inl (fits_separated valueNotEmpty fieldsNotEmpty)⟩
  longest := by
    intro before capture after other others spelled accepts
    have prefixes := prefixes_of_accepts separates accepts
    have fromPlace := List.forall₂_drop before.length prefixes
    rw [spelled, List.drop_left, List.drop_left] at fromPlace
    cases fromPlace with
    | cons isPrefix _ => exact isPrefix.length_le

end Pattern

namespace Signature

/-- Where a text is accepted as a signature whose arguments are gaps with one character between
neighbours, and any literal text around them, values in which none of these characters occurs are put
into the pattern and read back: each gap has its value, under its name. -/
theorem values?_of_separated (invocation argumentPattern leading value trailing : Text)
    (placeholder : Placeholder) (fields : List Field) (signature : Signature)
    (accepted : Signature.ofText invocation = .ok signature)
    (takes : (TypedCommand.ofText invocation).arguments = some argumentPattern)
    (laidOut : Pattern.ofText argumentPattern = leading.map .literal ++
      (Field.pattern placeholder fields ++ trailing.map .literal))
    (valueNotEmpty : value ≠ []) (fieldsNotEmpty : ∀ field ∈ fields, field.value ≠ [])
    (unseparated : ∀ field ∈ fields, field.separator ∉ value ∧
      ∀ other ∈ fields, field.separator ∉ other.value) :
    signature.values? (leading ++ (Field.text value fields ++ trailing)) =
      some ((placeholder.name, value) ::
        fields.map fun field => (field.placeholder.name, field.value)) := by
  have takesPattern : signature.command.pattern? = some (leading.map .literal ++
      (Field.pattern placeholder fields ++ trailing.map .literal)) := by
    rw [← ofText_eq_ok_iff.1 accepted, TypedCommand.pattern?, takes, Option.map_some, laidOut]
  refine (values?_eq_some_iff takesPattern).2 ⟨?_, ?_⟩
  · rw [groups_eq takesPattern, Pattern.placeholders_append, Pattern.placeholders_append,
      Pattern.placeholders_field_pattern]
    simp
  · rw [List.map_cons, List.map_map]
    exact Pattern.isGreedy_separated (Field.separates_of_notMem unseparated) valueNotEmpty
      fieldsNotEmpty

/-- A separator in the text around the gaps, a format, and line ends in the values, the last one where
it could be left over. -/
theorem values?_of_lines_between_dashes :
    let argumentPattern : Text := "-{a}-{b:path}/{c}"
    let fields : List Field := [⟨'-', ⟨"b", some "path"⟩, "x\ny"⟩, ⟨'/', ⟨"c", none⟩, "\n\n"⟩]
    let values : GroupValues := [("a", ".*"), ("b", "x\ny"), ("c", "\n\n")]
    ∃ signature, Signature.ofText ("mv " ++ argumentPattern) = .ok signature ∧
      (TypedCommand.ofText ("mv " ++ argumentPattern)).arguments = some argumentPattern ∧
      Pattern.ofText argumentPattern = List.map Piece.literal (Text.ofString "-") ++
        (Field.pattern ⟨"a", none⟩ fields ++ List.map Piece.literal (Text.ofString "")) ∧
      signature.values? "-.*-x\ny/\n\n" = some values := by
  intro argumentPattern fields values
  have typed : TypedCommand.ofText ("mv " ++ argumentPattern) =
      ⟨"mv", false, some argumentPattern⟩ := by
    decide +kernel
  have takes : (TypedCommand.ofText ("mv " ++ argumentPattern)).arguments =
      some argumentPattern := by
    rw [typed]
  let signature : Signature := ⟨⟨"mv", false, some argumentPattern⟩, by decide +kernel⟩
  have accepted : Signature.ofText ("mv " ++ argumentPattern) = .ok signature :=
    ofText_eq_ok_iff.2 typed
  have laidOut : Pattern.ofText argumentPattern = List.map Piece.literal (Text.ofString "-") ++
      (Field.pattern ⟨"a", none⟩ fields ++ List.map Piece.literal (Text.ofString "")) := by
    decide +kernel
  have read := values?_of_separated _ argumentPattern "-" ".*" "" ⟨"a", none⟩ fields signature
    accepted takes laidOut (by decide) (by decide) (by decide)
  exact ⟨signature, accepted, takes, laidOut, read⟩

end Signature

end VerbExpansion
