import VerbExpansion.CommandLine.Run
import VerbExpansion.Proofs.Configuration.Reading
import VerbExpansion.Proofs.Json.Written
import VerbExpansion.Proofs.Signature.Values

/-!
# Lists of arguments as they are printed

An expansion that is asked for a list of arguments prints one line. The line is a document, and whoever
reads it as one gets the arguments, whatever characters they hold (`isArgumentLine_of_givesArguments`).
-/

namespace VerbExpansion.CommandLine

/-! ## Printed lists -/

/-- What is printed is one line, which is read as these arguments: by itself, and out of the bytes of a
file when it can be encoded. -/
structure IsArgumentLine (output : Text) (arguments : List Text) : Prop where
  oneLine : output.count (.scalar '\n') = 1
  ended : output.getLast? = some (.scalar '\n')
  read : Json.Value.ofText output = .ok (.array (arguments.map .text))
  readFromFile : ∀ string : String, Text.ofString string = output → ∀ path,
    Configuration.document path string.toUTF8 = .ok (.array (arguments.map .text))

theorem isArgumentLine_writtenList (arguments : List Text) :
    IsArgumentLine (Json.writtenList arguments ++ "\n") arguments := by
  have read := Json.Value.ofText_writtenList arguments
  have noLineEnd : .scalar '\n' ∉ Json.writtenList arguments :=
    fun member => absurd (Json.notControl_of_mem_writtenList _ member) (by decide)
  constructor
  case oneLine =>
    rw [List.count_append, List.count_eq_zero_of_not_mem noLineEnd]
    rfl
  case ended => exact List.getLast?_concat ..
  case read => exact read
  case readFromFile =>
    rintro string spelled path
    exact Configuration.document_toUTF8 (spelled ▸ read) path

/-! ## Expansions -/

variable {world : World} {request : ExpandRequest} {context : Context}

/-- The arguments that a request gives: those of its pattern in the context that it describes. -/
structure GivesArguments (world : World) (request : ExpandRequest) (context : Context)
    (arguments : List Text) : Prop where
  described : ∃ signature selection, signatureOf request = .ok signature ∧
    matchable signature request = true ∧ selectionOf world request = .ok selection ∧
    contextOf request signature selection = context
  filled : (fillingOf world.toSurroundings request context .plain).arguments request.pattern =
    .ok arguments

/-- A request gives no two lists of arguments. -/
theorem GivesArguments.unique {otherContext : Context} {arguments others : List Text}
    (gives : GivesArguments world request context arguments)
    (givesOthers : GivesArguments world request otherContext others) : arguments = others := by
  obtain ⟨⟨signature, selection, accepted, -, selected, rfl⟩, filled⟩ := gives
  obtain ⟨⟨_, _, acceptedAlso, -, selectedAlso, rfl⟩, filledAlso⟩ := givesOthers
  cases accepted.symm.trans acceptedAlso
  cases selected.symm.trans selectedAlso
  cases filled.symm.trans filledAlso
  rfl

/-- Where no separator took a value away, placeholders are filled as the context says. -/
theorem fillingOf_eq_filling? (lineKept : request.line ≠ .void) (otherKept : request.other ≠ .void)
    (surroundings : Surroundings) (style : PathStyle) :
    fillingOf surroundings request context style = context.filling? surroundings style := by
  funext placeholder
  unfold fillingOf
  split
  · next noLine => exact absurd noLine lineKept
  · next noOther => exact absurd noOther otherKept
  · next noOther => exact absurd noOther otherKept
  · rfl

theorem expansionOutput_eq_ok_iff (wanted : request.asArguments = true) {output : Text}
    {notices : List Notice} :
    expansionOutput world context request = .ok (output, notices) ↔
      ∃ arguments,
        (fillingOf world.toSurroundings request context .plain).arguments request.pattern =
          .ok arguments ∧
        output = Json.writtenList arguments ++ "\n" ∧
        notices = context.argumentsNotices request.pattern := by
  rw [expansionOutput, if_pos wanted]
  refine bind_eq_ok_iff.trans (exists_congr fun arguments => and_congr_right fun _ => ?_)
  constructor
  · rintro ⟨⟩
    exact ⟨rfl, rfl⟩
  · rintro ⟨rfl, rfl⟩
    rfl

/-- The written list of arguments is printed when all of them can be encoded. -/
theorem printing_writtenList_eq_ok_iff {arguments : List Text} {notices : List Notice}
    {report : Report} :
    Report.printing [Json.writtenList arguments ++ "\n"] notices = .ok report ↔
      (∀ argument ∈ arguments, argument.isEncodable = true) ∧
        report = .success (Json.writtenList arguments ++ "\n") notices := by
  rw [Report.printing_eq_ok_iff, List.forall_mem_singleton, List.flatten_singleton,
    Text.isEncodable_append, Text.isEncodable_ofString, Bool.and_true, Json.isEncodable_writtenList_iff]

/-- An expansion succeeds just when its request gives arguments that can be encoded, and what it prints
is the written list of them. -/
theorem exists_expand_eq_ok_iff (wanted : request.asArguments = true) {output : Text} :
    (∃ report, expand world request = .ok report ∧ report.exitCode = 0 ∧ report.output = output) ↔
      ∃ context arguments, GivesArguments world request context arguments ∧
        (∀ argument ∈ arguments, argument.isEncodable = true) ∧
        output = Json.writtenList arguments ++ "\n" := by
  constructor
  · rintro ⟨report, expanded, succeeded, rfl⟩
    unfold expand at expanded
    cases accepted : signatureOf request with
    | error error =>
      rw [accepted] at expanded
      cases expanded
      cases succeeded
    | ok signature =>
      simp only [accepted] at expanded
      split at expanded
      · cases expanded
      · next matched =>
        obtain ⟨selection, selected, expanded⟩ := bind_eq_ok_iff.1 expanded
        obtain ⟨⟨output, notices⟩, expanded, printed⟩ := bind_eq_ok_iff.1 expanded
        obtain ⟨arguments, filled, rfl, -⟩ := (expansionOutput_eq_ok_iff wanted).1 expanded
        obtain ⟨encodable, rfl⟩ := printing_writtenList_eq_ok_iff.1 printed
        exact ⟨_, arguments,
          ⟨⟨signature, selection, accepted, by simpa using matched, selected, rfl⟩, filled⟩,
          encodable, rfl⟩
  · rintro ⟨_, arguments, ⟨⟨signature, selection, accepted, matched, selected, rfl⟩, filled⟩,
      encodable, rfl⟩
    have expanded := (expansionOutput_eq_ok_iff wanted).2 ⟨arguments, filled, rfl, rfl⟩
    let context := contextOf request signature selection
    let notices := Report.told request.debug (signatureNotices request ++
      typedNotices signature request ++ context.argumentsNotices request.pattern)
    refine ⟨.success (Json.writtenList arguments ++ "\n") notices, ?_, rfl, rfl⟩
    simp only [expand, accepted, matched]
    exact bind_eq_ok_iff.2 ⟨selection, selected, bind_eq_ok_iff.2
      ⟨_, expanded, printing_writtenList_eq_ok_iff.2 ⟨encodable, rfl⟩⟩⟩

end VerbExpansion.CommandLine
