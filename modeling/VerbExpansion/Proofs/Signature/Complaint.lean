import VerbExpansion.Proofs.Signature.Values
import VerbExpansion.Proofs.TypedCommand.ReadBack

/-!
# Complaints about typed arguments

There is no complaint about typed arguments that have values. Where arguments are expected, a complaint
tells how the verb is used, and it can be typed itself: it is read as a command with the pattern of the
signature for its arguments, and every pattern accepts its own text
(`complaint?_ofText_of_complaint?`).
-/

namespace VerbExpansion

/-- A pattern accepts its own text, in which every gap holds its placeholder. -/
theorem Pattern.accepts_self (text : Text) :
    (ofText text).Accepts ((ofText text).placeholders.map Placeholder.source) text := by
  have fits := fits_filled Placeholder.source_ne_nil (ofText text)
  have filledSource : (ofText text).filled Placeholder.source = text := source_ofText text
  rw [filledSource] at fits
  exact .inl fits

namespace Signature

variable {signature : Signature} {typed : TypedCommand}

theorem takesArguments_eq_false_of_no_pattern (takesNone : signature.command.pattern? = none) :
    signature.takesArguments = false := by
  rw [takesArguments, Option.isSome_eq_false_iff, Option.isNone_iff_eq_none]
  exact Option.map_eq_none_iff.1 takesNone

theorem complaint?_eq_none_iff_of_no_pattern (takesNone : signature.command.pattern? = none) :
    signature.complaint? typed = none ↔ typed.arguments = none := by
  rw [complaint?, takesNone]
  cases typed.arguments <;> simp

/-- There is no complaint about arguments that have values; where none were typed, the pattern is
matched with nothing. -/
theorem complaint?_eq_none_iff_of_pattern {pattern : Pattern}
    (takes : signature.command.pattern? = some pattern) :
    signature.complaint? typed = none ↔
      (signature.values? (typed.arguments.getD [])).isSome := by
  rw [complaint?, takes, values?_eq takes, Option.isSome_map]
  cases captured : pattern.capture? (typed.arguments.getD []) <;> simp [captured]

/-- A complaint about arguments that are expected tells how the verb is used, under the name that was
typed. -/
theorem eq_textAs_of_complaint? {pattern : Pattern} {usage : Text}
    (takes : signature.command.pattern? = some pattern)
    (complains : signature.complaint? typed = some usage) :
    usage = signature.command.textAs typed.name := by
  rw [complaint?, takes] at complains
  dsimp only at complains
  split at complains
  · cases complains
  · exact (Option.some.inj complains).symm

/-- A verb that takes arguments complains exactly of those that its pattern does not accept. Under a name
that is a word and does not start with a colon, its complaint can be typed: it is read as a command with
the pattern for its arguments, and of this command the verb does not complain. -/
theorem complaint?_ofText_of_complaint? (invocation argumentPattern : Text) (signature : Signature)
    (accepted : Signature.ofText invocation = .ok signature)
    (takes : (TypedCommand.ofText invocation).arguments = some argumentPattern)
    (typed : TypedCommand) (named : typed.name ≠ [])
    (blankless : ∀ character ∈ typed.name, Text.isBlank character = false)
    (noColon : typed.name.head? ≠ some (.scalar ':')) :
    (signature.complaint? typed = none ↔
      ∃ captures, (Pattern.ofText argumentPattern).Accepts captures (typed.arguments.getD [])) ∧
    ∀ usage, signature.complaint? typed = some usage →
      (TypedCommand.ofText usage).arguments = some argumentPattern ∧
      signature.complaint? (TypedCommand.ofText usage) = none := by
  have written := ofText_eq_ok_iff.1 accepted
  have takesPattern : signature.command.pattern? = some (Pattern.ofText argumentPattern) := by
    rw [← written, TypedCommand.pattern?, takes, Option.map_some]
  have uncomplaining : ∀ {other : TypedCommand}, signature.complaint? other = none ↔
      ∃ captures, (Pattern.ofText argumentPattern).Accepts captures (other.arguments.getD []) := by
    intro other
    rw [complaint?_eq_none_iff_of_pattern takesPattern, isSome_values?_iff takesPattern]
  refine ⟨uncomplaining, fun usage complains => ?_⟩
  have wellFormed : signature.command.IsWellFormed :=
    written ▸ TypedCommand.isWellFormed_ofText invocation
  have readBack : (TypedCommand.ofText usage).arguments = some argumentPattern := by
    rw [eq_textAs_of_complaint? takesPattern complains,
      TypedCommand.arguments_ofText_textAs wellFormed named blankless noColon, ← written, takes]
  refine ⟨readBack, uncomplaining.2 ?_⟩
  rw [readBack, Option.getD_some]
  exact ⟨_, Pattern.accepts_self argumentPattern⟩

/-- A name with bangs at both ends, typed for a signature with a bang of its own whose literals hold
blanks and marks of regular expressions. -/
theorem complaint?_ofText_of_bangs_around_name :
    let argumentPattern : Text := "{a}.  {b:path}(*{c}"
    let typed : TypedCommand := ⟨"!ren!", false, some "x"⟩
    let usage : Text := "!ren!! {a}.  {b:path}(*{c}"
    ∃ signature, Signature.ofText (":mv! " ++ argumentPattern) = .ok signature ∧
      (TypedCommand.ofText (":mv! " ++ argumentPattern)).arguments = some argumentPattern ∧
      typed.name ≠ [] ∧ (∀ character ∈ typed.name, Text.isBlank character = false) ∧
      typed.name.head? ≠ some (.scalar ':') ∧ signature.complaint? typed = some usage ∧
      (TypedCommand.ofText usage).arguments = some argumentPattern ∧
      signature.complaint? (TypedCommand.ofText usage) = none := by
  intro argumentPattern typed usage
  have read : TypedCommand.ofText (":mv! " ++ argumentPattern) =
      ⟨"mv", true, some argumentPattern⟩ := by
    decide +kernel
  have takes : (TypedCommand.ofText (":mv! " ++ argumentPattern)).arguments =
      some argumentPattern := by
    rw [read]
  let signature : Signature := ⟨⟨"mv", true, some argumentPattern⟩, by decide +kernel⟩
  have accepted : Signature.ofText (":mv! " ++ argumentPattern) = .ok signature :=
    ofText_eq_ok_iff.2 read
  have named : typed.name ≠ [] := by decide
  have blankless : ∀ character ∈ typed.name, Text.isBlank character = false := by decide
  have noColon : typed.name.head? ≠ some (.scalar ':') := by decide
  have complains : signature.complaint? typed = some usage := by decide +kernel
  have told := complaint?_ofText_of_complaint? _ argumentPattern signature accepted takes typed
    named blankless noColon
  exact ⟨signature, accepted, takes, named, blankless, noColon, complains, told.2 usage complains⟩

end Signature

end VerbExpansion
