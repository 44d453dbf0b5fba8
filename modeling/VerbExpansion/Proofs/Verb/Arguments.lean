import VerbExpansion.Proofs.Expansion.Lookups
import VerbExpansion.Proofs.Signature.Complaint
import VerbExpansion.Proofs.Verb.Definition

/-!
# What becomes of typed arguments

A verb that complains about nothing uses all of the arguments that were typed: they have values,
which put back into the pattern of the signature give the arguments again, and every placeholder of
an execution that asks for a group is filled with the value of the group
(`arguments_used_of_complaint?_eq_none`).
-/

namespace VerbExpansion

/-- A pattern that accepts nothing but what is not there is empty. -/
theorem Pattern.Accepts.eq_nil {pattern : Pattern} {captures : List Text}
    (accepts : pattern.Accepts captures []) : pattern = [] := by
  cases pattern with
  | nil => rfl
  | cons piece pattern =>
    cases piece with
    | literal character =>
      obtain ⟨_, ⟨⟩, _⟩ := accepts_literal_iff.1 accepts
    | gap placeholder =>
      obtain ⟨_, _, _, _, nothing, notEmpty, _⟩ := accepts_gap_iff.1 accepts
      exact absurd (List.append_eq_nil_iff.1 nothing.symm).1 notEmpty

namespace Context

variable {surroundings : Surroundings} {context : Context} {placeholder : Placeholder}

/-- The placeholder is filled with a text, unless it asks for a directory that is denied. -/
def Fills (surroundings : Surroundings) (context : Context) (style : PathStyle)
    (placeholder : Placeholder) : Prop :=
  (∃ text, filling? surroundings context style placeholder = .ok (some text)) ∨
    (placeholder.pathBase? = some .directory ∧
      surroundings.disk.closestDirectory context.selection.path = .error .accessDenied ∧
      filling? surroundings context style placeholder = .error .accessDenied)

/-- A placeholder whose name has a typed value is filled. -/
theorem fills_of_value? (free : placeholder.contextName? = none) {value : Text}
    (typed : context.value? placeholder.name = some value) (style : PathStyle) :
    Fills surroundings context style placeholder := by
  by_cases denied : placeholder.pathBase? = some .directory ∧
      surroundings.disk.closestDirectory context.selection.path = .error .accessDenied
  · refine .inr ⟨denied.1, denied.2, ?_⟩
    simp only [filling?, free, typed, formatted_eq_accessDenied denied.1 denied.2]
    rfl
  · have undenied : ∀ path, context.lookedUp? placeholder = some path →
        surroundings.disk.closestDirectory path ≠ .error .accessDenied := by
      intro path lookedUp isDenied
      simp only [lookedUp?, free] at lookedUp
      split at lookedUp
      · next asks =>
        cases lookedUp
        exact denied ⟨asks.2, isDenied⟩
      · cases lookedUp
    obtain ⟨text, formatted⟩ := exists_formatted free typed undenied
    refine .inl ⟨text, ?_⟩
    simp only [filling?, free, typed, formatted]
    rfl

/-- In the context in which a verb was typed, the value of a group is what was typed for it. -/
theorem exists_value?_ofTyped {signature : Signature} {arguments group : Text}
    {values : GroupValues} (matched : signature.values? arguments = some values)
    (named : values.map Prod.fst = signature.groups) (isGroup : group ∈ signature.groups)
    (selection : Selection) (other : Option Path) :
    ∃ value, (ofTyped (some signature) selection other (some arguments)).value? group =
      some value := by
  have distinct : (values.map Prod.fst).Nodup := named ▸ signature.distinct
  rw [← named, List.mem_map] at isGroup
  obtain ⟨⟨_, value⟩, member, rfl⟩ := isGroup
  refine ⟨value, ?_⟩
  rw [value?, ofTyped, matched]
  exact Signature.lookup_of_mem distinct member

end Context

namespace Verb

/-- The command of a verb that starts a program is the command of the launch, in the context in which
the verb was typed. -/
theorem expand_of_launch {verb : Verb} {launch : Launch} (external : verb.action = .launch launch)
    (surroundings : Surroundings) (selection : Selection) (other : Option Path)
    (arguments : Option Text) :
    verb.expand surroundings selection other arguments =
      (launch.command surroundings
        (Context.ofTyped (some verb.signature) selection other arguments)).mapError
          .interrupted := by
  rw [expand, external]
  dsimp only
  split
  · next made => rw [made, Except.mapError]
  · next interrupted => rw [interrupted, Except.mapError]

/-- A verb has the signature that some text writes. -/
theorem exists_ofText_eq_command {definition : Definition} {verb : Verb}
    (defined : ofDefinition definition = .ok verb) :
    ∃ invocation, TypedCommand.ofText invocation = verb.signature.command := by
  obtain ⟨_, _, ⟨invocation, _, accepted⟩, _⟩ := ofDefinition_eq_ok_iff.1 defined
  exact ⟨invocation, Signature.ofText_eq_ok_iff.1 accepted⟩

/-- The pattern of a verb that takes arguments is not empty. -/
theorem pattern_ne_nil {definition : Definition} {verb : Verb} {pattern : Pattern}
    (defined : ofDefinition definition = .ok verb)
    (takes : verb.signature.command.pattern? = some pattern) : pattern ≠ [] := by
  obtain ⟨invocation, written⟩ := exists_ofText_eq_command defined
  obtain ⟨arguments, typed, rfl⟩ := Option.map_eq_some_iff.1 takes
  have notEmpty := (TypedCommand.isWellFormed_ofText invocation).argumentsNotEmpty arguments
    (written ▸ typed)
  intro nothing
  rw [← Pattern.source_ofText arguments, nothing] at notEmpty
  exact notEmpty rfl

/-- Without a complaint of a verb that takes arguments, arguments were typed that have values. -/
theorem exists_values?_of_complaint? {definition : Definition} {verb : Verb} {pattern : Pattern}
    (defined : ofDefinition definition = .ok verb)
    (takes : verb.signature.command.pattern? = some pattern) {typed : TypedCommand}
    (uncomplaining : verb.signature.complaint? typed = none) :
    ∃ arguments values, typed.arguments = some arguments ∧
      verb.signature.values? arguments = some values := by
  have hasValues := (Signature.complaint?_eq_none_iff_of_pattern takes).1 uncomplaining
  cases given : typed.arguments with
  | none =>
    rw [given, Option.getD_none, Signature.isSome_values?_iff takes] at hasValues
    obtain ⟨captures, accepts⟩ := hasValues
    exact absurd accepts.eq_nil (pattern_ne_nil defined takes)
  | some arguments =>
    rw [given, Option.getD_some, Option.isSome_iff_exists] at hasValues
    obtain ⟨values, matched⟩ := hasValues
    exact ⟨arguments, values, rfl, matched⟩

/-- The arguments of a typed command of which a verb does not complain are used as a whole: either
there are none and the verb takes none, or they have values, one for each group, which put back into
the pattern of the verb give the arguments, and which fill every placeholder of an execution that
asks for a group. Arguments of which the verb complains have no values. -/
theorem arguments_used_of_complaint?_eq_none (definition : Definition) (verb : Verb)
    (launch : Launch) (defined : ofDefinition definition = .ok verb)
    (external : verb.action = .launch launch) (text : Text) :
    let typed := TypedCommand.ofText text
    (verb.signature.complaint? typed = none →
      (verb.signature.takesArguments = false ∧ typed.arguments = none) ∨
      ∃ pattern arguments values,
        verb.signature.command.pattern? = some pattern ∧ typed.arguments = some arguments ∧
        verb.signature.values? arguments = some values ∧
        values.map Prod.fst = verb.signature.groups ∧
        Signature.restored values pattern = arguments ∧
        ∀ surroundings selection other,
          let context := Context.ofTyped (some verb.signature) selection other (some arguments)
          verb.expand surroundings selection other typed.arguments =
            (launch.command surroundings context).mapError .interrupted ∧
          ∀ style placeholder, placeholder.name ∈ verb.signature.groups →
            placeholder.contextName? = none →
            Context.Fills surroundings context style placeholder) ∧
    (verb.signature.takesArguments = true → verb.signature.complaint? typed ≠ none →
      ∀ arguments, typed.arguments = some arguments →
        verb.signature.values? arguments = none) := by
  intro typed
  have wellFormed : typed.IsWellFormed := TypedCommand.isWellFormed_ofText text
  cases takes : verb.signature.command.pattern? with
  | none =>
    have takesNone := Signature.takesArguments_eq_false_of_no_pattern takes
    constructor
    · intro uncomplaining
      exact .inl ⟨takesNone, (Signature.complaint?_eq_none_iff_of_no_pattern takes).1 uncomplaining⟩
    · intro takesSome
      rw [takesNone] at takesSome
      cases takesSome
  | some pattern =>
    constructor
    · intro uncomplaining
      obtain ⟨arguments, values, given, matched⟩ :=
        exists_values?_of_complaint? defined takes uncomplaining
      obtain ⟨named, restored⟩ := Signature.restored_of_isTrimmed takes
        (wellFormed.argumentsTrimmed arguments given) matched
      refine .inr ⟨pattern, arguments, values, rfl, given, matched, named, restored,
        fun surroundings selection other => ⟨?_, ?_⟩⟩
      · rw [given]
        exact expand_of_launch external surroundings selection other (some arguments)
      · intro style placeholder isGroup free
        obtain ⟨value, valued⟩ :=
          Context.exists_value?_ofTyped matched named isGroup selection other
        exact Context.fills_of_value? free valued style
    · intro _ complains arguments given
      rw [Ne, Signature.complaint?_eq_none_iff_of_pattern takes, given, Option.getD_some,
        Option.not_isSome_iff_eq_none] at complains
      exact complains

/-- Arguments with two spaces where the pattern has one, and arguments that do not match. -/
theorem arguments_used_of_two_spaces :
    let definition : Definition :=
      { invocation := some ":mv {a} {b:x}", execution := " mv {file} {a:path-from-directory}" }
    let launch : Launch := { pattern := "mv {file} {a:path-from-directory}" }
    let verb : Verb :=
      ⟨⟨⟨"mv", false, some "{a} {b:x}"⟩, by decide +kernel⟩, .launch launch, none, none, none⟩
    let typed := TypedCommand.ofText " mv!  x  y\n"
    let refused := TypedCommand.ofText "mv x"
    let placeholder : Placeholder := ⟨"a", some "path-from-directory"⟩
    ofDefinition definition = .ok verb ∧ verb.action = .launch launch ∧
      verb.signature.complaint? typed = none ∧
      placeholder.name ∈ verb.signature.groups ∧ placeholder.contextName? = none ∧
      verb.signature.takesArguments = true ∧ verb.signature.complaint? refused ≠ none ∧
      refused.arguments = some "x" ∧ verb.signature.values? "x" = none ∧
      ∃ pattern arguments values,
        typed.arguments = some arguments ∧ verb.signature.values? arguments = some values ∧
        Signature.restored values pattern = arguments ∧
        ∀ surroundings selection other style,
          Context.Fills surroundings
            (Context.ofTyped (some verb.signature) selection other (some arguments)) style
            placeholder := by
  intro definition launch verb typed refused placeholder
  have executes : Text.trim definition.execution = launch.pattern := by decide +kernel
  have defined : ofDefinition definition = .ok verb := by
    refine ofDefinition_eq_ok_iff.2 ⟨?_, ?_, ⟨":mv {a} {b:x}", rfl, ?_⟩, ?_, rfl, rfl, rfl⟩
    · rw [executes]
      exact List.cons_ne_nil _ _
    · rw [executes]
      rfl
    · exact Signature.ofText_eq_ok_iff.2 (by decide +kernel)
    · exact List.cons_ne_nil _ _
  have uncomplaining : verb.signature.complaint? typed = none := by decide +kernel
  have complains : verb.signature.complaint? refused ≠ none := by decide +kernel
  have refusedArguments : refused.arguments = some "x" := by decide +kernel
  have isGroup : placeholder.name ∈ verb.signature.groups := by decide +kernel
  have free : placeholder.contextName? = none := by decide +kernel
  have used := arguments_used_of_complaint?_eq_none definition verb launch defined rfl
  refine ⟨defined, rfl, uncomplaining, isGroup, free, rfl, complains, refusedArguments,
    (used "mv x").2 rfl complains _ refusedArguments, ?_⟩
  rcases (used " mv!  x  y\n").1 uncomplaining with ⟨takesNone, _⟩ |
    ⟨pattern, arguments, values, _, given, matched, _, restored, filled⟩
  · cases takesNone
  · exact ⟨pattern, arguments, values, given, matched, restored,
      fun surroundings selection other style =>
        (filled surroundings selection other).2 style placeholder isGroup free⟩

end Verb

end VerbExpansion
