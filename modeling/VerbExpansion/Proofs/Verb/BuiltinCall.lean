import VerbExpansion.Proofs.TypedCommand.WellFormed
import VerbExpansion.Proofs.Verb.Definition

/-!
# Calls of builtins as they are written

A call with an argument is written as a text. Read again, the text makes the same call, but for
blanks around the argument; a verb that executes the text makes this call too, and is typed by the
name of the builtin (`ofText_text?`).
-/

namespace VerbExpansion

namespace Builtin

/-- The names of builtins can be typed as they are. -/
theorem isTypable_name (builtin : Builtin) :
    builtin.name ≠ [] ∧ ∀ character ∈ builtin.name,
      Text.isBlank character = false ∧ character ≠ .scalar '!' ∧ character ≠ .scalar ':' := by
  have checked : ∀ builtin ∈ all, builtin.name ≠ [] ∧ ∀ character ∈ builtin.name,
      Text.isBlank character = false ∧ character ≠ .scalar '!' ∧ character ≠ .scalar ':' := by
    decide +kernel
  exact checked builtin (mem_all builtin)

/-- A builtin is a well-formed command without arguments. -/
theorem isWellFormed_name (builtin : Builtin) (bang : Bool) :
    (⟨builtin.name, bang, none⟩ : TypedCommand).IsWellFormed := by
  obtain ⟨_, typable⟩ := isTypable_name builtin
  constructor
  case nameBlankless => exact fun character member => (typable character member).1
  case argumentsNotEmpty => simp
  case argumentsTrimmed => simp
  case noLeadingBang => exact fun _ isFirst => (typable _ (List.mem_of_head? isFirst)).2.1 rfl
  case noTrailingBang => exact fun _ isLast => (typable _ (List.mem_of_getLast? isLast)).2.1 rfl
  case argumentsNamed => exact fun _ _ => rfl

theorem word_ne_nil (builtin : Builtin) (bang : Bool) :
    TypedCommand.word ⟨builtin.name, bang, none⟩ ≠ [] :=
  List.append_ne_nil_of_left_ne_nil (isTypable_name builtin).1 _

/-- The name of a builtin types the builtin. -/
theorem ofText_name (builtin : Builtin) :
    TypedCommand.ofText builtin.name = ⟨builtin.name, false, none⟩ := by
  have bare : TypedCommand.word ⟨builtin.name, false, none⟩ = builtin.name := List.append_nil _
  have noColon : builtin.name.head? ≠ some (.scalar ':') :=
    fun isFirst => ((isTypable_name builtin).2 _ (List.mem_of_head? isFirst)).2.2 rfl
  have read := (isWellFormed_name builtin false).ofText_word_append (word_ne_nil builtin false)
    (by rw [bare]; exact noColon) none
  rw [bare, TypedCommand.tail, List.append_nil] at read
  exact read

end Builtin

namespace BuiltinCall

/-- A command that names a builtin calls it. -/
theorem ofText_of_command {text : Text} {builtin : Builtin} {bang : Bool} {argument : Option Text}
    (typed : TypedCommand.ofText text = ⟨builtin.name, bang, argument⟩) :
    ofText text = .ok ⟨builtin, bang, argument⟩ := by
  rw [ofText, typed, ofCommand, builtinNamed, Builtin.ofName?_name]

/-- A text makes a call when its command names the builtin, with the bang and the argument. -/
theorem ofText_eq_ok_iff {text : Text} {call : BuiltinCall} :
    ofText text = .ok call ↔
      TypedCommand.ofText text = ⟨call.builtin.name, call.bang, call.argument⟩ := by
  constructor
  · intro made
    unfold ofText ofCommand builtinNamed at made
    cases found : Builtin.ofName? (TypedCommand.ofText text).name with
    | none =>
      rw [found] at made
      cases made
    | some builtin =>
      rw [found] at made
      cases made
      rw [Builtin.name_eq_of_ofName? found]
  · exact ofText_of_command

/-- A text makes no call exactly when no builtin has the name that it types. -/
theorem ofText_eq_error_iff {text : Text} {error : ConfigError} :
    ofText text = .error error ↔
      (∀ builtin : Builtin, builtin.name ≠ (TypedCommand.ofText text).name) ∧
        error = .unknownBuiltin (TypedCommand.ofText text).name := by
  cases found : Builtin.ofName? (TypedCommand.ofText text).name with
  | none =>
    have unknown : ∀ builtin : Builtin, builtin.name ≠ (TypedCommand.ofText text).name := by
      intro builtin named
      rw [← named, Builtin.ofName?_name] at found
      cases found
    simp [ofText, ofCommand, builtinNamed, found, unknown, eq_comm]
  | some builtin =>
    have known := Builtin.name_eq_of_ofName? found
    have made : ofText text = .ok ⟨builtin, (TypedCommand.ofText text).bang,
        (TypedCommand.ofText text).arguments⟩ := by
      rw [ofText_eq_ok_iff, known]
    rw [made]
    constructor
    · intro failed
      cases failed
    · rintro ⟨unknown, -⟩
      exact absurd known (unknown builtin)

/-- The argument of a call is what was typed for it. -/
theorem argument_of_ofText {text : Text} {call : BuiltinCall} (made : ofText text = .ok call) :
    (TypedCommand.ofText text).arguments = call.argument := by
  rw [ofText_eq_ok_iff.1 made]

/-- A call of the builtin with this argument, as it is typed. -/
def written (builtin : Builtin) (bang : Bool) (argument : Text) : Text :=
  .scalar ':' ::
    (TypedCommand.word ⟨builtin.name, bang, none⟩ ++ TypedCommand.tail (some argument))

/-- The call of a builtin with the blanks around its argument taken off. -/
def trimmed (builtin : Builtin) (bang : Bool) (argument : Text) : BuiltinCall :=
  ⟨builtin, bang, Text.unlessEmpty (Text.trim argument)⟩

theorem text?_eq_written (builtin : Builtin) (bang : Bool) (argument : Text) :
    text? ⟨builtin, bang, some argument⟩ = some (written builtin bang argument) := by
  rw [text?, Option.map_some, TypedCommand.text_eq_word_append]
  rfl

/-- A call that is written is read with the blanks around its argument taken off. -/
theorem ofText_written (builtin : Builtin) (bang : Bool) (argument : Text) :
    ofText (written builtin bang argument) = .ok (trimmed builtin bang argument) :=
  ofText_of_command ((builtin.isWellFormed_name bang).ofText_colon_word_append
    (builtin.word_ne_nil bang) (some argument))

/-- An argument is read back exactly when there is something in it and no blank around it. -/
theorem trimmed_eq_iff {builtin : Builtin} {bang : Bool} {argument : Text} :
    trimmed builtin bang argument = ⟨builtin, bang, some argument⟩ ↔
      argument ≠ [] ∧ Text.IsTrimmed argument := by
  have sameArgument : trimmed builtin bang argument = ⟨builtin, bang, some argument⟩ ↔
      argument ∈ Text.unlessEmpty (Text.trim argument) := by
    simp [trimmed]
  rw [sameArgument, Text.mem_unlessEmpty_iff, Text.trim_eq_self_iff]
  constructor
  · rintro ⟨notEmpty, isTrimmed⟩
    rw [Text.trim_eq_self_iff.2 isTrimmed] at notEmpty
    exact ⟨notEmpty, isTrimmed⟩
  · rintro ⟨notEmpty, isTrimmed⟩
    rw [Text.trim_eq_self_iff.2 isTrimmed]
    exact ⟨notEmpty, isTrimmed⟩

/-- No blank of the argument comes before the colon of a written call. -/
theorem exists_trim_written (builtin : Builtin) (bang : Bool) (argument : Text) :
    ∃ rest, Text.trim (written builtin bang argument) = .scalar ':' :: rest := by
  have blankless : ∀ character ∈ .scalar ':' :: TypedCommand.word ⟨builtin.name, bang, none⟩,
      Text.isBlank character = false :=
    List.forall_mem_cons.2 ⟨by decide, (builtin.isWellFormed_name bang).word_blankless⟩
  exact ⟨_, Text.trim_append_of_blankless (List.cons_ne_nil _ _) blankless _⟩

/-- An execution that writes a call is the call. -/
theorem actionOf_trim_written (definition : Definition) (builtin : Builtin) (bang : Bool)
    (argument : Text) :
    Verb.actionOf definition (Text.trim (written builtin bang argument)) =
      .ok (.builtin (trimmed builtin bang argument)) := by
  have made : ofText (Text.trim (written builtin bang argument)) =
      .ok (trimmed builtin bang argument) := by
    rw [ofText, TypedCommand.ofText_trim]
    exact ofText_written builtin bang argument
  obtain ⟨rest, spelled⟩ := exists_trim_written builtin bang argument
  rw [spelled] at made ⊢
  rw [Verb.actionOf, made]

/-- A verb may execute a written call, and need not say how it is typed. -/
theorem exists_ofDefinition_written (definition : Definition) (builtin : Builtin) (bang : Bool)
    (argument : Text) :
    ∃ verb,
      Verb.ofDefinition
        { definition with execution := written builtin bang argument, invocation := none } =
          .ok verb ∧
      verb.name = builtin.name ∧ verb.action = .builtin (trimmed builtin bang argument) := by
  let signature : Signature := ⟨⟨builtin.name, false, none⟩, List.nodup_nil⟩
  have typed : Signature.ofText builtin.name = .ok signature :=
    Signature.ofText_eq_ok_iff.2 builtin.ofText_name
  have executes : Text.trim (written builtin bang argument) ≠ [] := by
    obtain ⟨rest, spelled⟩ := exists_trim_written builtin bang argument
    rw [spelled]
    exact List.cons_ne_nil _ _
  refine ⟨⟨signature, .builtin (trimmed builtin bang argument), definition.key,
    definition.shortcut, definition.description⟩, ?_, rfl, rfl⟩
  exact Verb.ofDefinition_eq_ok_iff.2 ⟨executes, actionOf_trim_written _ builtin bang argument,
    ⟨builtin.name, rfl, typed⟩, builtin.isTypable_name.1, rfl, rfl, rfl⟩

/-- The text of a call with an argument makes that call, with the blanks around the argument taken
off: the same call exactly when there is something in the argument and no blank around it, as in
every call that a text makes. A verb that executes the text makes this call under the name of the
builtin. -/
theorem ofText_text? (builtin : Builtin) (bang : Bool) (argument : Text) :
    (∃ text, text? ⟨builtin, bang, some argument⟩ = some text ∧
      ofText text = .ok ⟨builtin, bang, Text.unlessEmpty (Text.trim argument)⟩ ∧
      (ofText text = .ok ⟨builtin, bang, some argument⟩ ↔
        argument ≠ [] ∧ Text.IsTrimmed argument) ∧
      ∀ definition : Definition, ∃ verb,
        Verb.ofDefinition { definition with execution := text, invocation := none } = .ok verb ∧
        verb.name = builtin.name ∧
        verb.action = .builtin ⟨builtin, bang, Text.unlessEmpty (Text.trim argument)⟩) ∧
    ∀ typed call, ofText typed = .ok call → call.argument ≠ none →
      ∃ text, call.text? = some text ∧ ofText text = .ok call := by
  constructor
  · refine ⟨_, text?_eq_written builtin bang argument, ofText_written builtin bang argument, ?_,
      fun definition => exists_ofDefinition_written definition builtin bang argument⟩
    rw [ofText_written, Except.ok.injEq]
    exact trimmed_eq_iff
  · rintro typed ⟨builtin, bang, argument⟩ made argued
    cases argument with
    | none => exact absurd rfl argued
    | some argument =>
      have wellFormed := TypedCommand.isWellFormed_ofText typed
      have typedArgument := argument_of_ofText made
      have notEmpty := wellFormed.argumentsNotEmpty argument typedArgument
      have isTrimmed := wellFormed.argumentsTrimmed argument typedArgument
      refine ⟨_, text?_eq_written builtin bang argument, ?_⟩
      rw [ofText_written, trimmed_eq_iff.2 ⟨notEmpty, isTrimmed⟩]

/-- A call typed with the bang before the name, and with blanks in its argument. -/
theorem ofText_text?_of_leading_bang :
    let typed : Text := " : !focus  ~/x  y "
    let call : BuiltinCall := ⟨.focus, true, some "~/x  y"⟩
    ofText typed = .ok call ∧ call.argument ≠ none ∧
      ∃ text, call.text? = some text ∧ ofText text = .ok call := by
  intro typed call
  have made : ofText typed = .ok call := ofText_of_command (by decide +kernel)
  have argued : call.argument ≠ none := Option.some_ne_none _
  exact ⟨made, argued, (ofText_text? .focus true " ! :x ").2 typed call made argued⟩

end BuiltinCall

end VerbExpansion
