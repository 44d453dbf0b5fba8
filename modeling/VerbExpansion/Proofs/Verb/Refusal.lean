import Mathlib.Data.List.Forall2
import VerbExpansion.Proofs.Verb.BuiltinCall

/-!
# Definitions that are refused

There are five reasons to refuse a definition, and one comes before the other (`Refused`). A definition
that is not refused defines a verb. Of a list, the first definition that is refused is what is wrong
with the list (`ofDefinition_eq_error_iff_and_listOfDefinitions_eq_iff`).
-/

namespace VerbExpansion.Verb

/-! ## What is wrong with a definition -/

/-- Whether an execution calls a builtin: it starts with a colon. -/
def IsCall (execution : Text) : Prop :=
  execution.head? = some (.scalar ':')

/-- Whether an execution names this builtin. -/
def Names (execution : Text) (builtin : Builtin) : Prop :=
  (TypedCommand.ofText execution).name = builtin.name

/-- How a verb is typed whose execution can be used: as the definition says, and else by the name of
the builtin that is called. -/
inductive IsTyped (definition : Definition) (execution : Text) : (invocation : Text) → Prop where
  | asDefined {invocation : Text} (executes : execution ≠ [])
      (known : IsCall execution → ∃ builtin, Names execution builtin)
      (invoked : definition.invocation = some invocation) : IsTyped definition execution invocation
  | byName {builtin : Builtin} (called : IsCall execution) (known : Names execution builtin)
      (uninvoked : definition.invocation = none) : IsTyped definition execution builtin.name

/-- Why a definition with this execution is refused. -/
inductive Refused (definition : Definition) (execution : Text) : ConfigError → Prop where
  | emptyExecution (nothing : execution = []) : Refused definition execution .emptyExecution
  | unknownBuiltin (called : IsCall execution) (unknown : ∀ builtin, ¬ Names execution builtin) :
      Refused definition execution (.unknownBuiltin (TypedCommand.ofText execution).name)
  | missingInvocation (executes : execution ≠ []) (external : ¬ IsCall execution)
      (uninvoked : definition.invocation = none) :
      Refused definition execution (.missingInvocation execution)
  | repeatedGroup {invocation group : Text} (typed : IsTyped definition execution invocation)
      (repeated : IsFirstRepeated group (TypedCommand.ofText invocation).groups) :
      Refused definition execution (.invalidInvocation (TypedCommand.ofText invocation).text
        ("duplicate group " ++ Text.quoted group))
  | namelessInvocation {invocation : Text} (typed : IsTyped definition execution invocation)
      (distinct : (TypedCommand.ofText invocation).groups.Nodup)
      (nameless : (TypedCommand.ofText invocation).name = []) :
      Refused definition execution (.namelessInvocation invocation)

/-- What is true of the verb that a definition with this execution defines. -/
structure IsDefinedBy (definition : Definition) (execution : Text) (verb : Verb) : Prop where
  named : verb.name ≠ []
  nameBlankless : ∀ character ∈ verb.name, Text.isBlank character = false
  distinct : verb.signature.groups.Nodup
  typed : ∃ invocation, IsTyped definition execution invocation ∧
    verb.signature.command = TypedCommand.ofText invocation
  builtin : IsCall execution →
    ∃ call, BuiltinCall.ofText execution = .ok call ∧ verb.action = .builtin call
  external : ¬ IsCall execution → verb.action =
    .launch ⟨execution, .ofSettings definition.fromShell definition.leaveApplication⟩
  settings : verb.key = definition.key ∧ verb.shortcut = definition.shortcut ∧
    verb.ownDescription = definition.description

/-! ## The parts of a verb -/

variable {definition : Definition} {execution invocation : Text} {action : Action}
  {error : ConfigError}

theorem ne_nil_of_isCall (called : IsCall execution) : execution ≠ [] := by
  rintro rfl
  cases called

theorem actionOf_of_isCall (called : IsCall execution) :
    actionOf definition execution = (BuiltinCall.ofText execution).map Action.builtin := by
  obtain ⟨rest, rfl⟩ := List.head?_eq_some_iff.1 called
  unfold actionOf
  cases BuiltinCall.ofText (.scalar ':' :: rest) <;> rfl

theorem actionOf_of_not_isCall (external : ¬ IsCall execution) :
    actionOf definition execution =
      .ok (.launch ⟨execution, .ofSettings definition.fromShell definition.leaveApplication⟩) := by
  unfold actionOf
  split
  · exact absurd rfl external
  · rfl

/-- A call can be executed when its builtin is known. -/
theorem actionOf_eq_ok_iff_of_isCall (called : IsCall execution) :
    actionOf definition execution = .ok action ↔
      ∃ call, BuiltinCall.ofText execution = .ok call ∧ action = .builtin call := by
  rw [actionOf_of_isCall called]
  cases BuiltinCall.ofText execution with
  | ok call => simp [Except.map, eq_comm]
  | error error => simp [Except.map]

theorem exists_call_of_names {builtin : Builtin} (known : Names execution builtin) :
    ∃ call, BuiltinCall.ofText execution = .ok call ∧ call.builtin = builtin := by
  refine ⟨⟨builtin, (TypedCommand.ofText execution).bang,
    (TypedCommand.ofText execution).arguments⟩, ?_, rfl⟩
  rw [BuiltinCall.ofText_eq_ok_iff, ← known]

theorem names_of_ofText {call : BuiltinCall} (made : BuiltinCall.ofText execution = .ok call) :
    Names execution call.builtin := by
  rw [Names, BuiltinCall.ofText_eq_ok_iff.1 made]

theorem invocationOf_of_eq_some (invoked : definition.invocation = some invocation)
    (execution : Text) (action : Action) :
    invocationOf definition execution action = .ok invocation := by
  simp [invocationOf, invoked]

theorem invocationOf_builtin (uninvoked : definition.invocation = none) (execution : Text)
    (call : BuiltinCall) :
    invocationOf definition execution (.builtin call) = .ok call.builtin.name := by
  simp [invocationOf, uninvoked]

theorem invocationOf_launch (uninvoked : definition.invocation = none) (execution : Text)
    (launch : Launch) :
    invocationOf definition execution (.launch launch) = .error (.missingInvocation execution) := by
  simp [invocationOf, uninvoked]

/-- How a verb is typed is known when its action and its invocation are. -/
theorem isTyped_iff :
    IsTyped definition execution invocation ↔
      execution ≠ [] ∧ ∃ action, actionOf definition execution = .ok action ∧
        invocationOf definition execution action = .ok invocation := by
  constructor
  · intro typed
    cases typed with
    | asDefined executes known invoked =>
      refine ⟨executes, ?_⟩
      by_cases called : IsCall execution
      · obtain ⟨builtin, named⟩ := known called
        obtain ⟨call, made, -⟩ := exists_call_of_names named
        exact ⟨.builtin call, (actionOf_eq_ok_iff_of_isCall called).2 ⟨call, made, rfl⟩,
          invocationOf_of_eq_some invoked execution _⟩
      · exact ⟨_, actionOf_of_not_isCall called, invocationOf_of_eq_some invoked execution _⟩
    | byName called known uninvoked =>
      obtain ⟨call, made, rfl⟩ := exists_call_of_names known
      exact ⟨ne_nil_of_isCall called, .builtin call,
        (actionOf_eq_ok_iff_of_isCall called).2 ⟨call, made, rfl⟩,
        invocationOf_builtin uninvoked execution call⟩
  · rintro ⟨executes, action, acts, invoked⟩
    cases given : definition.invocation with
    | some own =>
      rw [invocationOf_of_eq_some given] at invoked
      cases invoked
      refine .asDefined executes (fun called => ?_) given
      obtain ⟨call, made, -⟩ := (actionOf_eq_ok_iff_of_isCall called).1 acts
      exact ⟨call.builtin, names_of_ofText made⟩
    | none =>
      by_cases called : IsCall execution
      · obtain ⟨call, made, rfl⟩ := (actionOf_eq_ok_iff_of_isCall called).1 acts
        rw [invocationOf_builtin given] at invoked
        cases invoked
        exact .byName called (names_of_ofText made) given
      · rw [actionOf_of_not_isCall called] at acts
        cases acts
        rw [invocationOf_launch given] at invoked
        cases invoked

/-- Only a call of a builtin that is not known cannot be executed. -/
theorem actionOf_eq_error_iff :
    actionOf definition execution = .error error ↔
      IsCall execution ∧ (∀ builtin, ¬ Names execution builtin) ∧
        error = .unknownBuiltin (TypedCommand.ofText execution).name := by
  by_cases called : IsCall execution
  · have failed : actionOf definition execution = .error error ↔
        BuiltinCall.ofText execution = .error error := by
      rw [actionOf_of_isCall called]
      cases BuiltinCall.ofText execution <;> simp [Except.map]
    rw [failed, BuiltinCall.ofText_eq_error_iff]
    simp [called, Names, eq_comm]
  · simp [actionOf_of_not_isCall called, called]

/-- An invocation is missing only where a program is executed. -/
theorem invocationOf_eq_error_iff (acts : actionOf definition execution = .ok action) :
    invocationOf definition execution action = .error error ↔
      ¬ IsCall execution ∧ definition.invocation = none ∧ error = .missingInvocation execution := by
  cases given : definition.invocation with
  | some own => simp [invocationOf_of_eq_some given]
  | none =>
    by_cases called : IsCall execution
    · obtain ⟨call, -, rfl⟩ := (actionOf_eq_ok_iff_of_isCall called).1 acts
      simp [invocationOf_builtin given, called]
    · rw [actionOf_of_not_isCall called] at acts
      cases acts
      simp [invocationOf_launch given, called, eq_comm]

/-! ## One definition -/

/-- A definition fails with the first error of its parts. -/
theorem ofDefinition_eq_error_iff :
    ofDefinition definition = .error error ↔
      Refused definition (Text.trim definition.execution) error := by
  constructor
  · intro failed
    unfold ofDefinition at failed
    dsimp only at failed
    split at failed
    · next nothing =>
      cases failed
      exact .emptyExecution nothing
    · next executes =>
      rcases bind_eq_error_iff.1 failed with noAction | ⟨action, acts, failed⟩
      · obtain ⟨called, unknown, rfl⟩ := actionOf_eq_error_iff.1 noAction
        exact .unknownBuiltin called unknown
      rcases bind_eq_error_iff.1 failed with noInvocation | ⟨invocation, invoked, failed⟩
      · obtain ⟨external, uninvoked, rfl⟩ := (invocationOf_eq_error_iff acts).1 noInvocation
        exact .missingInvocation executes external uninvoked
      have typed := isTyped_iff.2 ⟨executes, action, acts, invoked⟩
      rcases bind_eq_error_iff.1 failed with noSignature | ⟨signature, signed, failed⟩
      · obtain ⟨group, repeated, rfl⟩ := Signature.ofText_eq_error_iff.1 noSignature
        exact .repeatedGroup typed repeated
      have written := Signature.ofText_eq_ok_iff.1 signed
      split at failed
      · next nameless =>
        cases failed
        refine .namelessInvocation typed ?_ ?_
        · exact written ▸ signature.distinct
        · exact written ▸ nameless
      · cases failed
  · intro refused
    unfold ofDefinition
    dsimp only
    cases refused with
    | emptyExecution nothing =>
      rw [if_pos nothing]
      rfl
    | unknownBuiltin called unknown =>
      rw [if_neg (ne_nil_of_isCall called)]
      exact bind_eq_error_iff.2 (.inl (actionOf_eq_error_iff.2 ⟨called, unknown, rfl⟩))
    | missingInvocation executes external uninvoked =>
      have acts : actionOf definition _ = _ := actionOf_of_not_isCall external
      rw [if_neg executes]
      refine bind_eq_error_iff.2 (.inr ⟨_, acts, bind_eq_error_iff.2 (.inl ?_)⟩)
      exact (invocationOf_eq_error_iff acts).2 ⟨external, uninvoked, rfl⟩
    | repeatedGroup typed repeated =>
      obtain ⟨executes, action, acts, invoked⟩ := isTyped_iff.1 typed
      rw [if_neg executes]
      refine bind_eq_error_iff.2 (.inr ⟨action, acts, ?_⟩)
      refine bind_eq_error_iff.2 (.inr ⟨_, invoked, bind_eq_error_iff.2 (.inl ?_)⟩)
      exact Signature.ofText_eq_error_iff.2 ⟨_, repeated, rfl⟩
    | @namelessInvocation invocation typed distinct nameless =>
      obtain ⟨executes, action, acts, invoked⟩ := isTyped_iff.1 typed
      let signature : Signature := ⟨TypedCommand.ofText invocation, distinct⟩
      have signed : Signature.ofText invocation = .ok signature := Signature.ofText_eq_ok_iff.2 rfl
      have unnamed : signature.name = [] := nameless
      rw [if_neg executes]
      refine bind_eq_error_iff.2 (.inr ⟨action, acts, ?_⟩)
      refine bind_eq_error_iff.2 (.inr ⟨invocation, invoked, ?_⟩)
      refine bind_eq_error_iff.2 (.inr ⟨signature, signed, ?_⟩)
      rw [if_pos unnamed]
      rfl

/-- What a definition that is not refused gives. -/
theorem isDefinedBy_of_ofDefinition {verb : Verb} (defined : ofDefinition definition = .ok verb) :
    IsDefinedBy definition (Text.trim definition.execution) verb := by
  obtain ⟨executes, acts, ⟨invocation, invoked, signed⟩, named, settings⟩ :=
    ofDefinition_eq_ok_iff.1 defined
  have written := Signature.ofText_eq_ok_iff.1 signed
  constructor
  case named => exact named
  case nameBlankless =>
    have wellFormed := TypedCommand.isWellFormed_ofText invocation
    rw [written] at wellFormed
    exact wellFormed.nameBlankless
  case distinct => exact verb.signature.distinct
  case typed => exact ⟨invocation, isTyped_iff.2 ⟨executes, _, acts, invoked⟩, written.symm⟩
  case builtin => exact fun called => (actionOf_eq_ok_iff_of_isCall called).1 acts
  case external =>
    intro external
    rw [actionOf_of_not_isCall external] at acts
    exact (Except.ok.inj acts).symm
  case settings => exact settings

/-! ## A list of definitions -/

theorem listOfDefinitions_eq_ok_iff {definitions : List Definition} {verbs : List Verb} :
    listOfDefinitions definitions = .ok verbs ↔
      List.Forall₂ (fun definition verb => ofDefinition definition = .ok verb) definitions verbs := by
  induction definitions generalizing verbs with
  | nil =>
    rw [List.forall₂_nil_left_iff]
    exact ⟨fun defined => (Except.ok.inj defined).symm, fun nothing => nothing ▸ rfl⟩
  | cons definition definitions inductionHypothesis =>
    rw [listOfDefinitions, List.forall₂_cons_left_iff]
    constructor
    · intro defined
      obtain ⟨verb, first, defined⟩ := bind_eq_ok_iff.1 defined
      obtain ⟨others, rest, defined⟩ := bind_eq_ok_iff.1 defined
      cases defined
      exact ⟨verb, others, first, inductionHypothesis.1 rest, rfl⟩
    · rintro ⟨verb, others, first, rest, rfl⟩
      refine bind_eq_ok_iff.2 ⟨verb, first, ?_⟩
      exact bind_eq_ok_iff.2 ⟨others, inductionHypothesis.2 rest, rfl⟩

theorem listOfDefinitions_eq_error_iff {definitions : List Definition} :
    listOfDefinitions definitions = .error error ↔
      ∃ accepted refused rest, definitions = accepted ++ refused :: rest ∧
        (∀ definition ∈ accepted, ∃ verb, ofDefinition definition = .ok verb) ∧
        ofDefinition refused = .error error := by
  induction definitions with
  | nil =>
    constructor
    · intro failed
      cases failed
    · rintro ⟨accepted, refused, rest, spelled, -⟩
      cases accepted <;> cases spelled
  | cons definition definitions inductionHypothesis =>
    rw [listOfDefinitions]
    constructor
    · intro failed
      rcases bind_eq_error_iff.1 failed with refused | ⟨verb, first, failed⟩
      · exact ⟨[], definition, definitions, rfl, by simp, refused⟩
      rcases bind_eq_error_iff.1 failed with later | ⟨verbs, rest, failed⟩
      · obtain ⟨accepted, refused, rest, rfl, others, isRefused⟩ := inductionHypothesis.1 later
        exact ⟨definition :: accepted, refused, rest, rfl,
          List.forall_mem_cons.2 ⟨⟨verb, first⟩, others⟩, isRefused⟩
      · cases failed
    · rintro ⟨accepted, refused, rest, spelled, others, isRefused⟩
      cases accepted with
      | nil =>
        cases spelled
        exact bind_eq_error_iff.2 (.inl isRefused)
      | cons first accepted =>
        cases spelled
        obtain ⟨⟨verb, isFirst⟩, others⟩ := List.forall_mem_cons.1 others
        refine bind_eq_error_iff.2 (.inr ⟨verb, isFirst, bind_eq_error_iff.2 (.inl ?_)⟩)
        exact inductionHypothesis.2 ⟨accepted, refused, rest, rfl, others, isRefused⟩

/-- A definition is refused for one of five reasons, or it defines a verb. Definitions define as many
verbs, in their order, unless one is refused, and then the first one that is gives the error. -/
theorem ofDefinition_eq_error_iff_and_listOfDefinitions_eq_iff :
    (∀ definition,
      (∀ error, ofDefinition definition = .error error ↔
        Refused definition (Text.trim definition.execution) error) ∧
      ((∀ error, ¬ Refused definition (Text.trim definition.execution) error) →
        ∃ verb, ofDefinition definition = .ok verb ∧
          IsDefinedBy definition (Text.trim definition.execution) verb)) ∧
    ∀ definitions,
      ((∃ verbs, listOfDefinitions definitions = .ok verbs) ↔
        ∀ definition ∈ definitions, ∃ verb, ofDefinition definition = .ok verb) ∧
      (∀ verbs, listOfDefinitions definitions = .ok verbs ↔
        List.Forall₂ (fun definition verb => ofDefinition definition = .ok verb)
          definitions verbs) ∧
      ∀ error, listOfDefinitions definitions = .error error ↔
        ∃ accepted refused rest, definitions = accepted ++ refused :: rest ∧
          (∀ definition ∈ accepted, ∃ verb, ofDefinition definition = .ok verb) ∧
          ofDefinition refused = .error error := by
  refine ⟨fun definition => ⟨fun error => ofDefinition_eq_error_iff, fun accepted => ?_⟩,
    fun definitions => ⟨⟨?_, fun accepted => ?_⟩, fun verbs => listOfDefinitions_eq_ok_iff,
      fun error => listOfDefinitions_eq_error_iff⟩⟩
  · cases outcome : ofDefinition definition with
    | ok verb => exact ⟨verb, rfl, isDefinedBy_of_ofDefinition outcome⟩
    | error error => exact absurd (ofDefinition_eq_error_iff.1 outcome) (accepted error)
  · rintro ⟨verbs, defined⟩
    have each := (listOfDefinitions_eq_ok_iff.1 defined).imp fun definition verb isDefined =>
      And.intro (Exists.intro verb isDefined) isDefined
    exact ((List.forall₂_and_left _ _).1 each).1
  · cases outcome : listOfDefinitions definitions with
    | ok verbs => exact ⟨verbs, rfl⟩
    | error error =>
      obtain ⟨before, refused, rest, rfl, -, isRefused⟩ := listOfDefinitions_eq_error_iff.1 outcome
      obtain ⟨verb, isDefined⟩ := accepted refused (by simp)
      rw [isDefined] at isRefused
      cases isRefused

end VerbExpansion.Verb
