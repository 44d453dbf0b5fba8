import VerbExpansion.Proofs.Signature.Reading
import VerbExpansion.Proofs.Steps
import VerbExpansion.Verb.Basic

/-!
# Verbs as they are defined

What the parts of a verb come from, when its definition can be used: what it does is written in the
execution, and how it is typed in the invocation, or in the name of the builtin
(`ofDefinition_eq_ok_iff`).
-/

namespace VerbExpansion.Verb

/-- The verb that a definition defines, part by part. -/
theorem ofDefinition_eq_ok_iff {definition : Definition} {verb : Verb} :
    ofDefinition definition = .ok verb ↔
      Text.trim definition.execution ≠ [] ∧
      actionOf definition (Text.trim definition.execution) = .ok verb.action ∧
      (∃ invocation,
        invocationOf definition (Text.trim definition.execution) verb.action = .ok invocation ∧
        Signature.ofText invocation = .ok verb.signature) ∧
      verb.name ≠ [] ∧
      verb.key = definition.key ∧ verb.shortcut = definition.shortcut ∧
      verb.ownDescription = definition.description := by
  constructor
  · intro defined
    unfold ofDefinition at defined
    dsimp only at defined
    split at defined
    · cases defined
    · next executes =>
      obtain ⟨action, acts, defined⟩ := bind_eq_ok_iff.1 defined
      obtain ⟨invocation, invoked, defined⟩ := bind_eq_ok_iff.1 defined
      obtain ⟨signature, signed, defined⟩ := bind_eq_ok_iff.1 defined
      split at defined
      · cases defined
      · next named =>
        cases defined
        exact ⟨executes, acts, ⟨invocation, invoked, signed⟩, named, rfl, rfl, rfl⟩
  · rintro ⟨executes, acts, ⟨invocation, invoked, signed⟩, named, sameKey, sameShortcut,
      sameDescription⟩
    have signatureNamed : verb.signature.name ≠ [] := named
    unfold ofDefinition
    dsimp only
    rw [if_neg executes]
    refine bind_eq_ok_iff.2 ⟨verb.action, acts, ?_⟩
    refine bind_eq_ok_iff.2 ⟨invocation, invoked, ?_⟩
    refine bind_eq_ok_iff.2 ⟨verb.signature, signed, ?_⟩
    rw [if_neg signatureNamed, ← sameKey, ← sameShortcut, ← sameDescription]
    rfl

end VerbExpansion.Verb
