import VerbExpansion.Signature

/-!
# Signatures as they are read

A text is a signature when no two groups in it have the same name, and then the signature is the
command that the text types (`ofText_eq_ok_iff`). Otherwise the first group whose name was there before
is what is wrong with it (`ofText_eq_error_iff`).
-/

namespace VerbExpansion

/-- Where all are different and none was seen before, nothing is repeated. -/
theorem firstRepeated?_eq_none {seen texts : List Text} (distinct : texts.Nodup)
    (unseen : ∀ text ∈ texts, text ∉ seen) : firstRepeated? seen texts = none := by
  induction texts generalizing seen with
  | nil => rfl
  | cons text rest inductionHypothesis =>
    obtain ⟨notInRest, restDistinct⟩ := List.nodup_cons.1 distinct
    rw [firstRepeated?, if_neg (unseen text List.mem_cons_self)]
    refine inductionHypothesis restDistinct fun other member => ?_
    rw [List.mem_cons, not_or]
    refine ⟨?_, unseen other (List.mem_cons_of_mem _ member)⟩
    rintro rfl
    exact notInRest member

/-- The text stands behind an equal one, and none before it does. -/
def IsFirstRepeated (text : Text) (texts : List Text) : Prop :=
  ∃ before after, texts = before ++ text :: after ∧ before.Nodup ∧ text ∈ before

/-- What is repeated first was seen before, or stands behind an equal text. -/
theorem exists_of_firstRepeated? {seen texts : List Text} {text : Text}
    (repeated : firstRepeated? seen texts = some text) :
    ∃ before after, texts = before ++ text :: after ∧ before.Nodup ∧
      (∀ other ∈ before, other ∉ seen) ∧ (text ∈ seen ∨ text ∈ before) := by
  induction texts generalizing seen with
  | nil => cases repeated
  | cons first rest inductionHypothesis =>
    rw [firstRepeated?] at repeated
    split at repeated
    · next wasSeen =>
      cases repeated
      exact ⟨[], rest, rfl, List.nodup_nil, by simp, .inl wasSeen⟩
    · next unseen =>
      obtain ⟨before, after, rfl, distinct, unseenBefore, isRepeated⟩ :=
        inductionHypothesis repeated
      have firstUnseen : first ∉ before := fun member => unseenBefore first member List.mem_cons_self
      refine ⟨first :: before, after, rfl, List.nodup_cons.2 ⟨firstUnseen, distinct⟩, ?_, ?_⟩
      · refine List.forall_mem_cons.2 ⟨unseen, fun other member wasSeen => ?_⟩
        exact unseenBefore other member (List.mem_cons_of_mem _ wasSeen)
      · rcases isRepeated with isSeen | inBefore
        · rcases List.mem_cons.1 isSeen with rfl | isSeen
          · exact .inr List.mem_cons_self
          · exact .inl isSeen
        · exact .inr (List.mem_cons_of_mem _ inBefore)

/-- There is only one text that is repeated first. -/
theorem IsFirstRepeated.eq {text other : Text} {texts : List Text}
    (first : IsFirstRepeated text texts) (second : IsFirstRepeated other texts) : text = other := by
  obtain ⟨before, after, rfl, distinct, member⟩ := first
  obtain ⟨before', after', spelled, distinct', member'⟩ := second
  rcases List.append_eq_append_iff.1 spelled with ⟨between, rfl, rest⟩ | ⟨between, rfl, rest⟩
  · cases between with
    | nil => exact (List.cons.inj rest).1
    | cons next between =>
      obtain ⟨rfl, -⟩ := List.cons.inj rest
      exact absurd rfl ((List.nodup_append.1 distinct').2.2 text member text List.mem_cons_self)
  · cases between with
    | nil => exact (List.cons.inj rest).1.symm
    | cons next between =>
      obtain ⟨rfl, -⟩ := List.cons.inj rest
      exact absurd rfl ((List.nodup_append.1 distinct).2.2 other member' other List.mem_cons_self)

theorem firstRepeated?_eq_some_iff {texts : List Text} {text : Text} :
    firstRepeated? [] texts = some text ↔ IsFirstRepeated text texts := by
  have isFirst : ∀ other, firstRepeated? [] texts = some other → IsFirstRepeated other texts := by
    intro other repeated
    obtain ⟨before, after, spelled, distinct, -, isRepeated⟩ := exists_of_firstRepeated? repeated
    exact ⟨before, after, spelled, distinct, isRepeated.resolve_left List.not_mem_nil⟩
  refine ⟨isFirst text, fun first => ?_⟩
  cases found : firstRepeated? [] texts with
  | some other => rw [first.eq (isFirst other found)]
  | none =>
    obtain ⟨before, after, rfl, -, member⟩ := first
    have distinct := (nodup_of_firstRepeated? found).1
    exact absurd rfl ((List.nodup_append.1 distinct).2.2 text member text List.mem_cons_self)

namespace Signature

theorem eq_of_command_eq {signature other : Signature} (same : signature.command = other.command) :
    signature = other := by
  cases signature
  cases other
  cases same
  rfl

/-- A signature is read from exactly the texts that type its command. -/
theorem ofText_eq_ok_iff {text : Text} {signature : Signature} :
    ofText text = .ok signature ↔ TypedCommand.ofText text = signature.command := by
  unfold ofText
  dsimp only
  split
  · rw [Except.ok.injEq]
    exact ⟨fun same => same ▸ rfl, fun typed => eq_of_command_eq typed⟩
  · next repeated =>
    constructor
    · intro refused
      cases refused
    · intro typed
      rw [typed, firstRepeated?_eq_none signature.distinct (by simp)] at repeated
      cases repeated

/-- A text in which two groups have the same name is refused, and the error tells the name. -/
theorem ofText_eq_error_iff {text : Text} {error : ConfigError} :
    ofText text = .error error ↔
      ∃ group, IsFirstRepeated group (TypedCommand.ofText text).groups ∧
        error = .invalidInvocation (TypedCommand.ofText text).text
          ("duplicate group " ++ Text.quoted group) := by
  unfold ofText
  dsimp only
  split
  · next noneRepeated =>
    constructor
    · intro refused
      cases refused
    · rintro ⟨group, repeated, -⟩
      rw [firstRepeated?_eq_some_iff.2 repeated] at noneRepeated
      cases noneRepeated
  · next group found =>
    have isFirst := firstRepeated?_eq_some_iff.1 found
    constructor
    · intro refused
      cases refused
      exact ⟨group, isFirst, rfl⟩
    · rintro ⟨other, repeated, rfl⟩
      rw [isFirst.eq repeated]

end Signature

end VerbExpansion
