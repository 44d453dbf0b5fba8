/-!
# Jobs in steps

A job that takes one step after the other succeeds when all of them do, and fails as the first one
that does not.
-/

namespace VerbExpansion

variable {Error : Type}

/-- A job succeeds when its parts do, one after the other. -/
theorem bind_eq_ok_iff {Part Whole : Type} {part : Except Error Part}
    {rest : Part → Except Error Whole} {whole : Whole} :
    (part >>= rest) = .ok whole ↔ ∃ done, part = .ok done ∧ rest done = .ok whole := by
  cases part with
  | error error =>
    constructor
    · intro succeeded
      cases succeeded
    · rintro ⟨_, refused, _⟩
      cases refused
  | ok done =>
    constructor
    · intro succeeded
      exact ⟨done, rfl, succeeded⟩
    · rintro ⟨_, ⟨⟩, succeeded⟩
      exact succeeded

/-- A job fails when a part of it does, after those before it succeeded. -/
theorem bind_eq_error_iff {Part Whole : Type} {part : Except Error Part}
    {rest : Part → Except Error Whole} {error : Error} :
    (part >>= rest) = .error error ↔
      part = .error error ∨ ∃ done, part = .ok done ∧ rest done = .error error := by
  cases part with
  | error other =>
    constructor
    · intro failed
      cases failed
      exact .inl rfl
    · rintro (⟨⟨⟩⟩ | ⟨_, ⟨⟩, _⟩)
      rfl
  | ok done =>
    constructor
    · intro failed
      exact .inr ⟨done, rfl, failed⟩
    · rintro (⟨⟨⟩⟩ | ⟨_, ⟨⟩, failed⟩)
      exact failed

section Runs

variable {Item State : Type} {step : State → Item → Except Error State} {state last : State}

theorem foldlM_cons_eq_ok_iff {item : Item} {items : List Item} :
    (item :: items).foldlM step state = .ok last ↔
      ∃ next, step state item = .ok next ∧ items.foldlM step next = .ok last := by
  rw [List.foldlM_cons]
  exact bind_eq_ok_iff

theorem foldlM_append_eq_ok_iff {items others : List Item} :
    (items ++ others).foldlM step state = .ok last ↔
      ∃ next, items.foldlM step state = .ok next ∧ others.foldlM step next = .ok last := by
  rw [List.foldlM_append]
  exact bind_eq_ok_iff

/-- A run fails at one item, as the step there does, after the items before it were taken. -/
theorem foldlM_eq_error_iff {items : List Item} {error : Error} :
    items.foldlM step state = .error error ↔
      ∃ before item after reached, items = before ++ item :: after ∧
        before.foldlM step state = .ok reached ∧ step reached item = .error error := by
  induction items generalizing state with
  | nil =>
    constructor
    · intro failed
      cases failed
    · rintro ⟨before, item, after, _, split, _⟩
      cases before <;> cases split
  | cons first items inductionHypothesis =>
    rw [List.foldlM_cons, bind_eq_error_iff]
    constructor
    · rintro (failed | ⟨next, stepped, failed⟩)
      · exact ⟨[], first, items, state, rfl, rfl, failed⟩
      · obtain ⟨before, item, after, reached, rfl, run, failed⟩ := inductionHypothesis.1 failed
        exact ⟨first :: before, item, after, reached, rfl,
          foldlM_cons_eq_ok_iff.2 ⟨next, stepped, run⟩, failed⟩
    · rintro ⟨before, item, after, reached, split, run, failed⟩
      cases before with
      | nil =>
        cases run
        cases split
        exact .inl failed
      | cons _ before =>
        cases split
        obtain ⟨next, stepped, run⟩ := foldlM_cons_eq_ok_iff.1 run
        exact .inr ⟨next, stepped,
          inductionHypothesis.2 ⟨before, item, after, reached, rfl, run, failed⟩⟩

end Runs

end VerbExpansion
