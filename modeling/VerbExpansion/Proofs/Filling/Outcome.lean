import VerbExpansion.Filling
import VerbExpansion.Proofs.Pattern.Occurrences
import VerbExpansion.Proofs.Token.Cut

/-!
# What the outcome of filling depends on

Filling looks placeholders up one by one, and the first answer that fails ends it (`LooksUp`). A command
line looks up the placeholders of the whole pattern, a list of arguments those of each token
(`looksUp_commandLine`, `looksUp_arguments`). So whether a pattern becomes a command is settled by these
placeholders alone (`Settled`), and two fillings that say the same of them come to the same command
(`commandTokens_congr`, `arguments_congr`).
-/

namespace VerbExpansion.Filling

/-- A job that looks up these placeholders, in this order, and nothing else. -/
inductive LooksUp {Result : Type} :
    List Placeholder → (Filling → Except Interruption Result) → Prop where
  | done (result : Result) : LooksUp [] fun _ => .ok result
  | next (placeholder : Placeholder) {placeholders : List Placeholder}
      {rest : Option Text → Filling → Except Interruption Result}
      (others : ∀ answer, LooksUp placeholders (rest answer)) :
      LooksUp (placeholder :: placeholders) fun filling =>
        filling placeholder >>= fun answer => rest answer filling

/-- One job after the other looks up the placeholders of both. -/
theorem LooksUp.bind {Part Whole : Type} {placeholders others : List Placeholder}
    {part : Filling → Except Interruption Part} {rest : Part → Filling → Except Interruption Whole}
    (looksUp : LooksUp placeholders part) (goesOn : ∀ done, LooksUp others (rest done)) :
    LooksUp (placeholders ++ others) fun filling =>
      part filling >>= fun done => rest done filling := by
  induction looksUp with
  | done result => exact goesOn result
  | next placeholder _ inductionHypothesis =>
    simp only [bind_assoc]
    exact .next placeholder inductionHypothesis

/-- What is made of a result afterwards looks up nothing more. -/
theorem LooksUp.map {Part Whole : Type} {placeholders : List Placeholder}
    {part : Filling → Except Interruption Part} (looksUp : LooksUp placeholders part)
    (finish : Part → Whole) :
    LooksUp placeholders fun filling => part filling >>= fun done => pure (finish done) := by
  have finished := looksUp.bind fun done => .done (finish done)
  rwa [List.append_nil] at finished

theorem looksUp_fillPiece (piece : Piece) :
    LooksUp piece.placeholder?.toList fun filling => fillPiece filling piece := by
  cases piece with
  | literal character => exact .done [character]
  | gap placeholder => exact .next placeholder fun text => .done (text.getD placeholder.source)

theorem looksUp_fillPattern (pattern : Pattern) :
    LooksUp pattern.placeholders fun filling => fillPattern filling pattern := by
  induction pattern with
  | nil => exact .done []
  | cons piece pattern inductionHypothesis =>
    have split : Pattern.placeholders (piece :: pattern) =
        piece.placeholder?.toList ++ Pattern.placeholders pattern := by
      cases piece <;> rfl
    rw [split]
    exact (looksUp_fillPiece piece).bind fun text => inductionHypothesis.map (text ++ ·)

theorem looksUp_fill (text : Text) :
    LooksUp (Pattern.ofText text).placeholders fun filling => fill filling text :=
  looksUp_fillPattern (Pattern.ofText text)

theorem looksUp_commandTokens (pattern : Text) :
    LooksUp (Pattern.ofText pattern).placeholders fun filling => commandTokens filling pattern :=
  (looksUp_fill pattern).map _

/-- A command line looks up the placeholders of the whole pattern. -/
theorem looksUp_commandLine (pattern : Text) :
    LooksUp (Pattern.ofText pattern).placeholders fun filling => commandLine filling pattern :=
  (looksUp_commandTokens pattern).map _

theorem looksUp_fillTokens (tokens : List Token) :
    LooksUp (tokens.flatMap fun token => (Pattern.ofText token.value).placeholders)
      fun filling => fillTokens filling tokens := by
  induction tokens with
  | nil => exact .done []
  | cons token tokens inductionHypothesis =>
    rw [List.flatMap_cons]
    exact (looksUp_fill token.value).bind fun text => inductionHypothesis.map (text :: ·)

/-- A list of arguments looks up the placeholders of each token. -/
theorem looksUp_arguments (pattern : Text) :
    LooksUp
      ((Token.listOfText .ordinary pattern).flatMap fun token =>
        (Pattern.ofText token.value).placeholders)
      fun filling => arguments filling pattern :=
  looksUp_fillTokens _

/-! ## Whether there is a result -/

/-- The outcome of a job that fills these placeholders, one after the other. -/
inductive Settled {Result : Type} (filling : Filling) (placeholders : List Placeholder) :
    Except Interruption Result → Prop where
  | answered (answers : ∀ placeholder ∈ placeholders, ∃ answer, filling placeholder = .ok answer)
      (result : Result) : Settled filling placeholders (.ok result)
  | interrupted {before after : List Placeholder} {placeholder : Placeholder}
      {interruption : Interruption} (split : placeholders = before ++ placeholder :: after)
      (answers : ∀ earlier ∈ before, ∃ answer, filling earlier = .ok answer)
      (failed : filling placeholder = .error interruption) :
      Settled filling placeholders (.error interruption)

variable {filling other : Filling}

/-- One more placeholder that has an answer does not change the outcome. -/
theorem Settled.cons {Result : Type} {placeholder : Placeholder} {placeholders : List Placeholder}
    {answer : Option Text} {outcome : Except Interruption Result}
    (answered : filling placeholder = .ok answer) (settled : Settled filling placeholders outcome) :
    Settled filling (placeholder :: placeholders) outcome := by
  cases settled with
  | answered answers result =>
    exact .answered (List.forall_mem_cons.2 ⟨⟨answer, answered⟩, answers⟩) result
  | interrupted split answers failed =>
    exact .interrupted (congrArg (placeholder :: ·) split)
      (List.forall_mem_cons.2 ⟨⟨answer, answered⟩, answers⟩) failed

/-- The placeholders that a job looks up settle its outcome. -/
theorem LooksUp.settled {Result : Type} {placeholders : List Placeholder}
    {job : Filling → Except Interruption Result} (looksUp : LooksUp placeholders job)
    (filling : Filling) : Settled filling placeholders (job filling) := by
  induction looksUp with
  | done result => exact .answered (by simp) result
  | @next placeholder others rest _ inductionHypothesis =>
    show Settled filling _ (filling placeholder >>= fun answer => rest answer filling)
    cases answered : filling placeholder with
    | error interruption =>
      exact .interrupted (List.nil_append _).symm (List.forall_mem_nil _) answered
    | ok answer => exact (inductionHypothesis answer).cons answered

/-- A job fails as the first placeholder does that has no answer. -/
theorem LooksUp.eq_error_iff {Result : Type} {placeholders : List Placeholder}
    {job : Filling → Except Interruption Result} (looksUp : LooksUp placeholders job)
    {interruption : Interruption} :
    job filling = .error interruption ↔
      ∃ before placeholder after, placeholders = before ++ placeholder :: after ∧
        (∀ earlier ∈ before, ∃ answer, filling earlier = .ok answer) ∧
        filling placeholder = .error interruption := by
  constructor
  · intro stopped
    have settled := looksUp.settled filling
    rw [stopped] at settled
    cases settled with
    | interrupted split answers failed => exact ⟨_, _, _, split, answers, failed⟩
  · rintro ⟨before, placeholder, after, rfl, answers, failed⟩
    induction before generalizing job with
    | nil =>
      cases looksUp with
      | @next _ _ rest _ =>
        show (filling placeholder >>= fun answer => rest answer filling) = _
        rw [failed]
        rfl
    | cons earlier before inductionHypothesis =>
      cases looksUp with
      | @next _ _ rest others =>
        obtain ⟨⟨answer, answered⟩, answers⟩ := List.forall_mem_cons.1 answers
        show (filling earlier >>= fun answer => rest answer filling) = _
        rw [answered]
        exact inductionHypothesis (others answer) answers

/-- A job has a result when all placeholders that it looks up have an answer. -/
theorem LooksUp.exists_eq_ok_iff {Result : Type} {placeholders : List Placeholder}
    {job : Filling → Except Interruption Result} (looksUp : LooksUp placeholders job) :
    (∃ result, job filling = .ok result) ↔
      ∀ placeholder ∈ placeholders, ∃ answer, filling placeholder = .ok answer := by
  have settled := looksUp.settled filling
  generalize job filling = outcome at settled
  cases settled with
  | answered answers result => simpa using answers
  | @interrupted before after placeholder _ split _ failed =>
    have unanswered : ¬ ∃ answer, filling placeholder = .ok answer := by simp [failed]
    simp only [reduceCtorEq, exists_false, false_iff]
    exact fun answers => unanswered (answers placeholder (by simp [split]))

theorem settled_commandLine (pattern : Text) :
    Settled filling (Pattern.ofText pattern).placeholders (commandLine filling pattern) :=
  (looksUp_commandLine pattern).settled filling

theorem settled_arguments (pattern : Text) :
    Settled filling
      ((Token.listOfText .ordinary pattern).flatMap fun token =>
        (Pattern.ofText token.value).placeholders)
      (arguments filling pattern) :=
  (looksUp_arguments pattern).settled filling

/-! ## Fillings that agree -/

/-- A job comes out alike for fillings that agree on all that it looks up. -/
theorem LooksUp.congr {Result : Type} {placeholders : List Placeholder}
    {job : Filling → Except Interruption Result} (looksUp : LooksUp placeholders job)
    (agree : ∀ placeholder ∈ placeholders, filling placeholder = other placeholder) :
    job filling = job other := by
  induction looksUp with
  | done => rfl
  | @next placeholder _ rest _ inductionHypothesis =>
    obtain ⟨same, agree⟩ := List.forall_mem_cons.1 agree
    show (filling placeholder >>= fun answer => rest answer filling) = _
    rw [same]
    exact bind_congr fun answer => inductionHypothesis answer agree

theorem commandTokens_congr {pattern : Text}
    (agree : ∀ placeholder ∈ (Pattern.ofText pattern).placeholders,
      filling placeholder = other placeholder) :
    commandTokens filling pattern = commandTokens other pattern :=
  (looksUp_commandTokens pattern).congr agree

/-- The placeholders within the tokens of a pattern are placeholders of the pattern. -/
theorem arguments_congr {pattern : Text}
    (agree : ∀ placeholder ∈ (Pattern.ofText pattern).placeholders,
      filling placeholder = other placeholder) :
    arguments filling pattern = arguments other pattern := by
  refine (looksUp_arguments pattern).congr fun placeholder member => ?_
  obtain ⟨token, isToken, member⟩ := List.mem_flatMap.1 member
  exact agree placeholder
    (Pattern.placeholders_subset_of_isInfix (Token.value_infix_of_mem isToken) member)

end VerbExpansion.Filling
