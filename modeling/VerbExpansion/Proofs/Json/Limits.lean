import VerbExpansion.Json.Document
import VerbExpansion.Proofs.Steps

/-!
# Documents past the limits

A text that is no document is malformed, unless its reading stops before that: at an integer with too
many digits, or at a container inside of too many others (`stops_ofText_iff`). Both count only where a
value is awaited, so that what stands behind the first mistake is of no consequence.
-/

namespace VerbExpansion.Json

/-! ## What stops the reading -/

/-- Whether reading stopped at a limit: it failed, and not because the text is malformed. -/
def Stops {Result : Type} (outcome : Except DocumentError Result) : Prop :=
  ∃ error, outcome = .error error ∧ error ≠ .malformed

instance {Result : Type} (outcome : Except DocumentError Result) : Decidable (Stops outcome) :=
  match outcome with
  | .ok _ => isFalse (by simp [Stops])
  | .error error => decidable_of_iff (error ≠ .malformed) (by simp [Stops])

/-- Whether the lexeme opens a container. -/
def Lexeme.opens : Lexeme → Bool
  | openBracket | openBrace => true
  | _ => false

/-- Whether the lexeme closes a container. -/
def Lexeme.closes : Lexeme → Bool
  | closeBracket | closeBrace => true
  | _ => false

/-- Whether a value may come after these lexemes: with a null there, they can start a document. -/
def AwaitsValue (before : List Lexeme) : Prop :=
  ∃ after value,
    (before ++ Lexeme.literal .null :: after).foldlM State.step (.atValue []) = .ok (.complete value)

/-- What is past a limit, when it comes after these lexemes. -/
inductive Exceeds (before : List Lexeme) : Lexeme → Prop where
  | digits {digits : Nat} (tooMany : Text.longestNumeral < digits) :
      Exceeds before (.oversizedInteger digits)
  | nesting {lexeme : Lexeme} (opens : lexeme.opens = true)
      (tooDeep : before.countP Lexeme.closes + deepestNesting ≤ before.countP Lexeme.opens) :
      Exceeds before lexeme

/-- Whether something past a limit stands where a value is awaited. -/
def ExceedsLimit (lexemes : List Lexeme) : Prop :=
  ∃ before lexeme after, lexemes = before ++ lexeme :: after ∧ AwaitsValue before ∧
    Exceeds before lexeme

/-! ## How deep a place is -/

namespace State

/-- How many containers are open. -/
def depth : State → Nat
  | atValue containers => containers.length
  | atFirstItem containers | atFirstKey containers | atKey _ containers | atColon _ _ containers
  | afterItem _ containers | afterMember _ containers => containers.length + 1
  | complete _ => 0

/-- The containers around the value that may come next, if one may. -/
def containersAround? : State → Option (List OpenContainer)
  | atValue containers => some containers
  | atFirstItem containers => some (.array [] :: containers)
  | _ => none

variable {state next : State} {containers : List OpenContainer} {lexeme : Lexeme}

theorem length_of_containersAround? (awaiting : state.containersAround? = some containers) :
    containers.length = state.depth := by
  cases state with
  | atValue | atFirstItem =>
    cases awaiting
    rfl
  | _ => cases awaiting

@[simp] theorem depth_after (value : Value) (containers : List OpenContainer) :
    (after value containers).depth = containers.length := by
  cases containers with
  | nil => rfl
  | cons container containers => cases container <;> rfl

theorem depth_of_startValue (started : startValue containers lexeme = .ok next) :
    next.depth + (if lexeme.closes then 1 else 0) =
      containers.length + (if lexeme.opens then 1 else 0) := by
  unfold startValue at started
  split at started
  case h_1 | h_2 =>
    cases started
    rw [depth_after]
    rfl
  case h_3 | h_4 =>
    split at started
    · cases started
      rfl
    · cases started
  case h_5 | h_6 => cases started

/-- Opening a container goes one deeper, and closing one goes back. -/
theorem depth_of_step (stepped : step state lexeme = .ok next) :
    next.depth + (if lexeme.closes then 1 else 0) =
      state.depth + (if lexeme.opens then 1 else 0) := by
  unfold step at stepped
  split at stepped
  -- A value is read, a container is closed, the same container goes on, or nothing fits.
  case h_1 | h_3 => exact depth_of_startValue stepped
  case h_2 | h_4 | h_9 | h_11 =>
    cases stepped
    rw [depth_after]
    rfl
  case h_5 | h_6 | h_7 | h_8 | h_10 =>
    cases stepped
    rfl
  case h_12 => cases stepped

/-- A place is as deep as containers were opened and not closed on the way to it. -/
theorem depth_of_foldlM {lexemes : List Lexeme} (run : lexemes.foldlM step state = .ok next) :
    next.depth + lexemes.countP Lexeme.closes = state.depth + lexemes.countP Lexeme.opens := by
  induction lexemes generalizing state with
  | nil =>
    cases run
    rfl
  | cons lexeme lexemes inductionHypothesis =>
    obtain ⟨middle, stepped, run⟩ := foldlM_cons_eq_ok_iff.1 run
    have first := depth_of_step stepped
    have others := inductionHypothesis run
    rw [List.countP_cons, List.countP_cons]
    omega

/-! ## Where the reading stops -/

/-- A value is read where one is awaited, unless an array ends there. -/
theorem step_of_containersAround? (awaiting : state.containersAround? = some containers)
    (goesOn : lexeme ≠ .closeBracket) : step state lexeme = startValue containers lexeme := by
  cases state with
  | atValue =>
    cases awaiting
    rfl
  | atFirstItem =>
    cases awaiting
    cases lexeme with
    | closeBracket => exact absurd rfl goesOn
    | _ => rfl
  | _ => cases awaiting

/-- Only values are past a limit, and only inside of too many containers unless they are integers. -/
theorem stops_startValue_iff :
    Stops (startValue containers lexeme) ↔
      (∃ digits, lexeme = .oversizedInteger digits) ∨
        lexeme.opens = true ∧ deepestNesting ≤ containers.length := by
  cases lexeme with
  | openBracket | openBrace =>
    rcases Nat.lt_or_ge containers.length deepestNesting with shallow | deep
    · simp [startValue, Stops, Lexeme.opens, shallow]
    · simp [startValue, Stops, Lexeme.opens, Nat.not_lt.2 deep, deep]
  | _ => simp [startValue, Stops, Lexeme.opens]

/-- Reading stops only at a value. -/
theorem stops_step_iff :
    Stops (step state lexeme) ↔
      ∃ containers, state.containersAround? = some containers ∧
        Stops (startValue containers lexeme) := by
  cases state with
  | atValue containers => simp [containersAround?, step]
  | atFirstItem containers =>
    cases lexeme with
    | closeBracket => simp [containersAround?, step, startValue, Stops]
    | _ => simp [containersAround?, step]
  | _ => cases lexeme <;> simp [containersAround?, step, Stops]

/-! ## Where a value is awaited -/

/-- From a value on, a document can be completed: whatever is open is closed. -/
theorem exists_completion (value : Value) (containers : List OpenContainer) :
    ∃ (lexemes : List Lexeme) (whole : Value),
      lexemes.foldlM step (after value containers) = .ok (complete whole) := by
  induction containers generalizing value with
  | nil => exact ⟨[], value, rfl⟩
  | cons container containers inductionHypothesis =>
    cases container with
    | array items =>
      obtain ⟨lexemes, whole, run⟩ := inductionHypothesis (.array (value :: items).reverse)
      exact ⟨.closeBracket :: lexemes, whole, run⟩
    | object members key =>
      obtain ⟨lexemes, whole, run⟩ := inductionHypothesis (.object ((key, value) :: members).reverse)
      exact ⟨.closeBrace :: lexemes, whole, run⟩

theorem exists_containersAround?_of_step {value : Value}
    (stepped : step state (.literal value) = .ok next) :
    ∃ containers, state.containersAround? = some containers := by
  cases state with
  | atValue | atFirstItem => exact ⟨_, rfl⟩
  | _ => cases stepped

end State

/-- A value is awaited where the place reached says so. -/
theorem awaitsValue_iff {before : List Lexeme} :
    AwaitsValue before ↔
      ∃ state containers, before.foldlM State.step (.atValue []) = .ok state ∧
        state.containersAround? = some containers := by
  constructor
  · rintro ⟨after, value, run⟩
    obtain ⟨state, reached, run⟩ := foldlM_append_eq_ok_iff.1 run
    obtain ⟨next, stepped, -⟩ := foldlM_cons_eq_ok_iff.1 run
    obtain ⟨containers, awaiting⟩ := State.exists_containersAround?_of_step stepped
    exact ⟨state, containers, reached, awaiting⟩
  · rintro ⟨state, containers, reached, awaiting⟩
    obtain ⟨after, value, completed⟩ := State.exists_completion .null containers
    have stepped : state.step (.literal .null) = .ok (.after .null containers) :=
      State.step_of_containersAround? awaiting nofun
    exact ⟨after, value, foldlM_append_eq_ok_iff.2 ⟨state, reached,
      foldlM_cons_eq_ok_iff.2 ⟨_, stepped, completed⟩⟩⟩

/-! ## Integers with too many digits -/

namespace Lexeme

variable {isNegative : Bool} {text rest : Text} {digits : Nat}

theorem longestNumeral_lt_of_readUnsigned?
    (read : readUnsigned? isNegative text = some (.oversizedInteger digits, rest)) :
    Text.longestNumeral < digits := by
  unfold readUnsigned? at read
  split at read
  · cases read
  · split at read
    · split at read <;> cases read
    · split at read
      · cases read
      · unfold ofDigits at read
        split at read
        · cases read
        · next tooMany =>
          cases read
          exact Nat.not_le.1 tooMany

theorem longestNumeral_lt_of_read? (read : read? text = some (.oversizedInteger digits, rest)) :
    Text.longestNumeral < digits := by
  unfold read? at read
  split at read
  case h_1 | h_2 | h_3 | h_4 | h_5 | h_6 => cases read
  case h_7 =>
    obtain ⟨_, _, same⟩ := Option.map_eq_some_iff.1 read
    cases same
  case h_8 =>
    split at read
    · next found =>
      obtain ⟨⟨name, value⟩, _, named⟩ := List.exists_of_findSome?_eq_some found
      cases read
      dsimp only at named
      split at named <;> cases named
    · unfold readNumber? at read
      split at read <;> exact longestNumeral_lt_of_readUnsigned? read

theorem longestNumeral_lt_of_mem_listOfText (isRead : .oversizedInteger digits ∈ listOfText text) :
    Text.longestNumeral < digits := by
  fun_induction listOfText text with
  | case1 => cases isRead
  | case2 character rest space inductionHypothesis => exact inductionHypothesis isRead
  | case3 character rest noSpace lexeme left found shorter inductionHypothesis =>
    rcases List.mem_cons.1 isRead with rfl | isRead
    · exact longestNumeral_lt_of_read? found
    · exact inductionHypothesis isRead
  | case4 => cases List.mem_singleton.1 isRead

end Lexeme

/-! ## Texts -/

/-- What the containers around a place say is what was opened and not closed before it. -/
theorem exceeds_iff {text : Text} {before after : List Lexeme} {lexeme : Lexeme} {state : State}
    {containers : List OpenContainer} (cut : Lexeme.listOfText text = before ++ lexeme :: after)
    (run : before.foldlM State.step (.atValue []) = .ok state)
    (awaiting : state.containersAround? = some containers) :
    Exceeds before lexeme ↔ Stops (State.startValue containers lexeme) := by
  have opened := State.depth_of_foldlM run
  have around := State.length_of_containersAround? awaiting
  change _ = 0 + _ at opened
  rw [State.stops_startValue_iff]
  constructor
  · rintro (tooMany | ⟨opens, tooDeep⟩)
    · exact .inl ⟨_, rfl⟩
    · exact .inr ⟨opens, by omega⟩
  · rintro (⟨digits, rfl⟩ | ⟨opens, tooDeep⟩)
    · have isRead : .oversizedInteger digits ∈ Lexeme.listOfText text := by
        rw [cut]
        exact List.mem_append_right _ List.mem_cons_self
      exact .digits (Lexeme.longestNumeral_lt_of_mem_listOfText isRead)
    · exact .nesting opens (by omega)

/-- The reading of a text stops where something past a limit stands in place of a value. -/
theorem stops_ofText_iff {text : Text} :
    Stops (Value.ofText text) ↔ ExceedsLimit (Lexeme.listOfText text) := by
  have same : Stops (Value.ofText text) ↔
      Stops ((Lexeme.listOfText text).foldlM State.step (.atValue [])) := by
    unfold Value.ofText
    split <;> simp [Stops, *]
  rw [same]
  constructor
  · rintro ⟨error, failed, limit⟩
    obtain ⟨before, lexeme, after, state, cut, run, failed⟩ := foldlM_eq_error_iff.1 failed
    obtain ⟨containers, awaiting, stops⟩ := State.stops_step_iff.1 ⟨error, failed, limit⟩
    exact ⟨before, lexeme, after, cut, awaitsValue_iff.2 ⟨state, containers, run, awaiting⟩,
      (exceeds_iff cut run awaiting).2 stops⟩
  · rintro ⟨before, lexeme, after, cut, awaits, exceeds⟩
    obtain ⟨state, containers, run, awaiting⟩ := awaitsValue_iff.1 awaits
    obtain ⟨error, failed, limit⟩ :=
      State.stops_step_iff.2 ⟨containers, awaiting, (exceeds_iff cut run awaiting).1 exceeds⟩
    exact ⟨error,
      foldlM_eq_error_iff.2 ⟨before, lexeme, after, state, cut, run, failed⟩, limit⟩

end VerbExpansion.Json
