import Mathlib.Algebra.Group.Int.Defs
import Mathlib.Algebra.Group.Nat.Defs
import VerbExpansion.CommandLine.Run
import VerbExpansion.Proofs.Disk.Lineage
import VerbExpansion.Proofs.Expansion.Lookups
import VerbExpansion.Proofs.Filling.Outcome

/-!
# What stops an expansion

An expansion fills its placeholders from left to right, and the first of them that has no answer stops
it. A placeholder has no answer when it asks for a directory and the disk refuses to answer on the way
to it, or when it names the line and the number of the line is too long to be written (`Stops`).
Nothing else stops an expansion (`endsAtFirstStop_commandLine_and_arguments`): no unknown name, no
missing value or panel, no format, and no brace that is out of place.
-/

namespace VerbExpansion

/-- A number has more digits than are written when it is at least the power of ten with one more. -/
theorem Selection.hasShortLine_eq_false_iff {selection : Selection} :
    selection.hasShortLine = false ↔ 10 ^ Text.longestNumeral ≤ selection.line.natAbs := by
  have fits_iff : (Nat.toDigits 10 selection.line.natAbs).length ≤ Text.longestNumeral ↔
      selection.line.natAbs < 10 ^ Text.longestNumeral :=
    Nat.length_toDigits_le_iff (by decide) (by decide)
  rw [Selection.hasShortLine, decide_eq_false_iff_not, Text.ofNatural, List.length_map, fits_iff,
    Nat.not_lt]

namespace Context

variable {surroundings : Surroundings} {context : Context} {placeholder : Placeholder}

/-- The paths whose closest directory a placeholder asks for. -/
inductive Asks (context : Context) (placeholder : Placeholder) : Path → Prop where
  | directory (named : placeholder.name = "directory") :
      Asks context placeholder context.selection.path
  | otherPanelDirectory {other : Path} (named : placeholder.name = "other-panel-directory")
      (beside : context.other = some other) : Asks context placeholder other
  /-- A typed value, even one that is an absolute path. -/
  | typedPath (free : ∀ name : ContextName, placeholder.name ≠ name.text)
      (typed : ∃ value, context.value? placeholder.name = some value)
      (formatted : placeholder.format = some "path-from-directory") :
      Asks context placeholder context.selection.path

/-- One of these placeholders asks for a directory, and on the way to it a path is denied. -/
def IsDenied (surroundings : Surroundings) (context : Context) (placeholders : List Placeholder) :
    Prop :=
  ∃ placeholder ∈ placeholders, ∃ path, context.Asks placeholder path ∧
    surroundings.disk.IsDeniedAbove path

theorem contextName?_eq_some_iff {name : ContextName} :
    placeholder.contextName? = some name ↔ placeholder.name = name.text := by
  constructor
  · exact fun found => (ContextName.text_eq_of_ofText? found).symm
  · intro named
    rw [Placeholder.contextName?, named, ContextName.ofText?_text]

theorem contextName?_eq_none_iff :
    placeholder.contextName? = none ↔ ∀ name : ContextName, placeholder.name ≠ name.text := by
  constructor
  · intro free name named
    rw [contextName?_eq_some_iff.2 named] at free
    cases free
  · intro free
    cases found : placeholder.contextName? with
    | none => rfl
    | some name => exact absurd (contextName?_eq_some_iff.1 found) (free name)

theorem pathBase?_eq_some_iff {base : PathBase} :
    placeholder.pathBase? = some base ↔ placeholder.format = some base.text := by
  constructor
  · intro found
    obtain ⟨format, written, known⟩ := Option.bind_eq_some_iff.1 found
    rw [written, PathBase.text_eq_of_ofText? known]
  · intro written
    rw [Placeholder.pathBase?, written]
    exact PathBase.ofText?_text base

/-- A placeholder asks for the closest directory of the path that is looked up for it. -/
theorem lookedUp?_eq_some_iff {path : Path} :
    context.lookedUp? placeholder = some path ↔ context.Asks placeholder path := by
  constructor
  · intro lookedUp
    unfold lookedUp? at lookedUp
    split at lookedUp
    · next named =>
      cases lookedUp
      exact .directory (contextName?_eq_some_iff.1 named)
    · next named => exact .otherPanelDirectory (contextName?_eq_some_iff.1 named) lookedUp
    · cases lookedUp
    · next free =>
      split at lookedUp
      · next typed =>
        cases lookedUp
        exact .typedPath (contextName?_eq_none_iff.1 free) (Option.isSome_iff_exists.1 typed.1)
          (pathBase?_eq_some_iff.1 typed.2)
      · cases lookedUp
  · intro asks
    cases asks with
    | directory named =>
      have found : placeholder.contextName? = some .directory := contextName?_eq_some_iff.2 named
      simp only [lookedUp?, found]
    | otherPanelDirectory named beside =>
      have found : placeholder.contextName? = some .otherPanelDirectory :=
        contextName?_eq_some_iff.2 named
      simp only [lookedUp?, found, beside]
    | typedPath free typed formatted =>
      have known : placeholder.pathBase? = some .directory := pathBase?_eq_some_iff.2 formatted
      obtain ⟨value, typed⟩ := typed
      simp [lookedUp?, contextName?_eq_none_iff.2 free, typed, known]

/-! ## Lookups that are denied -/

theorem filling?_eq_accessDenied {path : Path} (asks : context.Asks placeholder path)
    (denied : surroundings.disk.closestDirectory path = .error .accessDenied) (style : PathStyle) :
    filling? surroundings context style placeholder = .error .accessDenied := by
  cases asks with
  | directory named =>
    have found : placeholder.contextName? = some .directory := contextName?_eq_some_iff.2 named
    simp only [filling?, found, namedText?, denied]
    rfl
  | otherPanelDirectory named beside =>
    have found : placeholder.contextName? = some .otherPanelDirectory :=
      contextName?_eq_some_iff.2 named
    simp only [filling?, found, namedText?, beside, denied]
    rfl
  | typedPath free typed formatted =>
    have known : placeholder.pathBase? = some .directory := pathBase?_eq_some_iff.2 formatted
    obtain ⟨value, typed⟩ := typed
    simp only [filling?, contextName?_eq_none_iff.2 free, typed,
      formatted_eq_accessDenied known denied]
    rfl

/-- What stops an expansion at a placeholder. -/
inductive Stops (surroundings : Surroundings) (context : Context) (placeholder : Placeholder) :
    Interruption → Prop where
  | denied {path : Path} (asks : context.Asks placeholder path)
      (denied : surroundings.disk.IsDeniedAbove path) :
      Stops surroundings context placeholder .accessDenied
  | longLine (named : placeholder.name = "line")
      (long : 10 ^ Text.longestNumeral ≤ context.selection.line.natAbs) :
      Stops surroundings context placeholder .oversizedLine

/-- A placeholder is filled, or left as it is, unless the expansion stops there. -/
theorem filling?_eq_error_iff {style : PathStyle} {interruption : Interruption} :
    filling? surroundings context style placeholder = .error interruption ↔
      Stops surroundings context placeholder interruption := by
  constructor
  · intro failed
    by_cases isLong : placeholder.contextName? = some .line ∧ context.selection.hasShortLine = false
    · cases (filling?_eq_oversizedLine isLong.1 isLong.2 style).symm.trans failed
      exact .longLine (contextName?_eq_some_iff.1 isLong.1)
        (Selection.hasShortLine_eq_false_iff.1 isLong.2)
    by_cases denied : ∃ path, context.lookedUp? placeholder = some path ∧
        surroundings.disk.closestDirectory path = .error .accessDenied
    · obtain ⟨path, lookedUp, isDenied⟩ := denied
      have asks := lookedUp?_eq_some_iff.1 lookedUp
      cases (filling?_eq_accessDenied asks isDenied style).symm.trans failed
      exact .denied asks (Disk.closestDirectory_eq_error_iff.1 isDenied).2
    · have answerable : IsAnswerable surroundings context placeholder :=
        ⟨fun path lookedUp isDenied => denied ⟨path, lookedUp, isDenied⟩,
          fun named => by simpa [named] using isLong⟩
      obtain ⟨answer, answered⟩ := exists_filling? style answerable
      cases answered.symm.trans failed
  · intro stops
    cases stops with
    | denied asks denied =>
      exact filling?_eq_accessDenied asks (Disk.closestDirectory_eq_error_iff.2 ⟨rfl, denied⟩) style
    | longLine named long =>
      exact filling?_eq_oversizedLine (contextName?_eq_some_iff.2 named)
        (Selection.hasShortLine_eq_false_iff.2 long) style

theorem exists_filling?_iff {style : PathStyle} :
    (∃ answer, filling? surroundings context style placeholder = .ok answer) ↔
      ∀ cause, ¬ Stops surroundings context placeholder cause := by
  have stops_iff : ∀ cause, Stops surroundings context placeholder cause ↔
      filling? surroundings context style placeholder = .error cause :=
    fun _ => filling?_eq_error_iff.symm
  simp only [stops_iff]
  cases filling? surroundings context style placeholder <;> simp

/-! ## Where an expansion stops -/

/-- The outcome of a job that fills these placeholders from left to right. -/
structure EndsAtFirstStop {Result : Type} (surroundings : Surroundings) (context : Context)
    (placeholders : List Placeholder) (outcome : Except Interruption Result) : Prop where
  fails_iff : ∀ interruption, outcome = .error interruption ↔
    ∃ before placeholder after, placeholders = before ++ placeholder :: after ∧
      (∀ earlier ∈ before, ∀ cause, ¬ Stops surroundings context earlier cause) ∧
      Stops surroundings context placeholder interruption
  succeeds_iff : (∃ result, outcome = .ok result) ↔
    ∀ placeholder ∈ placeholders, ∀ cause, ¬ Stops surroundings context placeholder cause
  /-- Where no line is too long, only a denial stops the job. -/
  denied_iff_and_succeeds_iff :
    (∀ placeholder ∈ placeholders, ¬ Stops surroundings context placeholder .oversizedLine) →
      (outcome = .error .accessDenied ↔ IsDenied surroundings context placeholders) ∧
        ((∃ result, outcome = .ok result) ↔ ¬ IsDenied surroundings context placeholders)

/-- Where no line is too long, nothing stops a job unless one of its placeholders is denied. -/
theorem forall_not_stops_iff {placeholders : List Placeholder}
    (short : ∀ placeholder ∈ placeholders,
      ¬ Stops surroundings context placeholder .oversizedLine) :
    (∀ placeholder ∈ placeholders, ∀ cause, ¬ Stops surroundings context placeholder cause) ↔
      ¬ IsDenied surroundings context placeholders := by
  constructor
  · rintro goesOn ⟨placeholder, member, path, asks, denied⟩
    exact goesOn placeholder member .accessDenied (.denied asks denied)
  · intro undenied placeholder member cause stops
    cases stops with
    | denied asks denied => exact undenied ⟨placeholder, member, _, asks, denied⟩
    | longLine named long => exact short placeholder member (.longLine named long)

/-- A job ends at the first of the placeholders it looks up that stops it. -/
theorem endsAtFirstStop_of_looksUp {Result : Type} {placeholders : List Placeholder}
    {job : Filling → Except Interruption Result} (looksUp : Filling.LooksUp placeholders job)
    (style : PathStyle) :
    EndsAtFirstStop surroundings context placeholders
      (job (filling? surroundings context style)) := by
  let filling := filling? surroundings context style
  have fails_iff := fun interruption : Interruption =>
    show job filling = .error interruption ↔ _ from looksUp.eq_error_iff
  have succeeds_iff : (∃ result, job filling = .ok result) ↔ _ := looksUp.exists_eq_ok_iff
  simp only [filling, exists_filling?_iff, filling?_eq_error_iff] at fails_iff succeeds_iff
  refine ⟨fails_iff, succeeds_iff, fun short => ?_⟩
  have undenied_iff := succeeds_iff.trans (forall_not_stops_iff short)
  refine ⟨⟨fun failed => ?_, fun denied => ?_⟩, undenied_iff⟩
  · exact Classical.not_not.1 fun undenied => by
      obtain ⟨result, done⟩ := undenied_iff.2 undenied
      cases failed.symm.trans done
  · cases outcome : job (filling? surroundings context style) with
    | ok result => exact absurd denied (undenied_iff.1 ⟨result, outcome⟩)
    | error interruption =>
      obtain ⟨before, placeholder, after, split, -, stops⟩ := (fails_iff interruption).1 outcome
      cases stops with
      | denied => rfl
      | longLine named long =>
        exact absurd (.longLine named long) (short placeholder (by simp [split]))

/-- An expansion ends at the first of the placeholders that stops it, and has a command when none does:
a command line fills all placeholders of the pattern, and a list of arguments those within its tokens.
So unless one of them names a line that is too long, an expansion is denied exactly when one asks for
a directory and a path on the way to it is denied, and else there is a command. -/
theorem endsAtFirstStop_commandLine_and_arguments (surroundings : Surroundings) (context : Context)
    (pattern : Text) :
    let whole := (Pattern.ofText pattern).placeholders
    let withinTokens := (Token.listOfText .ordinary pattern).flatMap fun token =>
      (Pattern.ofText token.value).placeholders
    EndsAtFirstStop surroundings context whole (commandLine surroundings context pattern) ∧
      EndsAtFirstStop surroundings context withinTokens (arguments surroundings context pattern) :=
  ⟨endsAtFirstStop_of_looksUp (Filling.looksUp_commandLine pattern) .shellWord,
    endsAtFirstStop_of_looksUp (Filling.looksUp_arguments pattern) .plain⟩

/-- Where the disk denies nothing, a line of 4301 digits stops both kinds of expansion. What a separator
takes away from a command line is not absent: asked for its directory, it stops an expansion as well. -/
theorem expansion_stops_of_long_line_and_of_void_panel :
    let surroundings := Surroundings.ofDirectories "/home/me" []
    let context : Context :=
      { selection := { path := Path.ofText "/f", line := 10 ^ Text.longestNumeral } }
    let world : World :=
      { surroundings with
        environment? := fun _ => none, defaultConfiguration := Path.ofText "/c", toTerminal := false }
    (∀ context placeholders, ¬ IsDenied surroundings context placeholders) ∧
      commandLine surroundings context "{line}" = .error .oversizedLine ∧
      arguments surroundings context "{line}" = .error .oversizedLine ∧
      CommandLine.run world ["--other=--", "{other-panel-directory}", "f"] =
        .error (.void .directory) := by
  intro surroundings context world
  have undenied : ∀ context placeholders, ¬ IsDenied surroundings context placeholders := by
    rintro context placeholders ⟨_, -, path, -, denied⟩
    exact Disk.closestDirectory_ne_accessDenied (fun _ => Entry.noConfusion) path
      (Disk.closestDirectory_eq_error_iff.2 ⟨rfl, denied⟩)
  have power (digits : Nat) : 10 ^ digits ≤ ((10 : Int) ^ digits).natAbs :=
    (Int.natAbs_pow 10 digits).ge
  have long : context.selection.hasShortLine = false :=
    Selection.hasShortLine_eq_false_iff.2 (power Text.longestNumeral)
  let line : Placeholder := ⟨"line", none⟩
  have named : line.contextName? = some .line := contextName?_eq_some_iff.2 rfl
  have whole : commandLine surroundings context "{line}" = .error .oversizedLine :=
    (Filling.looksUp_commandLine "{line}").eq_error_iff.2
      ⟨[], line, [], by decide +kernel, by simp, filling?_eq_oversizedLine named long .shellWord⟩
  have withinTokens : arguments surroundings context "{line}" = .error .oversizedLine :=
    (Filling.looksUp_arguments "{line}").eq_error_iff.2
      ⟨[], line, [], by decide +kernel, by simp, filling?_eq_oversizedLine named long .plain⟩
  refine ⟨undenied, whole, withinTokens, ?_⟩
  -- A separator in place of the other panel is asked for its directory.
  let request : CommandLine.ExpandRequest :=
    { pattern := "{other-panel-directory}", file := some "f", other := .void }
  have understood : CommandLine.Request.ofArguments?
      ["--other=--", "{other-panel-directory}", "f"] = some (.expand request) := by rfl
  let described := CommandLine.contextOf request none { path := Path.ofText "f", kind := .other }
  have failed : (CommandLine.fillingOf surroundings request described .shellWord).commandTokens
      request.pattern = .error (.void .directory) := by decide +kernel
  have expanded : CommandLine.expand world request = .error (.void .directory) := by
    show (CommandLine.expansionOutput world described request >>= _) = _
    rw [CommandLine.expansionOutput, if_neg (by decide)]
    show ((CommandLine.fillingOf surroundings request described .shellWord).commandTokens
      request.pattern >>= _) >>= _ = _
    rw [failed]
    rfl
  rw [CommandLine.run, understood]
  show (CommandLine.expand world request >>= _) = _
  rw [expanded]
  rfl

end Context

end VerbExpansion
