import VerbExpansion.CommandLine.Run
import VerbExpansion.Proofs.Expansion.Denial

/-!
# What an expansion depends on

An expansion depends on what its pattern names, and on nothing else: two contexts that agree on it have
the same command, on any two disks that answer alike above the selected paths
(`expansion_eq_of_agreesOn`). What the disk says about the tokens of a command line is told beside the
command and never changes it.
-/

namespace VerbExpansion

/-- Whether a placeholder of the pattern has this name. -/
def Pattern.Names (pattern : Pattern) (name : Text) : Prop :=
  ∃ placeholder ∈ pattern.placeholders, placeholder.name = name

/-- Whether the name is filled from the other panel. -/
def ContextName.IsOfOtherPanel (name : ContextName) : Prop :=
  name = otherPanelFile ∨ name = otherPanelDirectory ∨ name = otherPanelParent

namespace Context

/-- Two contexts with the same selected path agree on all that a pattern names. -/
structure AgreesOn (context : Context) (pattern : Text) (other : Context) : Prop where
  path : context.selection.path = other.selection.path
  line : (Pattern.ofText pattern).Names "line" → context.selection.line = other.selection.line
  otherPanel : (∃ name : ContextName, name.IsOfOtherPanel ∧ (Pattern.ofText pattern).Names name.text) →
    context.other = other.other
  /-- Only names that are not set aside ask for a typed value. -/
  values : ∀ name, (Pattern.ofText pattern).Names name →
    (∀ contextName : ContextName, name ≠ contextName.text) → context.value? name = other.value? name

/-- Two surroundings with the same home answer alike above all that is selected. -/
structure AgreesAround (surroundings : Surroundings) (context : Context) (others : Surroundings) :
    Prop where
  home : surroundings.home = others.home
  selection : surroundings.disk.AgreesAbove others.disk context.selection.path
  otherPanel : ∀ path, context.other = some path → surroundings.disk.AgreesAbove others.disk path

variable {surroundings others : Surroundings} {context other : Context} {pattern : Text}

theorem namedText?_congr {name : ContextName} (agrees : context.AgreesOn pattern other)
    (around : AgreesAround surroundings context others)
    (names : (Pattern.ofText pattern).Names name.text) (style : PathStyle) :
    namedText? surroundings context style name = namedText? others other style name := by
  have selected := Disk.closestDirectory_congr around.selection
  cases name with
  | line =>
    have written : context.selection.lineText = other.selection.lineText := by
      rw [Selection.lineText, Selection.lineText, Selection.hasShortLine, Selection.hasShortLine,
        agrees.line names]
    simp only [namedText?, written]
  | file => simp only [namedText?, agrees.path]
  | directory => simp only [namedText?, ← agrees.path, selected]
  | parent => simp only [namedText?, agrees.path]
  | otherPanelFile =>
    simp only [namedText?, agrees.otherPanel ⟨_, by simp [ContextName.IsOfOtherPanel], names⟩]
  | otherPanelParent =>
    simp only [namedText?, agrees.otherPanel ⟨_, by simp [ContextName.IsOfOtherPanel], names⟩]
  | otherPanelDirectory =>
    have beside := agrees.otherPanel ⟨_, by simp [ContextName.IsOfOtherPanel], names⟩
    simp only [namedText?, ← beside]
    cases shown : context.other with
    | none => rfl
    | some path => simp only [Disk.closestDirectory_congr (around.otherPanel path shown)]

theorem formatted_congr (agrees : context.AgreesOn pattern other)
    (around : AgreesAround surroundings context others) (value : Text) (format : Option Text) :
    formatted surroundings context value format = formatted others other value format := by
  have based : ∀ base, baseDirectory surroundings context base = baseDirectory others other base := by
    intro base
    cases base with
    | directory =>
      simp only [baseDirectory, ← agrees.path, Disk.closestDirectory_congr around.selection]
    | parent => simp only [baseDirectory, agrees.path]
  cases format with
  | none => rfl
  | some format => simp only [formatted, based, around.home]

/-- A placeholder of the pattern is filled alike. -/
theorem filling?_congr {placeholder : Placeholder} (agrees : context.AgreesOn pattern other)
    (around : AgreesAround surroundings context others)
    (member : placeholder ∈ (Pattern.ofText pattern).placeholders) (style : PathStyle) :
    filling? surroundings context style placeholder = filling? others other style placeholder := by
  cases named : placeholder.contextName? with
  | some name =>
    have names : (Pattern.ofText pattern).Names name.text :=
      ⟨placeholder, member, contextName?_eq_some_iff.1 named⟩
    simp only [filling?, named, namedText?_congr agrees around names]
  | none =>
    have typed := agrees.values placeholder.name ⟨placeholder, member, rfl⟩
      (contextName?_eq_none_iff.1 named)
    simp only [filling?, named, ← typed, formatted_congr agrees around]

open CommandLine

/-- Where contexts agree on all that a pattern names, and disks above all that is selected, the pattern
becomes the same command or fails in the same way, as a line and as arguments. A run that prints the
command prints the same, whatever the disks say about the tokens of the line. -/
theorem expansion_eq_of_agreesOn (agrees : context.AgreesOn pattern other)
    (around : AgreesAround surroundings context others) :
    commandLine surroundings context pattern = commandLine others other pattern ∧
      arguments surroundings context pattern = arguments others other pattern ∧
      ∀ (world : World) (request : ExpandRequest), request.pattern = pattern →
        (expansionOutput { world with toSurroundings := surroundings } context request).map Prod.fst =
          (expansionOutput { world with toSurroundings := others } other request).map Prod.fst := by
  have alike : ∀ style, ∀ placeholder ∈ (Pattern.ofText pattern).placeholders,
      filling? surroundings context style placeholder = filling? others other style placeholder :=
    fun style _ member => filling?_congr agrees around member style
  refine ⟨?_, Filling.arguments_congr (alike .plain), fun world request asked => ?_⟩
  · rw [commandLine, commandLine, Filling.commandLine, Filling.commandLine,
      Filling.commandTokens_congr (alike .shellWord)]
  · subst asked
    have given : ∀ style, ∀ placeholder ∈ (Pattern.ofText request.pattern).placeholders,
        fillingOf surroundings request context style placeholder =
          fillingOf others request other style placeholder := by
      intro style placeholder member
      simp only [fillingOf, alike style placeholder member]
    unfold expansionOutput
    split
    · simp only [Filling.arguments_congr (given .plain)]
      cases (fillingOf others request other .plain).arguments request.pattern <;> rfl
    · -- The tokens are the same; the notices about them need not be.
      simp only [Filling.commandTokens_congr (given .shellWord)]
      cases (fillingOf others request other .shellWord).commandTokens request.pattern <;> rfl

/-- Contexts that differ in all that the pattern does not name, and a token that exists on one disk
only. -/
theorem commandLine_eq_of_other_kind :
    let context : Context :=
      { selection := { path := Path.ofText "/a/f" }
        values := some [("n", "v w"), ("file", "/overridden")] }
    let other : Context :=
      { selection := { path := Path.ofText "/a/f", line := 7, kind := .directory, isExecutable := true }
        other := some (Path.ofText "/o")
        values := some [("n", "v w"), ("line", "9"), ("k", "z")] }
    let surroundings := Surroundings.ofDirectories "/home/me" [Path.ofText "/a"]
    let others := Surroundings.ofDirectories "/home/me" [Path.ofText "/a", Path.ofText "/x"]
    let pattern : Text := "/x {file} {n:path-from-directory} {m}"
    context.AgreesOn pattern other ∧ AgreesAround surroundings context others ∧
      commandLine others other pattern = .ok "/x /a/f /a/v w {m}" ∧
      commandLine surroundings context pattern = .ok "/x /a/f /a/v w {m}" := by
  intro context other surroundings others pattern
  have listed : (Pattern.ofText pattern).placeholders =
      [⟨"file", none⟩, ⟨"n", some "path-from-directory"⟩, ⟨"m", none⟩] := by decide +kernel
  have names : ∀ name, (Pattern.ofText pattern).Names name →
      name = "file" ∨ name = "n" ∨ name = "m" := by
    rintro name ⟨placeholder, member, rfl⟩
    rw [listed] at member
    rcases List.mem_cons.1 member with rfl | member
    · exact .inl rfl
    · rcases List.mem_cons.1 member with rfl | member
      · exact .inr (.inl rfl)
      · exact .inr (.inr (List.mem_singleton.1 member ▸ rfl))
  have agrees : context.AgreesOn pattern other := by
    refine ⟨rfl, fun named => ?_, ?_, fun name named free => ?_⟩
    · exact absurd (names _ named) (by decide)
    · rintro ⟨name, rfl | rfl | rfl, named⟩ <;> exact absurd (names _ named) (by decide)
    · rcases names _ named with rfl | rfl | rfl
      · exact absurd rfl (free .file)
      · decide
      · decide
  have around : AgreesAround surroundings context others := by
    refine ⟨rfl, ?_, by simp [context]⟩
    unfold Disk.AgreesAbove
    decide +kernel
  have expanded : commandLine others other pattern = .ok "/x /a/f /a/v w {m}" := by decide +kernel
  exact ⟨agrees, around, expanded, (expansion_eq_of_agreesOn agrees around).1.trans expanded⟩

end Context

end VerbExpansion
