import VerbExpansion.Expansion
import VerbExpansion.Proofs.Filling.Outcome
import VerbExpansion.Proofs.Filling.Text

/-!
# What an expansion looks up

Only the directories that placeholders ask for are looked up on the disk. When none of these lookups
is denied, every placeholder has an answer, in either style (`answers_of_undenied`), but for a line
whose number is too long to be written (`eq_oversizedLine_of_settled`). What a name that is set aside
stands for is the same path or the same line number in both styles (`exists_referent`).
-/

namespace VerbExpansion

/-- A lookup of a directory fails in one way only. -/
theorem Disk.eq_accessDenied_of_closestDirectory {disk : Disk} {path : Path}
    {interruption : Interruption} (failed : disk.closestDirectory path = .error interruption) :
    interruption = .accessDenied := by
  fun_induction Disk.closestDirectory disk path <;> simp_all

theorem Disk.exists_closestDirectory {disk : Disk} {path : Path}
    (undenied : disk.closestDirectory path ≠ .error .accessDenied) :
    ∃ directory, disk.closestDirectory path = .ok directory := by
  cases answer : disk.closestDirectory path with
  | ok directory => exact ⟨directory, rfl⟩
  | error interruption =>
    rw [Disk.eq_accessDenied_of_closestDirectory answer] at answer
    exact absurd answer undenied

/-- A disk that denies nothing answers every lookup. -/
theorem Disk.closestDirectory_ne_accessDenied {disk : Disk}
    (accessible : ∀ path, disk.entry path ≠ .denied) (path : Path) :
    disk.closestDirectory path ≠ .error .accessDenied := by
  fun_induction Disk.closestDirectory disk path
  case case1 path denied => exact absurd denied (accessible path)
  all_goals first
    | assumption
    | exact fun same => by cases same

/-- Surroundings where nothing is denied, and nothing exists but these directories. -/
def Surroundings.ofDirectories (home : Text) (directories : List Path) : Surroundings :=
  { disk := { entry := fun path => if path ∈ directories then .directory else .missing
              content := fun _ => none }
    home }

namespace Context

/-- The path whose closest directory a placeholder asks for, if it asks for one. -/
def lookedUp? (context : Context) (placeholder : Placeholder) : Option Path :=
  match placeholder.contextName? with
  | some .directory => some context.selection.path
  | some .otherPanelDirectory => context.other
  | some _ => none
  | none =>
    if (context.value? placeholder.name).isSome ∧ placeholder.pathBase? = some .directory then
      some context.selection.path
    else none

/-- Whether the disk answers every lookup that the placeholders of a pattern need. -/
def Undenied (surroundings : Surroundings) (context : Context) (pattern : Text) : Prop :=
  ∀ placeholder ∈ (Pattern.ofText pattern).placeholders,
    ∀ path, context.lookedUp? placeholder = some path →
      surroundings.disk.closestDirectory path ≠ .error .accessDenied

/-- Whether a pattern asks for the line, and its number is too long to be written. -/
def AsksForLongLine (context : Context) (pattern : Text) : Prop :=
  context.selection.hasShortLine = false ∧
    ∃ placeholder ∈ (Pattern.ofText pattern).placeholders, placeholder.contextName? = some .line

instance (context : Context) (pattern : Text) : Decidable (AsksForLongLine context pattern) :=
  inferInstanceAs (Decidable (_ ∧ _))

/-- Whether nothing keeps a placeholder from having an answer. -/
structure IsAnswerable (surroundings : Surroundings) (context : Context)
    (placeholder : Placeholder) : Prop where
  undenied : ∀ path, context.lookedUp? placeholder = some path →
    surroundings.disk.closestDirectory path ≠ .error .accessDenied
  shortLine : placeholder.contextName? = some .line → context.selection.hasShortLine = true

variable {surroundings : Surroundings} {context : Context} {placeholder : Placeholder}

theorem isAnswerable_of_undenied {pattern : Text} (undenied : Undenied surroundings context pattern)
    (short : ¬ AsksForLongLine context pattern)
    (member : placeholder ∈ (Pattern.ofText pattern).placeholders) :
    IsAnswerable surroundings context placeholder := by
  refine ⟨undenied placeholder member, fun named => ?_⟩
  by_contra isLong
  exact short ⟨Bool.eq_false_iff.2 isLong, placeholder, member, named⟩

/-- Surroundings that only know directories deny nothing. -/
theorem undenied_ofDirectories (home : Text) (directories : List Path) (context : Context)
    (pattern : Text) : Undenied (.ofDirectories home directories) context pattern := by
  intro placeholder _ path _
  refine Disk.closestDirectory_ne_accessDenied (fun path => ?_) path
  show (if path ∈ directories then Entry.directory else .missing) ≠ .denied
  split <;> exact Entry.noConfusion

/-- A line of few digits is no obstacle to any pattern. -/
theorem not_asksForLongLine_of_hasShortLine (short : context.selection.hasShortLine = true)
    (pattern : Text) : ¬ AsksForLongLine context pattern :=
  fun asks => Bool.false_ne_true (asks.1.symm.trans short)

/-- What a name that is set aside stands for. -/
inductive Referent where
  | place (path : Path)
  | lineNumber (number : Int)
  /-- There is no other panel to take it from. -/
  | absent
  deriving DecidableEq

/-- What is written for it. -/
def Referent.write? (style : PathStyle) : Referent → Option Text
  | place path => some (style.write path)
  | lineNumber number => some (Text.ofInteger number)
  | absent => none

/-- A name that is set aside stands for the same in both styles. -/
theorem exists_referent {name : ContextName} (named : placeholder.contextName? = some name)
    (answerable : IsAnswerable surroundings context placeholder) :
    ∃ referent : Referent, ∀ style,
      filling? surroundings context style placeholder = .ok (referent.write? style) := by
  obtain ⟨undenied, shortLine⟩ := answerable
  simp only [filling?, named]
  simp only [lookedUp?, named] at undenied
  cases name with
  | line =>
    refine ⟨.lineNumber context.selection.line, fun style => ?_⟩
    rw [namedText?, Selection.lineText, if_pos (shortLine named)]
    rfl
  | file => exact ⟨.place context.selection.path, fun _ => rfl⟩
  | directory =>
    obtain ⟨directory, found⟩ := Disk.exists_closestDirectory (undenied _ rfl)
    refine ⟨.place directory, fun style => ?_⟩
    simp only [namedText?, found]
    rfl
  | parent => exact ⟨.place context.selection.path.parent, fun _ => rfl⟩
  | otherPanelFile =>
    cases other : context.other with
    | none => exact ⟨.absent, fun _ => by simp [namedText?, other, Referent.write?]⟩
    | some path => exact ⟨.place path, fun _ => by simp [namedText?, other, Referent.write?]⟩
  | otherPanelDirectory =>
    cases other : context.other with
    | none => exact ⟨.absent, fun _ => by simp [namedText?, other, Referent.write?]⟩
    | some path =>
      obtain ⟨directory, found⟩ := Disk.exists_closestDirectory (undenied path other)
      refine ⟨.place directory, fun style => ?_⟩
      simp only [namedText?, other, found]
      rfl
  | otherPanelParent =>
    cases other : context.other with
    | none => exact ⟨.absent, fun _ => by simp [namedText?, other, Referent.write?]⟩
    | some path => exact ⟨.place path.parent, fun _ => by simp [namedText?, other, Referent.write?]⟩

theorem exists_baseDirectory {base : PathBase}
    (undenied : base = .directory →
      surroundings.disk.closestDirectory context.selection.path ≠ .error .accessDenied) :
    ∃ directory, baseDirectory surroundings context base = .ok directory := by
  cases base with
  | directory => exact Disk.exists_closestDirectory (undenied rfl)
  | parent => exact ⟨context.selection.path.parent, rfl⟩

/-- A typed value is formatted unless a lookup is denied. -/
theorem exists_formatted {value : Text} (free : placeholder.contextName? = none)
    (typed : context.value? placeholder.name = some value)
    (undenied : ∀ path, context.lookedUp? placeholder = some path →
      surroundings.disk.closestDirectory path ≠ .error .accessDenied) :
    ∃ text, formatted surroundings context value placeholder.format = .ok text := by
  cases written : placeholder.format with
  | none => exact ⟨value, rfl⟩
  | some format =>
    cases known : PathBase.ofText? format with
    | none => exact ⟨"invalid format: " ++ Text.quoted format, by rw [formatted, known]⟩
    | some base =>
      have based : base = .directory →
          context.lookedUp? placeholder = some context.selection.path := by
        rintro rfl
        simp [lookedUp?, free, typed, Placeholder.pathBase?, written, known]
      obtain ⟨directory, found⟩ :=
        exists_baseDirectory fun isDirectory => undenied _ (based isDirectory)
      refine ⟨(Path.resolve surroundings.home directory value).text, ?_⟩
      rw [formatted, known]
      simp only [found]
      rfl

/-- A typed value is not formatted when the directory that its format asks for is denied. -/
theorem formatted_eq_accessDenied {value : Text} (asks : placeholder.pathBase? = some .directory)
    (denied : surroundings.disk.closestDirectory context.selection.path = .error .accessDenied) :
    formatted surroundings context value placeholder.format = .error .accessDenied := by
  obtain ⟨format, written, known⟩ := Option.bind_eq_some_iff.1 asks
  rw [written, formatted, known]
  simp only [baseDirectory, denied]
  rfl

/-- A placeholder has an answer unless something keeps it from having one. -/
theorem exists_filling? (style : PathStyle)
    (answerable : IsAnswerable surroundings context placeholder) :
    ∃ answer, filling? surroundings context style placeholder = .ok answer := by
  cases named : placeholder.contextName? with
  | some name =>
    obtain ⟨referent, written⟩ := exists_referent named answerable
    exact ⟨_, written style⟩
  | none =>
    cases typed : context.value? placeholder.name with
    | none => exact ⟨none, by simp only [filling?, named, typed]⟩
    | some value =>
      obtain ⟨text, formatted⟩ := exists_formatted named typed answerable.undenied
      exact ⟨some text, by simp only [filling?, named, typed, formatted]; rfl⟩

/-- Where no lookup is denied, every placeholder has an answer, unless the line is too long. -/
theorem answers_of_undenied {pattern : Text} (undenied : Undenied surroundings context pattern)
    (short : ¬ AsksForLongLine context pattern) (style : PathStyle) :
    (filling? surroundings context style).Answers pattern :=
  fun _ member => exists_filling? style (isAnswerable_of_undenied undenied short member)

/-- Where no lookup is denied there is a command line: the filled pattern, cut and joined again. -/
theorem commandLine_eq_ok {pattern : Text} (undenied : Undenied surroundings context pattern)
    (short : ¬ AsksForLongLine context pattern) :
    commandLine surroundings context pattern =
      .ok (Token.joined .paired
        ((Pattern.ofText pattern).filled (filling? surroundings context .shellWord).text)) :=
  Filling.commandLine_eq_ok (answers_of_undenied undenied short .shellWord)

/-! ## Lines that are too long -/

theorem filling?_eq_oversizedLine (named : placeholder.contextName? = some .line)
    (long : context.selection.hasShortLine = false) (style : PathStyle) :
    filling? surroundings context style placeholder = .error .oversizedLine := by
  simp only [filling?, named, namedText?, Selection.lineText, long]
  rfl

/-- A job that asks for a line that is too long stops there, when no lookup is denied. -/
theorem eq_oversizedLine_of_settled {Result : Type} {style : PathStyle}
    {placeholders : List Placeholder} {outcome : Except Interruption Result}
    (settled : (filling? surroundings context style).Settled placeholders outcome)
    (undenied : ∀ placeholder ∈ placeholders, ∀ path, context.lookedUp? placeholder = some path →
      surroundings.disk.closestDirectory path ≠ .error .accessDenied)
    (long : context.selection.hasShortLine = false) (member : placeholder ∈ placeholders)
    (named : placeholder.contextName? = some .line) : outcome = .error .oversizedLine := by
  cases settled with
  | answered answers =>
    obtain ⟨answer, answered⟩ := answers placeholder member
    cases (filling?_eq_oversizedLine named long style).symm.trans answered
  | @interrupted before after first interruption split _ failed =>
    have inPlaceholders : first ∈ placeholders := by rw [split]; simp
    by_cases isLine : first.contextName? = some .line
    · cases (filling?_eq_oversizedLine isLine long style).symm.trans failed
      rfl
    · obtain ⟨answer, answered⟩ := exists_filling? style
        ⟨undenied first inPlaceholders, fun isNamed => absurd isNamed isLine⟩
      cases answered.symm.trans failed

/-- Where no lookup is denied there is no command line when the line is too long. -/
theorem commandLine_eq_oversizedLine {pattern : Text}
    (undenied : Undenied surroundings context pattern) (long : AsksForLongLine context pattern) :
    commandLine surroundings context pattern = .error .oversizedLine := by
  obtain ⟨isLong, _, member, named⟩ := long
  exact eq_oversizedLine_of_settled (Filling.settled_commandLine pattern) undenied isLong member named

end Context

/-- The digits and the sign of a numeral are plain. -/
theorem Text.isPlain_of_mem_ofInteger {number : Int} {character : Character}
    (member : character ∈ Text.ofInteger number) : Shell.isPlain character = true := by
  have plainDigit : ∀ {natural : Nat}, character ∈ Text.ofNatural natural →
      Shell.isPlain character = true := by
    intro natural isDigit
    obtain ⟨digit, digitMember, rfl⟩ := List.mem_map.1 isDigit
    have range := Nat.isDigit_of_mem_toDigits (by decide) (by decide) digitMember
    simp only [Char.isDigit, Bool.and_eq_true, decide_eq_true_eq] at range
    have low : 0x30 ≤ digit.toNat := range.1
    have high : digit.toNat ≤ 0x39 := range.2
    simp [Shell.isPlain, Shell.isLetterOrDigit, Character.toNat, low, high]
  cases number with
  | ofNat natural => exact plainDigit member
  | negSucc natural =>
    rcases List.mem_cons.1 member with rfl | digit
    · decide
    · exact plainDigit digit

theorem Text.ofInteger_ne_nil (number : Int) : Text.ofInteger number ≠ [] := by
  cases number with
  | ofNat natural => simp [Text.ofInteger, Text.ofNatural, Nat.toDigits_ne_nil]
  | negSucc natural => exact List.cons_ne_nil _ _

end VerbExpansion
