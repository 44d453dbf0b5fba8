import VerbExpansion.CommandLine.Run
import VerbExpansion.Proofs.Configuration.Reading
import VerbExpansion.Proofs.Text.Blank
import VerbExpansion.Proofs.Verb.Refusal

/-!
# Listings of verbs

A listing is all or nothing: either the file and each of its definitions can be used, and then there is
one entry for each verb, or nothing is listed and the mistake is told. Only a file that interrupts its
reader has neither, and one whose definitions hold a surrogate, at which the listing breaks off
(`exists_isAllOrNothing_iff`).
-/

namespace VerbExpansion

namespace Configuration

open Json

/-- The bytes of a text are readable unless reading stops at a limit. -/
theorem isReadable_toUTF8_iff (string : String) :
    IsReadable string.toUTF8 ↔ ¬ Stops (Value.ofText (Text.ofString string)) := by
  rw [isReadable_iff_of_decoded (utf8Decode?_toUTF8 string), List.toList_toArray, Text.ofString]

/-- Loading is interrupted just by a file that may be opened and holds bytes that are not readable. -/
theorem exists_load_eq_interrupted_iff {disk : Disk} {path : Path} :
    (∃ interruption, load disk path = .error (.interrupted interruption)) ↔
      disk.entry path ≠ .denied ∧ disk.entry path ≠ .directory ∧
        ∃ bytes, disk.content path = some bytes ∧ ¬ IsReadable bytes := by
  unfold load
  split
  · next denied => simp [denied]
  · next isDirectory => simp [isDirectory]
  · next absent =>
    have nothingThere := disk.content_eq_none_of_not_isFile (by rw [absent]; rfl)
    simp [nothingThere]
  · next refused _ _ _ => simp [refused]
  · next bytes held notDenied noDirectory _ =>
    have opens : disk.entry path ≠ .denied := notDenied
    have isFile : disk.entry path ≠ .directory := noDirectory
    simp only [held, opens, isFile, ne_eq, not_false_eq_true, true_and, Option.some.injEq,
      exists_eq_left', ← @exists_document_eq_interrupted_iff bytes path, bind_eq_error_iff]
    refine exists_congr fun interruption => or_iff_left ?_
    rintro ⟨value, _, failed⟩
    split at failed <;> cases failed

end Configuration

namespace Verb

/-- Definitions have a mistake when one of them is refused, wherever it stands. -/
theorem exists_listOfDefinitions_eq_error_iff {definitions : List Definition} :
    (∃ error, listOfDefinitions definitions = .error error) ↔
      ∃ definition ∈ definitions, ∃ error, ofDefinition definition = .error error := by
  constructor
  · rintro ⟨error, failed⟩
    obtain ⟨_, refused, _, rfl, -, isRefused⟩ := listOfDefinitions_eq_error_iff.1 failed
    exact ⟨refused, by simp, error, isRefused⟩
  · rintro ⟨refused, member, error, isRefused⟩
    induction definitions with
    | nil => cases member
    | cons first definitions inductionHypothesis =>
      cases outcome : ofDefinition first with
      | error error => exact ⟨error, bind_eq_error_iff.2 (.inl outcome)⟩
      | ok verb =>
        rcases List.mem_cons.1 member with rfl | member
        · cases isRefused.symm.trans outcome
        · obtain ⟨error, failed⟩ := inductionHypothesis member
          exact ⟨error, bind_eq_error_iff.2 (.inr ⟨verb, outcome, bind_eq_error_iff.2 (.inl failed)⟩)⟩

/-- Each verb of a list comes from a definition. -/
theorem exists_ofDefinition_of_mem {definitions : List Definition} {verbs : List Verb} {verb : Verb}
    (defined : listOfDefinitions definitions = .ok verbs) (member : verb ∈ verbs) :
    ∃ definition, ofDefinition definition = .ok verb := by
  have each := listOfDefinitions_eq_ok_iff.1 defined
  clear defined
  induction each with
  | nil => cases member
  | cons isDefined _ inductionHypothesis =>
    rcases List.mem_cons.1 member with rfl | member
    · exact ⟨_, isDefined⟩
    · exact inductionHypothesis member

end Verb

namespace CommandLine

/-- Whether a command line asks for the verbs of the configuration file at a path that is written so. -/
def ListsFile (arguments : List Text) (file : Text) : Prop :=
  ∃ debug, Request.ofArguments? arguments = some (.list { debug, configuration := .value file })

/-- Whether this is the entry for a verb in a listing with a column of some width for the names. -/
structure IsEntry (width : Nat) (verb : Verb) (entry : Text) : Prop where
  layout : ∃ padding : Text, (∀ character ∈ padding, character = .scalar ' ') ∧
    verb.name.length + padding.length = width ∧
    entry = ("  " : Text) ++ (verb.name ++ padding) ++ ("  " : Text) ++ verb.description ++ ("\n" : Text)
  /-- What the verb does starts at the same column in each entry. -/
  described : entry.drop (2 + width + 2) = verb.description ++ "\n"
  /-- The name is read back as the first word. -/
  named : (Text.firstWord (Text.trimStart entry)).1 = verb.name

/-- Whether the output is one entry for each verb, in order, and the names have a column as wide as the
longest of them. -/
def IsListing (verbs : List Verb) (output : Text) : Prop :=
  ∃ width entries, (∃ verb ∈ verbs, verb.name.length = width) ∧
    (∀ verb ∈ verbs, verb.name.length ≤ width) ∧
    List.Forall₂ (IsEntry width) verbs entries ∧ output = entries.flatten

/-- What is wrong with a configuration file: the file itself, or else the definitions in it. -/
inductive HasMistake (disk : Disk) (path : Path) : ConfigError → Prop where
  | inFile {error : ConfigError} (refused : Configuration.load disk path = .error (.refused error)) :
      HasMistake disk path error
  | inDefinitions {configuration : Configuration} {error : ConfigError}
      (loaded : Configuration.load disk path = .ok configuration)
      (refused : Verb.listOfDefinitions configuration.verbs = .error error) :
      HasMistake disk path error

/-- Whether a configuration file is refused, or one of its definitions. -/
def IsRefused (disk : Disk) (path : Path) : Prop :=
  (∃ error, Configuration.load disk path = .error (.refused error)) ∨
    ∃ configuration, Configuration.load disk path = .ok configuration ∧
      ∃ definition ∈ configuration.verbs, ∃ error, Verb.ofDefinition definition = .error error

/-- A report on a configuration file that either fails and lists nothing, or lists all verbs. -/
structure IsAllOrNothing (disk : Disk) (path : Path) (report : Report) : Prop where
  fails_iff :
    (report.exitCode = 1 ∧ report.output = [] ∧ ∃ error, HasMistake disk path error ∧
        report.errorText = "Error: " ++ error.message ++ "\n") ↔ IsRefused disk path
  succeeds : ¬ IsRefused disk path →
    report.exitCode = 0 ∧ report.errorText = [] ∧ ∃ configuration verbs,
      Configuration.load disk path = .ok configuration ∧
      List.Forall₂ (fun definition verb => Verb.ofDefinition definition = .ok verb)
        configuration.verbs verbs ∧
      (verbs ≠ [] → IsListing verbs report.output)

/-- Whether all that is listed of a configuration file can be printed. -/
def IsPrintable (disk : Disk) (path : Path) : Prop :=
  ∀ configuration verbs, Configuration.load disk path = .ok configuration →
    Verb.listOfDefinitions configuration.verbs = .ok verbs →
    (verbs = [] → path.text.isEncodable = true) ∧
      ∀ verb ∈ verbs, verb.name.isEncodable = true ∧ verb.description.isEncodable = true

/-! ## Entries -/

variable {path : Path}

/-- The greatest length of a name and of what it starts with bounds all of them, and is one of them. -/
theorem foldl_max_length (verbs : List Verb) (start : Nat) :
    let width := verbs.foldl (fun width verb => max width verb.name.length) start
    start ≤ width ∧ (∀ verb ∈ verbs, verb.name.length ≤ width) ∧
      (width = start ∨ ∃ verb ∈ verbs, verb.name.length = width) := by
  induction verbs generalizing start with
  | nil => simp
  | cons first verbs inductionHypothesis =>
    obtain ⟨above, bounds, attained⟩ := inductionHypothesis (max start first.name.length)
    refine ⟨?_, List.forall_mem_cons.2 ⟨?_, bounds⟩, ?_⟩
    · exact (Nat.le_max_left _ _).trans above
    · exact (Nat.le_max_right _ _).trans above
    · rw [List.foldl_cons]
      rcases attained with atStart | ⟨verb, member, longest⟩
      · rcases Nat.le_total first.name.length start with shorter | longer
        · exact .inl (atStart.trans (Nat.max_eq_left shorter))
        · exact .inr ⟨first, List.mem_cons_self, (atStart.trans (Nat.max_eq_right longer)).symm⟩
      · exact .inr ⟨verb, List.mem_cons_of_mem _ member, longest⟩

theorem length_le_nameWidth {verbs : List Verb} {verb : Verb} (member : verb ∈ verbs) :
    verb.name.length ≤ nameWidth verbs :=
  (foldl_max_length verbs 0).2.1 verb member

theorem exists_length_eq_nameWidth {verbs : List Verb} (notEmpty : verbs ≠ []) :
    ∃ verb ∈ verbs, verb.name.length = nameWidth verbs := by
  rcases (foldl_max_length verbs 0).2.2 with zero | attained
  · obtain ⟨verb, member⟩ := List.exists_mem_of_ne_nil verbs notEmpty
    have bounded := length_le_nameWidth member
    rw [nameWidth, zero] at bounded
    exact ⟨verb, member, (Nat.le_zero.1 bounded).trans zero.symm⟩
  · exact attained

/-- A name that is a word is read back from its entry. -/
theorem firstWord_trimStart_entry {name padding : Text} (named : name ≠ [])
    (blankless : ∀ character ∈ name, Text.isBlank character = false)
    (filled : ∀ character ∈ padding, character = .scalar ' ') (description : Text) :
    Text.firstWord (Text.trimStart (("  " : Text) ++ (name ++ (padding ++ (("  " : Text) ++
      description))))) = (name, padding ++ (("  " : Text) ++ description)) := by
  have indent : ∀ character ∈ ("  " : Text), Text.isBlank character = true := by decide
  rw [Text.trimStart_append indent, Text.trimStart_eq_self, Text.firstWord_append blankless]
  · intro character isFirst
    cases padding with
    | nil =>
      cases isFirst
      rfl
    | cons first padding =>
      cases isFirst
      rw [filled character List.mem_cons_self]
      rfl
  · intro character isFirst
    rw [List.head?_append_of_ne_nil _ named] at isFirst
    exact blankless character (List.mem_of_head? isFirst)

/-- The line of a verb is an entry, since its name is a word. -/
theorem isEntry_verbLine {width : Nat} {verb : Verb} (named : verb.name ≠ [])
    (blankless : ∀ character ∈ verb.name, Text.isBlank character = false)
    (fits : verb.name.length ≤ width) : IsEntry width verb (verbLine width verb) := by
  obtain ⟨padding, padded, filled, length⟩ : ∃ padding : Text,
      CommandLine.padded width verb.name = verb.name ++ padding ∧
        (∀ character ∈ padding, character = .scalar ' ') ∧ verb.name.length + padding.length = width :=
    ⟨_, rfl, fun _ member => List.eq_of_mem_replicate member, by simp; omega⟩
  have spelled : verbLine width verb = ("  " : Text) ++ (verb.name ++ padding) ++ ("  " : Text) ++
      verb.description ++ ("\n" : Text) := by
    rw [verbLine, padded]
  refine ⟨⟨padding, filled, length, spelled⟩, ?_, ?_⟩
  · have lead : (("  " : Text) ++ (verb.name ++ padding) ++ ("  " : Text)).length = 2 + width + 2 := by
      simp only [List.length_append, length]
      rfl
    rw [spelled, List.append_assoc _ verb.description, List.drop_left' lead]
  · rw [spelled]
    simp only [List.append_assoc]
    rw [firstWord_trimStart_entry named blankless filled]

/-- The listing of verbs that definitions define has one entry for each. -/
theorem isListing_listing {definitions : List Definition} {verbs : List Verb} (path : Path)
    (defined : Verb.listOfDefinitions definitions = .ok verbs) (notEmpty : verbs ≠ []) :
    IsListing verbs (listing path verbs).flatten := by
  refine ⟨nameWidth verbs, verbs.map (verbLine (nameWidth verbs)),
    exists_length_eq_nameWidth notEmpty, fun verb member => length_le_nameWidth member, ?_, ?_⟩
  · rw [List.forall₂_map_right_iff, List.forall₂_same]
    intro verb member
    obtain ⟨definition, isDefined⟩ := Verb.exists_ofDefinition_of_mem defined member
    have isVerb := Verb.isDefinedBy_of_ofDefinition isDefined
    exact isEntry_verbLine isVerb.named isVerb.nameBlankless (length_le_nameWidth member)
  · cases verbs with
    | nil => exact absurd rfl notEmpty
    | cons first verbs => rfl

/-- A line can be printed when the name and the description in it can. -/
theorem isEncodable_verbLine {width : Nat} {verb : Verb} :
    (verbLine width verb).isEncodable = true ↔
      verb.name.isEncodable = true ∧ verb.description.isEncodable = true := by
  have spaces : ∀ count, Text.isEncodable (List.replicate count (.scalar ' ')) = true := by
    simp [Text.isEncodable]
  simp [verbLine, padded, spaces]

theorem forall_isEncodable_listing_iff {verbs : List Verb} :
    (∀ line ∈ listing path verbs, line.isEncodable = true) ↔
      (verbs = [] → path.text.isEncodable = true) ∧
        ∀ verb ∈ verbs, verb.name.isEncodable = true ∧ verb.description.isEncodable = true := by
  cases verbs with
  | nil => simp [listing]
  | cons first verbs =>
    simp only [listing, List.forall_mem_map, isEncodable_verbLine, reduceCtorEq, false_implies,
      true_and]

/-! ## Reports -/

variable {world : World} {arguments : List Text} {file : Text} {debug : Bool}

theorem isAllOrNothing_failure {disk : Disk} {error : ConfigError} (notices : List Notice)
    (mistake : HasMistake disk path error) (refused : IsRefused disk path) :
    IsAllOrNothing disk path (.failure error notices) where
  fails_iff := ⟨fun _ => refused, fun _ => ⟨rfl, rfl, _, mistake, rfl⟩⟩
  succeeds accepted := absurd refused accepted

theorem isAllOrNothing_success {disk : Disk} {configuration : Configuration} {verbs : List Verb}
    (notices : List Notice) (loaded : Configuration.load disk path = .ok configuration)
    (defined : Verb.listOfDefinitions configuration.verbs = .ok verbs) :
    IsAllOrNothing disk path (.success (listing path verbs).flatten notices) := by
  have accepted : ¬ IsRefused disk path := by
    rintro (⟨error, refused⟩ | ⟨other, otherLoaded, refused⟩)
    · cases loaded.symm.trans refused
    · cases loaded.symm.trans otherLoaded
      obtain ⟨error, failed⟩ := Verb.exists_listOfDefinitions_eq_error_iff.2 refused
      cases defined.symm.trans failed
  constructor
  case fails_iff =>
    refine ⟨?_, fun refused => absurd refused accepted⟩
    rintro ⟨failed, -⟩
    cases failed
  case succeeds =>
    exact fun _ => ⟨rfl, rfl, configuration, verbs, loaded, Verb.listOfDefinitions_eq_ok_iff.1 defined,
      isListing_listing path defined⟩

/-- The report on a file is all or nothing, unless the file interrupts its reader or the listing of its
verbs cannot be printed. -/
theorem exists_listFile_eq_ok_iff :
    (∃ report, listFile world debug path = .ok report ∧ IsAllOrNothing world.disk path report) ↔
      (¬ ∃ interruption, Configuration.load world.disk path = .error (.interrupted interruption)) ∧
        IsPrintable world.disk path := by
  unfold listFile IsPrintable
  rcases loaded : Configuration.load world.disk path with (error | interruption) | configuration
  · refine iff_of_true ⟨_, rfl, ?_⟩ (by simp)
    exact isAllOrNothing_failure _ (.inFile loaded) (.inl ⟨error, loaded⟩)
  · exact iff_of_false (by simp) (by simp)
  · cases defined : Verb.listOfDefinitions configuration.verbs with
    | error error =>
      have refused := Verb.exists_listOfDefinitions_eq_error_iff.1 ⟨error, defined⟩
      simp only [defined]
      refine iff_of_true ⟨_, rfl, ?_⟩ ⟨by simp, ?_⟩
      · exact isAllOrNothing_failure _ (.inDefinitions loaded defined)
          (.inr ⟨configuration, loaded, refused⟩)
      · rintro _ verbs ⟨⟩ accepted
        cases defined.symm.trans accepted
    | ok verbs =>
      simp only [defined, Report.printing_eq_ok_iff, forall_isEncodable_listing_iff]
      constructor
      · rintro ⟨_, ⟨printable, -⟩, -⟩
        refine ⟨by simp, ?_⟩
        rintro _ _ ⟨⟩ definedAlso
        cases defined.symm.trans definedAlso
        exact printable
      · rintro ⟨-, printable⟩
        exact ⟨_, ⟨printable configuration verbs rfl defined, rfl⟩,
          isAllOrNothing_success _ loaded defined⟩

/-! ## Runs -/

theorem mark?_of_not_dash {Name : Type} {grammar : Grammar Name} {argument : Text}
    (noDash : argument.head? ≠ some (.scalar '-')) :
    grammar.mark? argument = some (.plain argument) := by
  unfold Grammar.mark?
  split
  · exact absurd rfl noDash
  · exact absurd rfl noDash
  · rfl

/-- A file is named by the setting for it, unless it looks like an option. -/
theorem listsFile_of_not_dash (noDash : file.head? ≠ some (.scalar '-')) :
    ListsFile ["verbs", "--config", file] file := by
  have notSeparator : file ≠ separator := by
    rintro rfl
    exact noDash rfl
  have wanted : RequestKind.split ["verbs", "--config", file] =
      (RequestKind.list, [("--config" : Text), file]) := by
    have verbs : ("verbs" : Text) ≠ "internal" := by decide
    rw [RequestKind.split, if_neg verbs, if_pos rfl]
  have setting : listGrammar.mark? "--config" = some (.setting .configuration none) := by rfl
  have marks : listGrammar.marks? ["--config", file] =
      some [.setting .configuration none, .plain file] := by
    have notSeparating : ("--config" : Text) ≠ separator := by decide
    simp only [Grammar.marks?, if_neg notSeparating, if_neg notSeparator, setting,
      mark?_of_not_dash noDash]
  refine ⟨false, ?_⟩
  simp only [Request.ofArguments?, wanted, RequestKind.request?, Reading.ofArguments, marks]
  rfl

/-- A run that lists the verbs of a file has a report that is all or nothing, unless loading the file is
interrupted or the listing cannot be printed. -/
theorem exists_run_eq_ok_iff (lists : ListsFile arguments file) :
    (∃ report, run world arguments = .ok (some report) ∧
        IsAllOrNothing world.disk (Path.ofText file) report) ↔
      (¬ ∃ interruption,
        Configuration.load world.disk (Path.ofText file) = .error (.interrupted interruption)) ∧
        IsPrintable world.disk (Path.ofText file) := by
  obtain ⟨debug, understood⟩ := lists
  have listed : (∃ report, listFile world debug (Path.ofText file) = .ok report ∧
      IsAllOrNothing world.disk (Path.ofText file) report) ↔ _ := exists_listFile_eq_ok_iff
  rw [← listed]
  exact exists_congr fun report => and_congr_left fun _ => run_eq_ok_iff understood

/-- A world with one file on its disk. -/
def worldOfFile (path : Path) (bytes : ByteArray) : World where
  disk := {
    entry := fun other => if other = path then .file else .missing
    content := fun other => if other = path then some bytes else none
    isFile_of_content := fun other held => by
      by_cases same : other = path
      · rw [if_pos same]
        rfl
      · simp [same] at held }
  home := "/home/me"
  environment? := fun _ => none
  defaultConfiguration := Path.ofText "/home/me/.verbexec/config.json"
  toTerminal := false

/-- The only file holds the configuration that its document writes. -/
theorem load_worldOfFile {path : Path} {string : String} {configuration : Configuration}
    (written : (Json.Value.ofText (Text.ofString string)).map Configuration.ofJson =
      .ok (.valid configuration)) :
    Configuration.load (worldOfFile path string.toUTF8).disk path = .ok configuration := by
  cases read : Json.Value.ofText (Text.ofString string) with
  | error fault =>
    rw [read] at written
    cases written
  | ok value =>
    rw [read] at written
    have valid : Configuration.ofJson value = .valid configuration := Except.ok.inj written
    simp only [Configuration.load, worldOfFile, if_true, Configuration.document_toUTF8 read, bind,
      Except.bind, valid]
    rfl

end CommandLine

end VerbExpansion
