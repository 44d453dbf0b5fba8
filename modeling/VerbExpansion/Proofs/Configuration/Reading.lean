import VerbExpansion.Configuration
import VerbExpansion.Proofs.Json.Limits

/-!
# How reading a configuration ends

Reading a configuration gives one, or says what its author can mend, unless the file is not UTF-8 or
its document goes past a limit: then the reader is interrupted (`reports_load_iff_and_eq_of_absent`).
-/

namespace VerbExpansion.Configuration

open Json

/-- Whether reading gave a configuration, or a mistake to report. -/
def Reports (outcome : Except Failure Configuration) : Prop :=
  (∃ configuration, outcome = .ok configuration) ∨ ∃ error, outcome = .error (.refused error)

/-- Whether the bytes are a text in UTF-8, with nothing past a limit where a value is awaited. -/
def IsReadable (bytes : ByteArray) : Prop :=
  ∃ string : String, bytes = string.toUTF8 ∧
    ¬ ExceedsLimit (Lexeme.listOfText (Text.ofString string))

variable {bytes : ByteArray} {characters : Array Char} {path : Path}

theorem utf8Decode?_toUTF8 (string : String) :
    string.toUTF8.utf8Decode? = some string.toList.toArray := by
  rw [String.toUTF8_eq_toByteArray, ← String.utf8Encode_toList, List.utf8Decode?_utf8Encode]

/-- The bytes of a text hold the document that the text is read as. -/
theorem document_toUTF8 {string : String} {value : Value}
    (read : Value.ofText (Text.ofString string) = .ok value) (path : Path) :
    document path string.toUTF8 = .ok value := by
  rw [Text.ofString] at read
  rw [document, utf8Decode?_toUTF8]
  simp only [read]

/-- The bytes that can be decoded are those of a text. -/
theorem eq_toUTF8_of_decoded (decoded : bytes.utf8Decode? = some characters) :
    bytes = (String.ofList characters.toList).toUTF8 := by
  have encoded : (bytes.utf8Decode?.get (by rw [decoded]; rfl)).toList.utf8Encode = bytes :=
    ByteArray.utf8Encode_get_utf8Decode?
  simp only [decoded, Option.get_some] at encoded
  rw [String.toUTF8_eq_toByteArray, ← String.utf8Encode_toList, String.toList_ofList, encoded]

theorem not_isReadable_of_undecodable (undecodable : bytes.utf8Decode? = none) :
    ¬ IsReadable bytes := by
  rintro ⟨string, rfl, -⟩
  cases undecodable.symm.trans (utf8Decode?_toUTF8 string)

/-- The text in bytes that can be decoded decides whether they are readable. -/
theorem isReadable_iff_of_decoded (decoded : bytes.utf8Decode? = some characters) :
    IsReadable bytes ↔ ¬ Stops (Value.ofText (characters.toList.map .scalar)) := by
  rw [stops_ofText_iff]
  constructor
  · rintro ⟨string, rfl, within⟩
    obtain rfl := Option.some.inj (decoded.symm.trans (utf8Decode?_toUTF8 string))
    rwa [List.toList_toArray]
  · intro within
    refine ⟨String.ofList characters.toList, eq_toUTF8_of_decoded decoded, ?_⟩
    rwa [Text.ofString, String.toList_ofList]

/-- The reader is interrupted at the bytes that are not readable, and at no others. -/
theorem exists_document_eq_interrupted_iff :
    (∃ interruption, document path bytes = .error (.interrupted interruption)) ↔
      ¬ IsReadable bytes := by
  cases decoded : bytes.utf8Decode? with
  | none => simp [document, decoded, not_isReadable_of_undecodable decoded]
  | some characters =>
    rw [isReadable_iff_of_decoded decoded, Classical.not_not]
    simp only [document, decoded]
    split <;> simp [Stops, *]

/-- A job that goes on without interruptions is interrupted only in its first part. -/
theorem reports_bind_iff {Part : Type} {part : Except Failure Part}
    {rest : Part → Except Failure Configuration} (restReports : ∀ done, Reports (rest done)) :
    Reports (part >>= rest) ↔ ¬ ∃ interruption, part = .error (.interrupted interruption) := by
  rcases part with (error | interruption) | done
  · exact ⟨fun _ => by simp, fun _ => .inr ⟨error, rfl⟩⟩
  · simp [Reports, bind, Except.bind]
  · exact ⟨fun _ => by simp, fun _ => restReports done⟩

/-- Reading the configuration at a path gives one or reports a mistake, just when the file there may
not be opened, is a directory, is absent, or holds readable bytes. What is absent is a configuration
without verbs. Paths of which a disk cannot be asked at all, with the character U+0000 or a surrogate
that stands for no byte, are left out. -/
theorem reports_load_iff_and_eq_of_absent (disk : Disk) (path : Path) :
    (Reports (load disk path) ↔
      disk.entry path = .denied ∨ disk.entry path = .directory ∨
        ∀ bytes, disk.content path = some bytes → IsReadable bytes) ∧
    (disk.entry path = .missing → load disk path = .ok { verbs := [] }) := by
  refine ⟨?_, fun absent => by simp only [load, absent]⟩
  unfold load
  split
  · next denied => simp [Reports, denied]
  · next isDirectory => simp [Reports, isDirectory]
  · next absent =>
    have nothingThere := disk.content_eq_none_of_not_isFile (by rw [absent]; rfl)
    simp [Reports, nothingThere]
  · next refused _ _ _ => simp [Reports, refused]
  · next bytes held notDenied noDirectory _ =>
    have opens : disk.entry path ≠ .denied := notDenied
    have isFile : disk.entry path ≠ .directory := noDirectory
    rw [reports_bind_iff, exists_document_eq_interrupted_iff, Classical.not_not]
    · simp [held, opens, isFile]
    · intro value
      split <;> simp [Reports, pure, Except.pure, throw, throwThe, MonadExceptOf.throw]

/-- A byte that no text in UTF-8 has in it is neither a configuration nor a mistake to report. -/
theorem not_reports_load_of_lone_byte :
    let disk : Disk :=
      { entry := fun _ => .file, content := fun _ => some ⟨#[0xFF]⟩
        isFile_of_content := fun _ _ => rfl }
    let path : Path := Path.ofText "/cfg/config.json"
    load disk path = .error (.interrupted .undecodable) ∧ ¬ Reports (load disk path) := by
  intro disk path
  have undecodable : (ByteArray.mk #[0xFF]).utf8Decode? = none := by decide +kernel
  have interrupted : load disk path = .error (.interrupted .undecodable) := by
    simp [load, document, disk, undecodable, bind, Except.bind]
  refine ⟨interrupted, ?_⟩
  rw [interrupted]
  simp [Reports]

end VerbExpansion.Configuration
