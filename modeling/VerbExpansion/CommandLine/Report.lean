import VerbExpansion.ConfigError
import VerbExpansion.Interruption
import VerbExpansion.Notice

/-!
# Reports of the command line

What a run leaves behind: an exit code, what it prints, and what it has to tell besides.
-/

namespace VerbExpansion.CommandLine

/-- What has been printed when one more text is printed. What cannot be encoded is not printed. -/
def printNext (printed text : Text) : Except Interruption Text :=
  if text.isEncodable then .ok (printed ++ text) else .error (.unencodable printed)

/-- Texts are printed one after the other when all of them can be encoded. -/
theorem foldlM_printNext_eq_ok_iff {texts : List Text} {printed output : Text} :
    texts.foldlM printNext printed = .ok output ↔
      (∀ text ∈ texts, text.isEncodable = true) ∧ output = printed ++ texts.flatten := by
  induction texts generalizing printed with
  | nil =>
    rw [List.flatten_nil, List.append_nil, eq_comm (a := output)]
    exact ⟨fun same => ⟨List.forall_mem_nil _, Except.ok.inj same⟩, fun same => congrArg _ same.2⟩
  | cons text texts inductionHypothesis =>
    rw [List.foldlM_cons, printNext]
    split
    · next encodable =>
      show texts.foldlM printNext (printed ++ text) = _ ↔ _
      rw [inductionHypothesis, List.forall_mem_cons, List.flatten_cons, List.append_assoc]
      simp only [encodable, true_and]
    · next notEncodable =>
      exact iff_of_false (fun stopped => nomatch stopped)
        fun printable => notEncodable (printable.1 text List.mem_cons_self)

example : [("a\n" : Text), [.surrogate 0], "b\n"].foldlM printNext [] =
    .error (.unencodable "a\n") :=
  rfl

/-- What a run leaves behind. -/
structure Report where
  exitCode : Nat
  output : Text
  /-- What is told beside the output, in order. -/
  notices : List Notice := []
  /-- The mistake that made the run fail. -/
  error : Option ConfigError := none

namespace Report

/-- The report of a run that succeeds. -/
def success (output : Text) (notices : List Notice) : Report :=
  ⟨0, output, notices, none⟩

/-- The report of a run that prints texts one after the other and then succeeds. -/
def printing (texts : List Text) (notices : List Notice) : Except Interruption Report := do
  let output ← texts.foldlM printNext []
  return success output notices

theorem printing_eq_ok_iff {texts : List Text} {notices : List Notice} {report : Report} :
    printing texts notices = .ok report ↔
      (∀ text ∈ texts, text.isEncodable = true) ∧ report = success texts.flatten notices := by
  cases printed : texts.foldlM printNext [] with
  | error interruption =>
    have unprintable : ¬ ∀ text ∈ texts, text.isEncodable = true := fun encodable => by
      cases printed.symm.trans (foldlM_printNext_eq_ok_iff.2 ⟨encodable, rfl⟩)
    simp [printing, printed, unprintable, bind, Except.bind]
  | ok output =>
    obtain ⟨encodable, rfl⟩ := foldlM_printNext_eq_ok_iff.1 printed
    simp only [printing, printed, bind, Except.bind, pure, Except.pure, Except.ok.injEq]
    exact ⟨fun same => ⟨encodable, same.symm⟩, fun same => same.2.symm⟩

/-- The report of a run that a mistake makes fail. -/
def failure (error : ConfigError) (notices : List Notice) : Report :=
  ⟨1, [], notices, some error⟩

/-- The notices that are told: warnings always, and the others when asked for. -/
def told (debug : Bool) (notices : List Notice) : List Notice :=
  notices.filter fun notice => debug || notice.isWarning

/-- The lines of the notices. -/
def noticeText (report : Report) : Text :=
  report.notices.flatMap Notice.line

/-- The line about the mistake, if there is one. -/
def errorText (report : Report) : Text :=
  match report.error with
  | none => []
  | some error => "Error: " ++ error.message ++ "\n"

end Report

end VerbExpansion.CommandLine
