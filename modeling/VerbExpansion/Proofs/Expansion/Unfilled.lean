import VerbExpansion.Proofs.Expansion.Lookups
import VerbExpansion.Proofs.Token.Alike

/-!
# Patterns without placeholders

Where there is nothing to fill, a command line is the pattern cut with paired quotes and joined again,
and the arguments are the pattern cut with ordinary quotes. Nothing is looked up for either. The line is
the arguments joined, as long as the two kinds of quotes come to the same
(`commandLine_eq_ok_and_modesAgree_iff`).
-/

namespace VerbExpansion.Context

/-- Whether the command line of a pattern is its arguments with one space between them. -/
def ModesAgree (surroundings : Surroundings) (context : Context) (pattern : Text) : Prop :=
  ∃ texts, arguments surroundings context pattern = .ok texts ∧
    commandLine surroundings context pattern = .ok (Text.spaced texts)

variable {pattern : Text}

/-- Nothing needs an answer where there are no placeholders. -/
theorem answers_of_no_placeholders (noPlaceholders : (Pattern.ofText pattern).placeholders = [])
    (filling : Filling) : filling.Answers pattern := by
  intro placeholder member
  rw [noPlaceholders] at member
  cases member

theorem filled_ofText_of_no_placeholders {part : Text} {texts : Placeholder → Text}
    (noPlaceholders : (Pattern.ofText pattern).placeholders = []) (infixOf : part <:+: pattern) :
    (Pattern.ofText part).filled texts = part := by
  have noneInPart : (Pattern.ofText part).placeholders = [] := by
    have subset := Pattern.placeholders_subset_of_isInfix infixOf
    rw [noPlaceholders] at subset
    exact List.subset_nil.1 subset
  rw [Pattern.filled_of_placeholders_eq_nil noneInPart, Pattern.source_ofText]

theorem commandLine_of_no_placeholders (surroundings : Surroundings) (context : Context)
    (noPlaceholders : (Pattern.ofText pattern).placeholders = []) :
    commandLine surroundings context pattern = .ok (Token.joined .paired pattern) := by
  have line := Filling.commandLine_eq_ok
    (answers_of_no_placeholders noPlaceholders (filling? surroundings context .shellWord))
  rwa [filled_ofText_of_no_placeholders noPlaceholders (List.infix_refl pattern)] at line

theorem arguments_of_no_placeholders (surroundings : Surroundings) (context : Context)
    (noPlaceholders : (Pattern.ofText pattern).placeholders = []) :
    arguments surroundings context pattern =
      .ok ((Token.listOfText .ordinary pattern).map Token.value) := by
  rw [arguments, Filling.arguments_eq_ok (answers_of_no_placeholders noPlaceholders _)]
  refine congrArg Except.ok (List.map_congr_left fun token member => ?_)
  exact filled_ofText_of_no_placeholders noPlaceholders (Token.value_infix_of_mem member)

/-- A pattern without placeholders becomes a line and arguments in any context and on any disk: its
tokens, cut with paired quotes and joined for the line, and cut with ordinary quotes for the arguments.
The line is the arguments joined if the pattern is cut alike. Where each quoted part starts with a word
that is not quoted, it is only then. -/
theorem commandLine_eq_ok_and_modesAgree_iff (surroundings : Surroundings) (context : Context)
    (noPlaceholders : (Pattern.ofText pattern).placeholders = []) :
    commandLine surroundings context pattern =
        .ok (Text.spaced ((Token.listOfText .paired pattern).map Token.value)) ∧
      arguments surroundings context pattern =
        .ok ((Token.listOfText .ordinary pattern).map Token.value) ∧
      (Token.CutsAlike pattern → ModesAgree surroundings context pattern) ∧
      (Token.QuotedStartBare pattern →
        (ModesAgree surroundings context pattern ↔ Token.CutsAlike pattern)) := by
  have line := commandLine_of_no_placeholders surroundings context noPlaceholders
  have texts := arguments_of_no_placeholders surroundings context noPlaceholders
  have agree_iff : ModesAgree surroundings context pattern ↔
      Token.joined .paired pattern = Token.joined .ordinary pattern := by
    simp only [ModesAgree, line, texts, Except.ok.injEq, exists_eq_left']
    rfl
  refine ⟨line, texts, fun alike => ?_, fun startBare => ?_⟩
  · exact agree_iff.2 (Token.joined_eq_of_cutsAlike alike)
  · exact agree_iff.trans (Token.joined_eq_iff_of_quotedStartBare startBare)

/-- Quotes of both kinds that come to the same: within a quoted part, and one without a partner. -/
theorem modesAgree_of_lone_apostrophe :
    let surroundings := Surroundings.ofDirectories "/home/me" []
    let context : Context := { selection := { path := Path.ofText "/a" } }
    let pattern : Text := "xterm -e  \"kak 'a b'  c\" it's\tok"
    (Pattern.ofText pattern).placeholders = [] ∧ Token.CutsAlike pattern ∧
      Token.QuotedStartBare pattern ∧ ModesAgree surroundings context pattern := by
  intro surroundings context pattern
  have noPlaceholders : (Pattern.ofText pattern).placeholders = [] := by decide +kernel
  have tokens : Token.listOfText .ordinary pattern =
      [.bare "xterm", .bare "-e", .quoted "kak 'a b'  c", .bare "it's", .bare "ok"] := by
    decide +kernel
  have startBare : Token.QuotedStartBare pattern := by
    intro inner member
    rw [tokens] at member
    obtain rfl : inner = "kak 'a b'  c" := by simpa using member
    decide
  have alike : Token.CutsAlike pattern :=
    Token.cutsAlike_of_joined_eq startBare (by decide +kernel)
  have expanded := commandLine_eq_ok_and_modesAgree_iff surroundings context noPlaceholders
  exact ⟨noPlaceholders, alike, startBare, (expanded.2.2.2 startBare).2 alike⟩

/-- A run of single quotes keeps its two spaces in a command line, and loses them in the arguments. -/
theorem not_modesAgree_of_single_quotes :
    let surroundings := Surroundings.ofDirectories "/home/me" []
    let context : Context := { selection := { path := Path.ofText "/a" } }
    let pattern : Text := "echo 'a  b'"
    (Pattern.ofText pattern).placeholders = [] ∧
      commandLine surroundings context pattern = .ok "echo 'a  b'" ∧
      arguments surroundings context pattern = .ok [("echo" : Text), "'a", "b'"] ∧
      ¬ ModesAgree surroundings context pattern := by
  intro surroundings context pattern
  have line : commandLine surroundings context pattern = .ok "echo 'a  b'" := by decide +kernel
  have texts : arguments surroundings context pattern = .ok [("echo" : Text), "'a", "b'"] := by
    decide +kernel
  refine ⟨by decide +kernel, line, texts, ?_⟩
  rintro ⟨found, isFound, joined⟩
  rw [texts] at isFound
  cases isFound
  rw [line] at joined
  exact absurd joined (by decide +kernel)

end VerbExpansion.Context
