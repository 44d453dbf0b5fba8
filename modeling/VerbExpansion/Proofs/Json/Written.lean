import Mathlib.Tactic.SplitIfs
import VerbExpansion.Json.Written
import VerbExpansion.Proofs.Json.Limits

/-!
# Written lists read back

A character is written as itself, by a short escape or by its number (`isWritten_writtenCharacter`), and
is read back whatever follows it. So a list of texts that is written as a document is the list that the
document is read as (`ofText_writtenList`). It is written without control characters
(`notControl_of_mem_writtenList`), and can be encoded when its texts can (`isEncodable_writtenList_iff`).
-/

namespace VerbExpansion.Json

/-! ## Characters -/

/-- The ways in which a character is written between double quotes. -/
inductive IsWritten (character : Character) : Text → Prop where
  | plain (noQuote : character ≠ '"') (noEscape : character ≠ '\\')
      (notControl : 0x20 ≤ character.toNat) : IsWritten character [character]
  | escaped {mark : Character} (escapes : Lexeme.escaped? mark = some character) :
      IsWritten character [.scalar '\\', mark]
  | numbered (isControl : character.toNat < 0x20) :
      IsWritten character (.scalar '\\' :: .scalar 'u' :: Text.hexadecimal 4 character.toNat)

theorem isWritten_writtenCharacter (character : Character) :
    IsWritten character (writtenCharacter character) := by
  unfold writtenCharacter
  simp only [beq_iff_eq]
  split_ifs with quote escape lineEnd lineStart tab backspace pageEnd isControl
  · exact .escaped (congrArg some quote.symm)
  · exact .escaped (congrArg some escape.symm)
  · exact .escaped (congrArg some lineEnd.symm)
  · exact .escaped (congrArg some lineStart.symm)
  · exact .escaped (congrArg some tab.symm)
  · exact .escaped (congrArg some backspace.symm)
  · exact .escaped (congrArg some pageEnd.symm)
  · exact .numbered isControl
  · exact .plain quote escape (Nat.not_lt.1 isControl)

/-! ## No control characters -/

theorem notControl_of_mem_hexadecimal {width number : Nat} {digit : Character}
    (member : digit ∈ Text.hexadecimal width number) : 0x20 ≤ digit.toNat := by
  have checked : ∀ value : Fin 16, 0x20 ≤ (Text.hexadecimalDigit value).toNat := by decide
  induction width generalizing number with
  | zero => cases member
  | succ width inductionHypothesis =>
    rw [Text.hexadecimal, List.mem_append, List.mem_singleton] at member
    rcases member with member | rfl
    · exact inductionHypothesis member
    · exact checked ⟨number % 16, Nat.mod_lt _ (by decide)⟩

theorem Lexeme.notControl_of_escaped? {mark character : Character}
    (escapes : escaped? mark = some character) : 0x20 ≤ mark.toNat := by
  unfold escaped? at escapes
  split at escapes
  case h_9 => cases escapes
  all_goals decide

theorem IsWritten.notControl {character : Character} {written : Text}
    (isWritten : IsWritten character written) : ∀ part ∈ written, 0x20 ≤ part.toNat := by
  have escapeFits : 0x20 ≤ (Character.scalar '\\').toNat := by decide
  cases isWritten with
  | plain _ _ notControl => exact List.forall_mem_singleton.2 notControl
  | escaped escapes =>
    exact List.forall_mem_cons.2
      ⟨escapeFits, List.forall_mem_singleton.2 (Lexeme.notControl_of_escaped? escapes)⟩
  | numbered _ =>
    exact List.forall_mem_cons.2 ⟨escapeFits, List.forall_mem_cons.2
      ⟨by decide, fun _ member => notControl_of_mem_hexadecimal member⟩⟩

theorem notControl_of_mem_writtenText {text : Text} :
    ∀ part ∈ writtenText text, 0x20 ≤ part.toNat := by
  have quoteFits : 0x20 ≤ (Character.scalar '"').toNat := by decide
  intro part member
  rw [writtenText, List.mem_append, List.mem_cons, List.mem_singleton, List.mem_flatMap] at member
  rcases member with (rfl | ⟨character, _, member⟩) | rfl
  · exact quoteFits
  · exact (isWritten_writtenCharacter character).notControl part member
  · exact quoteFits

/-- A list is written without control characters, and so without line ends. -/
theorem notControl_of_mem_writtenList {texts : List Text} :
    ∀ part ∈ writtenList texts, 0x20 ≤ part.toNat := by
  have commaFits : ∀ mark ∈ (", " : Text), 0x20 ≤ mark.toNat := by decide
  have itemsFit : ∀ part ∈ (", " : Text).intercalate (texts.map writtenText), 0x20 ≤ part.toNat := by
    induction texts with
    | nil => exact fun _ member => absurd member List.not_mem_nil
    | cons first texts inductionHypothesis =>
      cases texts with
      | nil => simpa using notControl_of_mem_writtenText
      | cons second texts =>
        rw [List.map_cons, List.map_cons, List.intercalate_cons_cons]
        intro part member
        rw [List.mem_append, List.mem_append] at member
        rcases member with (inFirst | isComma) | inOthers
        · exact notControl_of_mem_writtenText part inFirst
        · exact commaFits part isComma
        · exact inductionHypothesis part inOthers
  intro part member
  rw [writtenList, List.mem_append, List.mem_cons, List.mem_singleton] at member
  rcases member with (rfl | inItems) | rfl
  · decide
  · exact itemsFit part inItems
  · decide

/-! ## What can be encoded -/

theorem isEncodable_hexadecimal (width number : Nat) :
    (Text.hexadecimal width number).isEncodable = true := by
  have isScalar : ∀ value, (Text.hexadecimalDigit value).isSurrogate = false := by
    intro value
    unfold Text.hexadecimalDigit
    split <;> rfl
  induction width generalizing number with
  | zero => rfl
  | succ width inductionHypothesis => simp [Text.hexadecimal, isScalar, inductionHypothesis]

/-- A character is written as something that can be encoded, unless it is a surrogate. -/
theorem IsWritten.isEncodable {character : Character} {written : Text}
    (isWritten : IsWritten character written) :
    written.isEncodable = !character.isSurrogate := by
  cases isWritten with
  | plain => simp
  | escaped escapes =>
    unfold Lexeme.escaped? at escapes
    split at escapes
    case h_9 => cases escapes
    all_goals
      cases escapes
      rfl
  | numbered isControl =>
    cases character with
    | scalar value => simp [isEncodable_hexadecimal]
    | surrogate place =>
      rw [Character.toNat] at isControl
      omega

theorem isEncodable_writtenText (text : Text) :
    (writtenText text).isEncodable = text.isEncodable := by
  have items : Text.isEncodable (text.flatMap writtenCharacter) = text.isEncodable := by
    induction text with
    | nil => rfl
    | cons character text inductionHypothesis =>
      simp [(isWritten_writtenCharacter character).isEncodable, inductionHypothesis]
  simp [writtenText, items]

/-- A written list can be encoded just when its texts can. -/
theorem isEncodable_writtenList_iff (texts : List Text) :
    (writtenList texts).isEncodable = true ↔ ∀ text ∈ texts, text.isEncodable = true := by
  have items : Text.isEncodable ((", " : Text).intercalate (texts.map writtenText)) = true ↔
      ∀ text ∈ texts, text.isEncodable = true := by
    induction texts with
    | nil => simp
    | cons first texts inductionHypothesis =>
      cases texts with
      | nil => simp [isEncodable_writtenText]
      | cons second texts =>
        rw [List.map_cons] at inductionHypothesis
        rw [List.map_cons, List.map_cons, List.intercalate_cons_cons, List.forall_mem_cons,
          ← inductionHypothesis]
        simp [isEncodable_writtenText]
  rw [← items, writtenList]
  simp

/-! ## Characters read back -/

namespace Lexeme

theorem exists_codeUnit?_hexadecimal {number : Nat} (fits : number < 0x10000) :
    ∃ first second third fourth, Text.hexadecimal 4 number = [first, second, third, fourth] ∧
      codeUnit? first second third fourth = some number := by
  refine ⟨_, _, _, _, rfl, ?_⟩
  have digit : ∀ value : Nat, Text.hexadecimalValue? (Text.hexadecimalDigit (value % 16)) =
      some (value % 16) :=
    fun value => Text.hexadecimalValue?_hexadecimalDigit (Nat.mod_lt value (by decide))
  simp only [codeUnit?, digit, Option.some.injEq]
  omega

/-- A unit that is not the first half of a surrogate pair spells a character of its own. -/
theorem spelled_unit_cons {unit : Nat} (notHigh : isHighSurrogate unit = false)
    (spellings : List Spelling) :
    spelled (.unit unit :: spellings) = .ofNat unit :: spelled spellings := by
  cases spellings with
  | nil => rfl
  | cons next spellings =>
    cases next with
    | character => rfl
    | unit low => simp [spelled, notHigh]

/-- Between double quotes, what is written spells the text, whatever follows it. -/
def Spells (written text : Text) : Prop :=
  ∀ rest spellings left, readSpellings? rest = some (spellings, left) →
    ∃ more, readSpellings? (written ++ rest) = some (more, left) ∧
      spelled more = text ++ spelled spellings

theorem Spells.append {written text otherWritten other : Text} (first : Spells written text)
    (second : Spells otherWritten other) : Spells (written ++ otherWritten) (text ++ other) := by
  intro rest spellings left read
  obtain ⟨others, othersRead, othersSpelled⟩ := second rest spellings left read
  obtain ⟨all, allRead, allSpelled⟩ := first (otherWritten ++ rest) others left othersRead
  refine ⟨all, ?_, ?_⟩
  · rw [List.append_assoc, allRead]
  · rw [allSpelled, othersSpelled, List.append_assoc]

/-- A written character spells the character. -/
theorem spells_of_isWritten {character : Character} {written : Text}
    (isWritten : IsWritten character written) : Spells written [character] := by
  intro rest spellings left read
  cases isWritten with
  | plain noQuote noEscape notControl =>
    refine ⟨.character character :: spellings, ?_, rfl⟩
    rw [List.singleton_append, readSpellings?, if_neg (Nat.not_lt.2 notControl), read]
    · exact noQuote
    · exact fun _ _ _ _ _ same => absurd same noEscape
    · exact fun _ _ same => absurd same noEscape
  | @escaped mark escapes =>
    have notNumber : mark ≠ .scalar 'u' := by
      rintro rfl
      cases escapes
    refine ⟨.character character :: spellings, ?_, rfl⟩
    rw [List.cons_append, List.singleton_append, readSpellings?, escapes, read]
    exact fun _ _ _ _ _ same => absurd same notNumber
  | numbered isControl =>
    obtain ⟨first, second, third, fourth, digits, unit⟩ :=
      exists_codeUnit?_hexadecimal (Nat.lt_trans isControl (by decide))
    have notHigh : isHighSurrogate character.toNat = false := by
      simp only [isHighSurrogate, Bool.and_eq_false_iff, decide_eq_false_iff_not]
      omega
    refine ⟨.unit character.toNat :: spellings, ?_, ?_⟩
    · simp only [digits, List.cons_append, List.nil_append, readSpellings?, unit, read]
    · rw [spelled_unit_cons notHigh, Character.ofNat_toNat, List.singleton_append]

theorem spells_flatMap_writtenCharacter (text : Text) :
    Spells (text.flatMap writtenCharacter) text := by
  induction text with
  | nil => exact fun rest spellings left read => ⟨spellings, read, rfl⟩
  | cons character text inductionHypothesis =>
    exact (spells_of_isWritten (isWritten_writtenCharacter character)).append inductionHypothesis

/-- A written text is read back as one lexeme. -/
theorem read?_writtenText (text rest : Text) :
    read? (writtenText text ++ rest) = some (.quoted text, rest) := by
  have closed : readSpellings? (.scalar '"' :: rest) = some ([], rest) := rfl
  obtain ⟨spellings, read, spelledText⟩ := spells_flatMap_writtenCharacter text _ _ _ closed
  rw [spelled, List.append_nil] at spelledText
  rw [writtenText, List.append_assoc, List.cons_append, List.singleton_append, read?, read,
    ← spelledText]
  rfl

/-! ## Lists read back -/

theorem listOfText_cons_of_isSpace {character : Character} (space : isSpace character = true)
    (rest : Text) : listOfText (character :: rest) = listOfText rest := by
  rw [listOfText, if_pos space]

theorem listOfText_cons_of_read? {character : Character} {rest left : Text} {lexeme : Lexeme}
    (noSpace : isSpace character = false) (found : read? (character :: rest) = some (lexeme, left)) :
    listOfText (character :: rest) = lexeme :: listOfText left := by
  rw [listOfText, if_neg (by simp [noSpace])]
  split
  · next other =>
    cases found.symm.trans other
    rfl
  · next nothing => cases found.symm.trans nothing

theorem listOfText_writtenText_append (text rest : Text) :
    listOfText (writtenText text ++ rest) = .quoted text :: listOfText rest := by
  have found := read?_writtenText text rest
  rw [writtenText, List.cons_append, List.cons_append] at found ⊢
  exact listOfText_cons_of_read? rfl found

/-- Written texts with commas between them are read as the texts with commas between them. -/
theorem listOfText_intercalate_append (texts : List Text) (rest : Text) :
    listOfText ((", " : Text).intercalate (texts.map writtenText) ++ rest) =
      (texts.map quoted).intersperse comma ++ listOfText rest := by
  induction texts with
  | nil => rfl
  | cons first texts inductionHypothesis =>
    cases texts with
    | nil => simpa using listOfText_writtenText_append first rest
    | cons second texts =>
      have separated : ∀ others : Text, listOfText ((", " : Text) ++ others) =
          comma :: listOfText others := by
        intro others
        have spaced : listOfText (.scalar ' ' :: others) = listOfText others :=
          listOfText_cons_of_isSpace rfl others
        exact (listOfText_cons_of_read? rfl rfl).trans (congrArg _ spaced)
      simp only [List.map_cons, List.intercalate_cons_cons, List.append_assoc] at inductionHypothesis ⊢
      rw [listOfText_writtenText_append, separated, inductionHypothesis,
        List.intersperse_cons_cons, List.cons_append, List.cons_append]

/-- A written list is read as the texts with commas between them, in brackets. -/
theorem listOfText_writtenList_append (texts : List Text) (rest : Text) :
    listOfText (writtenList texts ++ rest) =
      openBracket :: ((texts.map quoted).intersperse comma ++ closeBracket :: listOfText rest) := by
  have opened : ∀ others : Text, listOfText (.scalar '[' :: others) = openBracket :: listOfText others :=
    fun _ => listOfText_cons_of_read? rfl rfl
  have closed : listOfText (.scalar ']' :: rest) = closeBracket :: listOfText rest :=
    listOfText_cons_of_read? rfl rfl
  rw [writtenList, List.append_assoc, List.cons_append, opened, listOfText_intercalate_append,
    List.singleton_append, closed]

end Lexeme

/-- The texts of an array are taken one after the other, from any place at which its next item may
come. -/
theorem State.foldlM_intersperse {texts : List Text} (notEmpty : texts ≠ []) {state : State}
    {items : List Value} {containers : List OpenContainer}
    (awaiting : state.containersAround? = some (.array items :: containers)) :
    ((texts.map Lexeme.quoted).intersperse .comma).foldlM step state =
      .ok (afterItem ((texts.map Value.text).reverse ++ items) containers) := by
  induction texts generalizing state items with
  | nil => exact absurd rfl notEmpty
  | cons first texts inductionHypothesis =>
    have stepped : step state (.quoted first) = .ok (afterItem (.text first :: items) containers) :=
      step_of_containersAround? awaiting nofun
    cases texts with
    | nil => exact foldlM_cons_eq_ok_iff.2 ⟨_, stepped, rfl⟩
    | cons second texts =>
      have awaitingNext : (atValue (.array (.text first :: items) :: containers)).containersAround? =
          some (.array (.text first :: items) :: containers) := rfl
      have others := inductionHypothesis (List.cons_ne_nil _ _) awaitingNext
      refine foldlM_cons_eq_ok_iff.2 ⟨_, stepped, foldlM_cons_eq_ok_iff.2 ⟨_, rfl, ?_⟩⟩
      rw [List.map_cons, List.reverse_cons, List.append_assoc]
      exact others

/-- A written list with a line end behind it is a document, which is the list. -/
theorem Value.ofText_writtenList (texts : List Text) :
    Value.ofText (writtenList texts ++ "\n") = .ok (.array (texts.map .text)) := by
  have ended : Lexeme.listOfText "\n" = [] :=
    (Lexeme.listOfText_cons_of_isSpace rfl []).trans (by rw [Lexeme.listOfText])
  have run : (Lexeme.listOfText (writtenList texts ++ "\n")).foldlM State.step (.atValue []) =
      .ok (.complete (.array (texts.map .text))) := by
    rw [Lexeme.listOfText_writtenList_append, ended]
    refine foldlM_cons_eq_ok_iff.2 ⟨.atFirstItem [], rfl, ?_⟩
    cases texts with
    | nil => rfl
    | cons first texts =>
      have awaiting : (State.atFirstItem []).containersAround? = some [.array []] := rfl
      have taken := State.foldlM_intersperse (List.cons_ne_nil first texts) awaiting
      refine foldlM_append_eq_ok_iff.2 ⟨_, taken, foldlM_cons_eq_ok_iff.2 ⟨_, rfl, ?_⟩⟩
      rw [List.append_nil, List.reverse_reverse]
      rfl
  rw [Value.ofText, run]

end VerbExpansion.Json
