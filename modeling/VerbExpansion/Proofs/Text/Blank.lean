import Mathlib.Data.List.DropRight
import VerbExpansion.Text.Blank

/-!
# Trimmed texts and first words

Trimming takes the blanks off both ends of a text, in either order (`trimStart_trimEnd`), and leaves
exactly the texts that have none there as they are (`trim_eq_self_iff`). A word at the start of a
text stays as it is (`trim_append_of_blankless`), and is the first word when a blank follows it
(`firstWord_append`).
-/

namespace VerbExpansion.Text

/-- A text with no blank at its ends. The empty text has none. -/
structure IsTrimmed (text : Text) : Prop where
  first : ∀ character ∈ text.head?, isBlank character = false
  last : ∀ character ∈ text.getLast?, isBlank character = false

/-! ## One end -/

@[simp] theorem trimStart_nil : trimStart [] = [] := rfl

theorem trimEnd_eq_nil_iff {text : Text} :
    trimEnd text = [] ↔ ∀ character ∈ text, isBlank character = true :=
  List.rdropWhile_eq_nil_iff

theorem trimStart_of_not_isBlank {first : Character} (notBlank : isBlank first = false)
    (rest : Text) : trimStart (first :: rest) = first :: rest :=
  List.dropWhile_cons_of_neg (by simp [notBlank])

/-- Leading blanks are taken off, whatever follows them. -/
theorem trimStart_append {blanks : Text} (blank : ∀ character ∈ blanks, isBlank character = true)
    (text : Text) : trimStart (blanks ++ text) = trimStart text :=
  List.dropWhile_append_of_pos blank

/-- Nothing is taken off the start of a text that starts with no blank. -/
theorem trimStart_eq_self {text : Text}
    (notBlank : ∀ character ∈ text.head?, isBlank character = false) : trimStart text = text := by
  cases text with
  | nil => rfl
  | cons first rest => exact trimStart_of_not_isBlank (notBlank first rfl) rest

/-- Nothing is taken off the end of a text that ends with no blank. -/
theorem trimEnd_eq_self {text : Text}
    (notBlank : ∀ character ∈ text.getLast?, isBlank character = false) : trimEnd text = text := by
  refine List.rdropWhile_eq_self_iff.2 fun notEmpty => ?_
  simp [notBlank _ (List.getLast_mem_getLast? notEmpty)]

theorem not_isBlank_head_trimStart (text : Text) :
    ∀ character ∈ (trimStart text).head?, isBlank character = false := by
  intro character isFirst
  have stopped := List.head?_dropWhile_not isBlank text
  rw [show (text.dropWhile isBlank).head? = some character from isFirst] at stopped
  exact stopped

theorem not_isBlank_getLast_trimEnd (text : Text) :
    ∀ character ∈ (trimEnd text).getLast?, isBlank character = false := by
  intro character isLast
  have notEmpty : trimEnd text ≠ [] := List.ne_nil_of_mem (List.mem_of_getLast? isLast)
  have stopped := List.rdropWhile_last_not isBlank text notEmpty
  rw [show (text.rdropWhile isBlank).getLast _ = character from
    List.getLast_of_mem_getLast? isLast] at stopped
  simpa using stopped

/-- What ends a text is trimmed alone, unless it is all blank. -/
theorem trimEnd_append {after : Text} (notBlank : trimEnd after ≠ []) (before : Text) :
    trimEnd (before ++ after) = before ++ trimEnd after := by
  have notBlankReversed : after.reverse.dropWhile isBlank ≠ [] := by
    simpa [trimEnd] using notBlank
  simp [trimEnd, List.dropWhile_append, notBlankReversed]

/-- Blanks at the end are taken off, whatever stands before them. -/
theorem trimEnd_append_of_isBlank {blanks : Text}
    (blank : ∀ character ∈ blanks, isBlank character = true) (before : Text) :
    trimEnd (before ++ blanks) = trimEnd before := by
  have nothing : blanks.reverse.dropWhile isBlank = [] :=
    List.dropWhile_eq_nil_iff.2 fun character member => blank character (List.mem_reverse.1 member)
  simp [trimEnd, List.dropWhile_append, nothing]

/-- A text that ends with no blank stays as it is before what is trimmed. -/
theorem trimEnd_append_of_not_isBlank {before : Text}
    (notBlank : ∀ character ∈ before.getLast?, isBlank character = false) (after : Text) :
    trimEnd (before ++ after) = before ++ trimEnd after := by
  by_cases blank : trimEnd after = []
  · rw [trimEnd_append_of_isBlank (trimEnd_eq_nil_iff.1 blank), trimEnd_eq_self notBlank, blank,
      List.append_nil]
  · exact trimEnd_append blank before

/-! ## Both ends -/

theorem trimEnd_isPrefix (text : Text) : trimEnd text <+: text :=
  List.rdropWhile_prefix isBlank text

/-- The ends may be trimmed in either order. -/
theorem trimStart_trimEnd (text : Text) : trimStart (trimEnd text) = trim text := by
  have cut : text.takeWhile isBlank ++ trimStart text = text := List.takeWhile_append_dropWhile
  have blanks : ∀ character ∈ text.takeWhile isBlank, isBlank character = true :=
    fun _ member => List.mem_takeWhile_imp member
  by_cases blank : trimEnd (trimStart text) = []
  · have allBlank : trimEnd text = [] := by
      rw [← cut, trimEnd_append_of_isBlank (trimEnd_eq_nil_iff.1 blank)]
      exact trimEnd_eq_nil_iff.2 blanks
    rw [trim, blank, allBlank, trimStart_nil]
  · have kept : trimEnd text = text.takeWhile isBlank ++ trim text := by
      conv_lhs => rw [← cut, trimEnd_append blank]
      rfl
    rw [kept, trimStart_append blanks, trimStart_eq_self]
    intro character isFirst
    obtain ⟨rest, spelled⟩ := trimEnd_isPrefix (trimStart text)
    refine not_isBlank_head_trimStart text character ?_
    rw [← spelled, List.head?_append,
      show (trimEnd (trimStart text)).head? = some character from isFirst]
    rfl

theorem isTrimmed_trim (text : Text) : IsTrimmed (trim text) := by
  refine ⟨?_, not_isBlank_getLast_trimEnd (trimStart text)⟩
  rw [← trimStart_trimEnd]
  exact not_isBlank_head_trimStart (trimEnd text)

/-- Trimming changes nothing exactly where there is nothing to trim. -/
theorem trim_eq_self_iff {text : Text} : trim text = text ↔ IsTrimmed text := by
  constructor
  · intro same
    exact same ▸ isTrimmed_trim text
  · intro isTrimmed
    rw [trim, trimStart_eq_self isTrimmed.first, trimEnd_eq_self isTrimmed.last]

@[simp] theorem trim_trim (text : Text) : trim (trim text) = trim text :=
  trim_eq_self_iff.2 (isTrimmed_trim text)

/-- What is left of a trimmed text after some of its start is taken off ends with no blank. -/
theorem IsTrimmed.last_of_isSuffix {text part : Text} (isTrimmed : IsTrimmed text)
    (suffix : part <:+ text) : ∀ character ∈ part.getLast?, isBlank character = false := by
  intro character isLast
  obtain ⟨before, rfl⟩ := suffix
  refine isTrimmed.last character ?_
  rw [List.getLast?_append, Option.mem_def.1 isLast]
  rfl

/-- Taking more off the start of a trimmed text leaves a trimmed text, once its start is trimmed. -/
theorem IsTrimmed.trimStart_of_isSuffix {text part : Text} (isTrimmed : IsTrimmed text)
    (suffix : part <:+ text) : IsTrimmed (trimStart part) :=
  ⟨not_isBlank_head_trimStart part,
    isTrimmed.last_of_isSuffix ((List.dropWhile_suffix isBlank).trans suffix)⟩

/-! ## Words -/

/-- A text, when there is something in it. -/
def unlessEmpty (text : Text) : Option Text :=
  if text = [] then none else some text

theorem unlessEmpty_of_ne_nil {text : Text} (notEmpty : text ≠ []) :
    unlessEmpty text = some text :=
  if_neg notEmpty

theorem mem_unlessEmpty_iff {text other : Text} :
    other ∈ unlessEmpty text ↔ text ≠ [] ∧ text = other := by
  unfold unlessEmpty
  split <;> simp_all

/-- A word stays as it is when a text that starts with it is trimmed. -/
theorem trim_append_of_blankless {word : Text} (notEmpty : word ≠ [])
    (blankless : ∀ character ∈ word, isBlank character = false) (rest : Text) :
    trim (word ++ rest) = word ++ trimEnd rest := by
  have started : trimStart (word ++ rest) = word ++ rest := by
    refine trimStart_eq_self fun character isFirst => ?_
    rw [List.head?_append_of_ne_nil _ notEmpty] at isFirst
    exact blankless character (List.mem_of_head? isFirst)
  rw [trim, started, trimEnd_append_of_not_isBlank fun character isLast =>
    blankless character (List.mem_of_getLast? isLast)]

/-- A word is the first word of a text when a blank follows it, or nothing. -/
theorem firstWord_append {word rest : Text}
    (blankless : ∀ character ∈ word, isBlank character = false)
    (ended : ∀ character ∈ rest.head?, isBlank character = true) :
    firstWord (word ++ rest) = (word, rest) := by
  have inked : ∀ character ∈ word, (!isBlank character) = true :=
    fun character member => by simp [blankless character member]
  rw [firstWord, List.takeWhile_append_of_pos inked, List.dropWhile_append_of_pos inked]
  cases rest with
  | nil => simp
  | cons first rest => simp [ended first rfl]

/-- Every text is its first word and what follows it, which does not go on with the word. -/
theorem exists_firstWord (text : Text) :
    ∃ word rest, text = word ++ rest ∧ (∀ character ∈ word, isBlank character = false) ∧
      ∀ character ∈ rest.head?, isBlank character = true := by
  refine ⟨(firstWord text).1, (firstWord text).2, ?_, fun character member => ?_,
    fun character isFirst => ?_⟩
  · exact List.takeWhile_append_dropWhile.symm
  · simpa using List.mem_takeWhile_imp member
  · have stopped := List.head?_dropWhile_not (!isBlank ·) text
    rw [show (text.dropWhile (!isBlank ·)).head? = some character from isFirst] at stopped
    simpa using stopped

end VerbExpansion.Text
