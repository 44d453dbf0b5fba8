import VerbExpansion.Text.Basic

/-!
# The blanks of a text

`isBlank` is the one notion of blank by which commands, patterns and settings are trimmed and cut
into words.
-/

namespace VerbExpansion.Text

/-- Whether the character separates words. Beside the space, these are the control characters that
move to another column, line, page or record, and the other spaces and line ends of Unicode. -/
def isBlank (character : Character) : Bool :=
  let code := character.toNat
  (0x09 ≤ code && code ≤ 0x0D) || (0x1C ≤ code && code ≤ 0x20) || code == 0x85 || code == 0xA0 ||
    code == 0x1680 || (0x2000 ≤ code && code ≤ 0x200A) || code == 0x2028 || code == 0x2029 ||
    code == 0x202F || code == 0x205F || code == 0x3000

/-- Every character that is white space in ASCII is blank. -/
theorem isBlank_of_isWhitespace {value : Char} (isWhite : value.isWhitespace = true) :
    isBlank value = true := by
  simp only [Char.isWhitespace, Bool.or_eq_true, decide_eq_true_eq] at isWhite
  rcases isWhite with ((rfl | rfl) | rfl) | rfl <;> decide

theorem ne_of_isBlank {character other : Character} (blank : isBlank character = true)
    (notBlank : isBlank other = false) : character ≠ other := by
  rintro rfl
  exact absurd (notBlank.symm.trans blank) Bool.false_ne_true

/-- The text without its leading blanks. -/
def trimStart (text : Text) : Text :=
  text.dropWhile isBlank

/-- The text without its trailing blanks. -/
def trimEnd (text : Text) : Text :=
  (text.reverse.dropWhile isBlank).reverse

/-- The text without its leading and trailing blanks. -/
def trim (text : Text) : Text :=
  trimEnd (trimStart text)

/-- The leading word of a text and what follows it. -/
def firstWord (text : Text) : Text × Text :=
  (text.takeWhile (!isBlank ·), text.dropWhile (!isBlank ·))

/-- The texts joined with one space between neighbours. -/
def spaced (texts : List Text) : Text :=
  [.scalar ' '].intercalate texts

@[simp] theorem spaced_nil : spaced [] = [] := rfl

@[simp] theorem spaced_singleton (text : Text) : spaced [text] = text := by
  simp [spaced]

theorem spaced_cons_cons (first second : Text) (texts : List Text) :
    spaced (first :: second :: texts) = first ++ .scalar ' ' :: spaced (second :: texts) := by
  simp [spaced]

/-- A text is a part of the line in which it stands. -/
theorem infix_spaced_of_mem {text : Text} {texts : List Text} (member : text ∈ texts) :
    text <:+: spaced texts := by
  induction texts with
  | nil => cases member
  | cons first texts inductionHypothesis =>
    cases texts with
    | nil =>
      obtain rfl := List.mem_singleton.1 member
      exact (spaced_singleton text).symm ▸ List.infix_refl text
    | cons second texts =>
      rw [spaced_cons_cons]
      rcases List.mem_cons.1 member with rfl | others
      · exact (List.prefix_append _ _).isInfix
      · exact (inductionHypothesis others).trans ⟨first ++ [.scalar ' '], [], by simp⟩

end VerbExpansion.Text
