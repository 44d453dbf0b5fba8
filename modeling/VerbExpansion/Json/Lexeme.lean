import VerbExpansion.Json.Value
import VerbExpansion.Text.Hexadecimal
import VerbExpansion.Text.Numeral

/-!
# The lexemes of JSON

A document is cut into marks, literals and texts, with blanks between them. A text that cannot be cut
any further ends in an `unreadable` lexeme, so that a reader meets the first mistake first.

The grammar is the strict one: no raw control characters in texts, no leading zeros and no plus sign
in numbers, digits on both sides of a point. `NaN`, `Infinity` and `-Infinity` are literals too.
-/

namespace VerbExpansion.Json

/-- A lexeme of a document. -/
inductive Lexeme where
  | openBracket
  | closeBracket
  | openBrace
  | closeBrace
  | comma
  | colon
  /-- A number, or a literal name. -/
  | literal (value : Value)
  | quoted (content : Text)
  /-- An integer with more digits than are read. -/
  | oversizedInteger (digits : Nat)
  /-- The place from which on nothing can be read. -/
  | unreadable

namespace Lexeme

/-! ## Texts -/

/-- The number that four hexadecimal digits write. -/
def codeUnit? (first second third fourth : Character) : Option Nat :=
  match Text.hexadecimalValue? first, Text.hexadecimalValue? second,
    Text.hexadecimalValue? third, Text.hexadecimalValue? fourth with
  | some first, some second, some third, some fourth =>
    some (((first * 16 + second) * 16 + third) * 16 + fourth)
  | _, _, _, _ => none

/-- The character that a short escape stands for. -/
def escaped? : Character → Option Character
  | .scalar '"' => some '"'
  | .scalar '\\' => some '\\'
  | .scalar '/' => some '/'
  | .scalar 'b' => some '\x08'
  | .scalar 'f' => some '\x0c'
  | .scalar 'n' => some '\n'
  | .scalar 'r' => some '\r'
  | .scalar 't' => some '\t'
  | _ => none

/-- How a text spells a character, or half of one. -/
inductive Spelling where
  /-- As the character itself, or by a short escape. -/
  | character (character : Character)
  /-- By the number of a unit of 16 bits. -/
  | unit (unit : Nat)

/-- What a text spells after its opening quote, and what follows the closing quote. -/
def readSpellings? : Text → Option (List Spelling × Text)
  | [] => none
  | .scalar '"' :: rest => some ([], rest)
  | .scalar '\\' :: .scalar 'u' :: first :: second :: third :: fourth :: rest =>
    match codeUnit? first second third fourth, readSpellings? rest with
    | some unit, some (spellings, left) => some (.unit unit :: spellings, left)
    | _, _ => none
  | .scalar '\\' :: mark :: rest =>
    match escaped? mark, readSpellings? rest with
    | some character, some (spellings, left) => some (.character character :: spellings, left)
    | _, _ => none
  | character :: rest =>
    if character.toNat < 0x20 then none
    else
      match readSpellings? rest with
      | some (spellings, left) => some (.character character :: spellings, left)
      | none => none

/-- Whether the unit is the first half of a surrogate pair. -/
def isHighSurrogate (unit : Nat) : Bool :=
  0xD800 ≤ unit && unit < 0xDC00

/-- Whether the unit is the second half of a surrogate pair. -/
def isLowSurrogate (unit : Nat) : Bool :=
  0xDC00 ≤ unit && unit < 0xE000

/-- The text that is spelled. Two units that make a surrogate pair are put together. -/
def spelled : List Spelling → Text
  | [] => []
  | .character character :: spellings => character :: spelled spellings
  | .unit high :: .unit low :: spellings =>
    if isHighSurrogate high && isLowSurrogate low then
      .scalar (Char.ofNat (0x10000 + (high - 0xD800) * 0x400 + (low - 0xDC00))) ::
        spelled spellings
    else .ofNat high :: spelled (.unit low :: spellings)
  | .unit unit :: spellings => .ofNat unit :: spelled spellings

/-! ## Numbers -/

/-- A run of digits, when there is one, and what follows. -/
def readDigits? (text : Text) : Option (Text × Text) :=
  match text.takeWhile Character.isDigit with
  | [] => none
  | digits => some (digits, text.dropWhile Character.isDigit)

/-- The natural number that ASCII digits write. -/
def naturalOfDigits (digits : Text) : Nat :=
  digits.foldl (fun number digit => 10 * number + (digit.toNat - 0x30)) 0

/-- The digits before the point: a zero, or a run that may start with any digit but a zero. -/
def readWhole? : Text → Option (Text × Text)
  | .scalar '0' :: rest => some ([.scalar '0'], rest)
  | text => readDigits? text

/-- The digits after the point, when a point and a digit follow. -/
def readFraction? : Text → Option (Text × Text)
  | .scalar '.' :: rest => readDigits? rest
  | _ => none

/-- The exponent, when a mark, perhaps a sign, and a digit follow. -/
def readExponent? : Text → Option (Int × Text)
  | mark :: rest =>
    if mark == 'e' || mark == 'E' then
      match rest with
      | .scalar '-' :: unsigned =>
        (readDigits? unsigned).map fun (digits, left) => (-(naturalOfDigits digits : Int), left)
      | .scalar '+' :: unsigned =>
        (readDigits? unsigned).map fun (digits, left) => ((naturalOfDigits digits : Int), left)
      | unsigned =>
        (readDigits? unsigned).map fun (digits, left) => ((naturalOfDigits digits : Int), left)
    else none
  | [] => none

/-- The integer with these digits, as a lexeme. -/
def ofDigits (isNegative : Bool) (digits : Text) : Lexeme :=
  if digits.length ≤ Text.longestNumeral then
    let magnitude : Int := naturalOfDigits digits
    literal (.integer (if isNegative then -magnitude else magnitude))
  else oversizedInteger digits.length

/-- The decimal with these digits before and after its point, as a lexeme. -/
def ofDecimal (isNegative : Bool) (whole fraction : Text) (exponent : Int) : Lexeme :=
  let magnitude : Int := naturalOfDigits (whole ++ fraction)
  literal (.decimal (if isNegative then -magnitude else magnitude) (exponent - fraction.length))

/-- A number without its sign. -/
def readUnsigned? (isNegative : Bool) (text : Text) : Option (Lexeme × Text) :=
  match readWhole? text with
  | none => none
  | some (whole, rest) =>
    match readFraction? rest with
    | some (fraction, rest) =>
      match readExponent? rest with
      | some (exponent, rest) => some (ofDecimal isNegative whole fraction exponent, rest)
      | none => some (ofDecimal isNegative whole fraction 0, rest)
    | none =>
      match readExponent? rest with
      | some (exponent, rest) => some (ofDecimal isNegative whole [] exponent, rest)
      | none => some (ofDigits isNegative whole, rest)

/-- A number. -/
def readNumber? : Text → Option (Lexeme × Text)
  | .scalar '-' :: text => readUnsigned? true text
  | text => readUnsigned? false text

/-! ## Documents -/

/-- The names that stand for values. -/
def names : List (Text × Value) :=
  [("null", .null), ("true", .boolean true), ("false", .boolean false),
    ("NaN", .notFinite), ("Infinity", .notFinite), ("-Infinity", .notFinite)]

/-- The value that is named at the start of a text. -/
def readName? (text : Text) : Option (Lexeme × Text) :=
  names.findSome? fun (name, value) =>
    if name.isPrefixOf text then some (literal value, text.drop name.length) else none

/-- The lexeme at the start of a text, and what follows it. -/
def read? : Text → Option (Lexeme × Text)
  | .scalar '[' :: rest => some (openBracket, rest)
  | .scalar ']' :: rest => some (closeBracket, rest)
  | .scalar '{' :: rest => some (openBrace, rest)
  | .scalar '}' :: rest => some (closeBrace, rest)
  | .scalar ',' :: rest => some (comma, rest)
  | .scalar ':' :: rest => some (colon, rest)
  | .scalar '"' :: rest =>
    (readSpellings? rest).map fun (spellings, left) => (quoted (spelled spellings), left)
  | text =>
    match readName? text with
    | some found => some found
    | none => readNumber? text

/-- Whether the character may stand between lexemes. -/
def isSpace (character : Character) : Bool :=
  character == ' ' || character == '\t' || character == '\n' || character == '\r'

/-! ## Reading shortens -/

theorem length_lt_of_readSpellings? {text rest : Text} {spellings : List Spelling}
    (read : readSpellings? text = some (spellings, rest)) : rest.length < text.length := by
  fun_induction readSpellings? text generalizing spellings rest with
  | case1 => cases read
  | case2 => cases read; simp
  | case3 first second third fourth rest' unit spellings' left spellingsRead _
      inductionHypothesis =>
    cases read
    have := inductionHypothesis spellingsRead
    simp only [List.length_cons]
    omega
  | case4 => cases read
  | case5 mark rest' _ character spellings' left spellingsRead _ inductionHypothesis =>
    cases read
    have := inductionHypothesis spellingsRead
    simp only [List.length_cons]
    omega
  | case6 => cases read
  | case7 => cases read
  | case8 character rest' _ _ _ _ spellings' left spellingsRead inductionHypothesis =>
    cases read
    have := inductionHypothesis spellingsRead
    simp only [List.length_cons]
    omega
  | case9 => cases read

theorem length_lt_of_readDigits? {text digits rest : Text}
    (read : readDigits? text = some (digits, rest)) : rest.length < text.length := by
  unfold readDigits? at read
  have lengths := congrArg List.length
    (List.takeWhile_append_dropWhile (p := Character.isDigit) (l := text))
  rw [List.length_append] at lengths
  split at read
  · cases read
  · next notEmpty =>
    cases read
    have := List.length_pos_iff.2 notEmpty
    omega

theorem length_lt_of_readWhole? {text digits rest : Text}
    (read : readWhole? text = some (digits, rest)) : rest.length < text.length := by
  unfold readWhole? at read
  split at read
  · cases read; simp
  · exact length_lt_of_readDigits? read

theorem length_lt_of_readFraction? {text digits rest : Text}
    (read : readFraction? text = some (digits, rest)) : rest.length < text.length := by
  unfold readFraction? at read
  split at read
  · have := length_lt_of_readDigits? read
    simp only [List.length_cons]
    omega
  · cases read

theorem length_lt_of_readExponent? {text rest : Text} {exponent : Int}
    (read : readExponent? text = some (exponent, rest)) : rest.length < text.length := by
  unfold readExponent? at read
  split at read
  · split at read
    · split at read <;>
        obtain ⟨⟨digits, left⟩, digitsRead, same⟩ := Option.map_eq_some_iff.1 read <;>
        cases same <;>
        have := length_lt_of_readDigits? digitsRead <;>
        simp only [List.length_cons] at * <;>
        omega
    · cases read
  · cases read

theorem length_lt_of_readUnsigned? {isNegative : Bool} {text rest : Text} {lexeme : Lexeme}
    (read : readUnsigned? isNegative text = some (lexeme, rest)) : rest.length < text.length := by
  unfold readUnsigned? at read
  split at read
  · cases read
  · next wholeRead =>
    have := length_lt_of_readWhole? wholeRead
    split at read
    · next fractionRead =>
      have := length_lt_of_readFraction? fractionRead
      split at read
      · next exponentRead =>
        have := length_lt_of_readExponent? exponentRead
        cases read
        omega
      · cases read
        omega
    · split at read
      · next exponentRead =>
        have := length_lt_of_readExponent? exponentRead
        cases read
        omega
      · cases read
        omega

theorem length_lt_of_readNumber? {text rest : Text} {lexeme : Lexeme}
    (read : readNumber? text = some (lexeme, rest)) : rest.length < text.length := by
  unfold readNumber? at read
  split at read
  · have := length_lt_of_readUnsigned? read
    simp only [List.length_cons]
    omega
  · exact length_lt_of_readUnsigned? read

theorem length_lt_of_readName? {text rest : Text} {lexeme : Lexeme}
    (read : readName? text = some (lexeme, rest)) : rest.length < text.length := by
  obtain ⟨⟨name, value⟩, listed, found⟩ := List.exists_of_findSome?_eq_some read
  simp only at found
  split at found
  · next starts =>
    cases found
    have positive : 0 < name.length := by
      simp only [names, List.mem_cons, List.not_mem_nil, Prod.mk.injEq, or_false] at listed
      rcases listed with h | h | h | h | h | h <;> rw [h.1] <;> decide
    have bounded := (List.isPrefixOf_iff_prefix.1 starts).length_le
    rw [List.length_drop]
    omega
  · cases found

/-- Reading a lexeme shortens the text. -/
theorem length_lt_of_read? {text rest : Text} {lexeme : Lexeme}
    (read : read? text = some (lexeme, rest)) : rest.length < text.length := by
  unfold read? at read
  split at read
  case h_1 | h_2 | h_3 | h_4 | h_5 | h_6 =>
    cases read
    simp
  · obtain ⟨⟨spellings, left⟩, spellingsRead, same⟩ := Option.map_eq_some_iff.1 read
    cases same
    have := length_lt_of_readSpellings? spellingsRead
    simp only [List.length_cons]
    omega
  · split at read
    · next found =>
      cases read
      exact length_lt_of_readName? found
    · exact length_lt_of_readNumber? read

/-- The lexemes of a document, in order. -/
def listOfText (text : Text) : List Lexeme :=
  match text with
  | [] => []
  | character :: rest =>
    if isSpace character then listOfText rest
    else
      match found : read? (character :: rest) with
      | some (lexeme, left) =>
        have : left.length < rest.length + 1 := length_lt_of_read? found
        lexeme :: listOfText left
      | none => [unreadable]
termination_by text.length

end Lexeme

end VerbExpansion.Json
