import VerbExpansion.Text.Blank

/-!
# Numerals

`ofInteger` writes an integer in decimal. `integer?` reads the more liberal numerals that a person
may type: digits of any script, a sign, single underscores between digits, and blanks around all.
-/

namespace VerbExpansion.Text

/-- The code points of the zeros of the decimal scripts (Unicode 14); the nine code points after a
zero are the other digits of its script, in order. -/
def decimalZeros : List Nat := [
    0x30, 0x660, 0x6F0, 0x7C0, 0x966, 0x9E6, 0xA66, 0xAE6, 0xB66, 0xBE6, 0xC66, 0xCE6, 0xD66, 0xDE6,
    0xE50, 0xED0, 0xF20, 0x1040, 0x1090, 0x17E0, 0x1810, 0x1946, 0x19D0, 0x1A80, 0x1A90, 0x1B50,
    0x1BB0, 0x1C40, 0x1C50, 0xA620, 0xA8D0, 0xA900, 0xA9D0, 0xA9F0, 0xAA50, 0xABF0, 0xFF10, 0x104A0,
    0x10D30, 0x11066, 0x110F0, 0x11136, 0x111D0, 0x112F0, 0x11450, 0x114D0, 0x11650, 0x116C0,
    0x11730, 0x118E0, 0x11950, 0x11C50, 0x11D50, 0x11DA0, 0x16A60, 0x16AC0, 0x16B50, 0x1D7CE,
    0x1D7D8, 0x1D7E2, 0x1D7EC, 0x1D7F6, 0x1E140, 0x1E2F0, 0x1E950, 0x1FBF0]

/-- The value of a decimal digit of any script. -/
def digitValue? (character : Character) : Option Nat :=
  (decimalZeros.find? fun first => first ≤ character.toNat && character.toNat < first + 10).map
    (character.toNat - ·)

/-- Whether the character is a decimal digit of some script. -/
def isDecimalDigit (character : Character) : Bool :=
  (digitValue? character).isSome

/-- The decimal text of a natural number. -/
def ofNatural (number : Nat) : Text :=
  (Nat.toDigits 10 number).map .scalar

/-- The decimal text of an integer, with a minus sign when it is negative. -/
def ofInteger : Int → Text
  | .ofNat number => ofNatural number
  | .negSucc number => .scalar '-' :: ofNatural (number + 1)

/-- The longest numeral that is read, or written for a line, in digits. -/
def longestNumeral : Nat := 4300

/-- The digit values of a run of digits in which single underscores may separate two digits. -/
def digitValues? : Text → Option (List Nat)
  | [] => none
  | [character] => (digitValue? character).map ([·])
  | character :: .scalar '_' :: rest =>
    match digitValue? character, digitValues? rest with
    | some value, some values => some (value :: values)
    | _, _ => none
  | character :: rest =>
    match digitValue? character, digitValues? rest with
    | some value, some values => some (value :: values)
    | _, _ => none

/-- The natural number that a run of digits writes, if it is not longer than `longestNumeral`. -/
def natural? (text : Text) : Option Nat :=
  match digitValues? text with
  | some values =>
    if values.length ≤ longestNumeral then
      some (values.foldl (fun number value => 10 * number + value) 0)
    else none
  | none => none

/-- Whether a numeral may be surrounded by the character. The separators U+001C to U+001F are blank
elsewhere, but not here. -/
def surroundsNumeral (character : Character) : Bool :=
  isBlank character && !(0x1C ≤ character.toNat && character.toNat ≤ 0x1F)

/-- The integer that a typed numeral stands for. -/
def integer? (text : Text) : Option Int :=
  let body := (text.dropWhile surroundsNumeral).reverse.dropWhile surroundsNumeral |>.reverse
  match body with
  | .scalar '+' :: digits => (natural? digits).map Int.ofNat
  | .scalar '-' :: digits => (natural? digits).map (- Int.ofNat ·)
  | digits => (natural? digits).map Int.ofNat

end VerbExpansion.Text
