/-!
# Texts

A text is its list of characters. A character is a Unicode scalar value, or a surrogate that stands
alone: no encoded file holds one of these, but an escape in a JSON document can write it.
-/

namespace VerbExpansion

/-- A character of a text. -/
inductive Character where
  | scalar (value : Char)
  /-- A surrogate that is no half of a pair, by its place among the surrogates. -/
  | surrogate (place : Fin 0x800)
  deriving DecidableEq

namespace Character

instance : Coe Char Character := ⟨scalar⟩

/-- The code point of the character. -/
def toNat : Character → Nat
  | scalar value => value.toNat
  | surrogate place => 0xD800 + place.val

/-- The character with this code point. -/
def ofNat (code : Nat) : Character :=
  if isSurrogate : 0xD800 ≤ code ∧ code < 0xE000 then surrogate ⟨code - 0xD800, by omega⟩
  else scalar (Char.ofNat code)

/-- A character is determined by its code point. -/
theorem ofNat_toNat (character : Character) : ofNat character.toNat = character := by
  cases character with
  | scalar value =>
    have notSurrogate : ¬(0xD800 ≤ value.toNat ∧ value.toNat < 0xE000) := by
      rcases value.valid with below | ⟨above, -⟩
      · exact fun inside => absurd below (Nat.not_lt.2 inside.1)
      · exact fun inside => absurd above (Nat.not_lt.2 (Nat.le_of_lt_succ inside.2))
    rw [toNat, ofNat, dif_neg notSurrogate, Char.ofNat_toNat]
  | surrogate place =>
    have isSurrogate : 0xD800 ≤ 0xD800 + place.val ∧ 0xD800 + place.val < 0xE000 := by omega
    rw [toNat, ofNat, dif_pos isSurrogate]
    simp

/-- Whether the character is a surrogate. -/
def isSurrogate : Character → Bool
  | scalar _ => false
  | surrogate _ => true

@[simp] theorem isSurrogate_scalar (value : Char) : (scalar value).isSurrogate = false :=
  rfl

/-- Whether the character is one of the ten ASCII digits. -/
def isDigit (character : Character) : Bool :=
  0x30 ≤ character.toNat && character.toNat ≤ 0x39

/-- The character with an ASCII capital made small. -/
def toLower : Character → Character
  | scalar value => scalar value.toLower
  | surrogate place => surrogate place

/-- The characters by which the error output shows the character: itself, and for a surrogate, which
cannot be encoded, an escape with its code point. -/
def shown : Character → List Char
  | scalar value => [value]
  | surrogate place => '\\' :: 'u' :: Nat.toDigits 16 (0xD800 + place.val)

end Character

/-- A text: its characters, in order. -/
abbrev Text := List Character

namespace Text

/-- The text of a string. -/
def ofString (string : String) : Text :=
  string.toList.map .scalar

instance : Coe String Text := ⟨ofString⟩

/-- Whether the text can be encoded: no surrogate stands alone in it. -/
def isEncodable (text : Text) : Bool :=
  text.all fun character => !character.isSurrogate

@[simp] theorem isEncodable_nil : isEncodable [] = true :=
  rfl

@[simp] theorem isEncodable_cons (character : Character) (text : Text) :
    isEncodable (character :: text) = (!character.isSurrogate && text.isEncodable) :=
  rfl

@[simp] theorem isEncodable_append (text other : Text) :
    isEncodable (text ++ other) = (text.isEncodable && other.isEncodable) :=
  List.all_append

/-- No string has a surrogate in it. -/
@[simp] theorem isEncodable_ofString (string : String) : (ofString string).isEncodable = true := by
  simp [isEncodable, ofString]

/-- The string that stands for a text: the text itself when it can be encoded, and else what the error
output shows for it. -/
def toString (text : Text) : String :=
  String.ofList (text.flatMap Character.shown)

end Text

end VerbExpansion
