import VerbExpansion.Text.Basic

/-!
# Hexadecimal digits

Written in lower case and with leading zeros, read in either case.
-/

namespace VerbExpansion.Text

/-- The lower-case hexadecimal digit of a value below sixteen. -/
def hexadecimalDigit (value : Nat) : Character :=
  if value < 10 then .scalar (Char.ofNat ('0'.toNat + value))
  else .scalar (Char.ofNat ('a'.toNat + (value - 10)))

/-- The last `width` hexadecimal digits of a number. -/
def hexadecimal : (width : Nat) → (number : Nat) → Text
  | 0, _ => []
  | width + 1, number => hexadecimal width (number / 16) ++ [hexadecimalDigit (number % 16)]

/-- The value of a hexadecimal digit. -/
def hexadecimalValue? (character : Character) : Option Nat :=
  let code := character.toNat
  if 0x30 ≤ code ∧ code ≤ 0x39 then some (code - 0x30)
  else if 0x61 ≤ code ∧ code ≤ 0x66 then some (code - 0x61 + 10)
  else if 0x41 ≤ code ∧ code ≤ 0x46 then some (code - 0x41 + 10)
  else none

@[simp] theorem length_hexadecimal (width number : Nat) :
    (hexadecimal width number).length = width := by
  induction width generalizing number with
  | zero => rfl
  | succ width inductionHypothesis => simp [hexadecimal, inductionHypothesis]

/-- A digit that was written is read back. -/
theorem hexadecimalValue?_hexadecimalDigit {value : Nat} (bounded : value < 16) :
    hexadecimalValue? (hexadecimalDigit value) = some value := by
  have checked : ∀ value : Fin 16, hexadecimalValue? (hexadecimalDigit value) = some value.val := by
    decide
  exact checked ⟨value, bounded⟩

end VerbExpansion.Text
