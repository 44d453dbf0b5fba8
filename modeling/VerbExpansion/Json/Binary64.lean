/-!
# Decimals held in binary64

A number with a point or an exponent is held as the nearest binary64 number, of two equally near ones
the one with the even significand. `integerNearest?` says which integer that number is, in exact
arithmetic on natural numbers.
-/

namespace VerbExpansion.Json.Binary64

/-- The quotient rounded to the nearest natural number, a half to the even one. -/
def roundQuotient (numerator denominator : Nat) : Nat :=
  let quotient := numerator / denominator
  let twice := 2 * (numerator % denominator)
  if twice < denominator then quotient
  else if denominator < twice then quotient + 1
  else if quotient % 2 = 0 then quotient
  else quotient + 1

/-- The significand of the binary64 number nearest to a positive fraction, and its power of two. The
significand has 53 bits, or fewer at the least power. -/
def nearest (numerator denominator : Nat) : Nat × Int :=
  let low : Int := (numerator.log2 : Int) - denominator.log2 - 53
  let scaled (power : Int) : Nat × Nat :=
    (numerator <<< (-power).toNat, denominator <<< power.toNat)
  let (top, bottom) := scaled low
  let power := max (if top < bottom <<< 53 then low else low + 1) (-1074)
  let (top, bottom) := scaled power
  (roundQuotient top bottom, power)

/-- The integer that is written by a significand and a power of two, if it is one. -/
def integer? (significand : Nat) (power : Int) : Option Nat :=
  let whole := significand <<< power.toNat
  let divisor := 1 <<< (-power).toNat
  if whole % divisor = 0 then some (whole / divisor) else none

/-- The natural number that the binary64 number nearest to a decimal is; nothing when that number is
not whole or not finite. Decimals far outside the range are told from their size alone. -/
def naturalNearest? (mantissa : Nat) (exponent : Int) : Option Nat :=
  if mantissa = 0 then some 0
  else if 400 < exponent then none
  else if exponent + mantissa.log2 < -1200 then some 0
  else
    let (significand, power) :=
      nearest (mantissa * Nat.pow 10 exponent.toNat) (Nat.pow 10 (-exponent).toNat)
    match integer? significand power with
    | some whole => if whole < 1 <<< 1024 then some whole else none
    | none => none

/-- The integer that the binary64 number nearest to a decimal is. -/
def integerNearest? (mantissa exponent : Int) : Option Int :=
  (naturalNearest? mantissa.natAbs exponent).map fun whole =>
    if mantissa < 0 then -(whole : Int) else whole

end VerbExpansion.Json.Binary64
