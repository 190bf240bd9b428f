/-!
# Decimal numbers as floating point

A decimal number is a whole number times a power of ten. Its floating-point value is the nearest
one, infinite where the number is too large. Exponents beyond the range of finite values are cut
off, so that the power of ten stays small.
-/

namespace SourceCanvas.Decimal

/-- The count of decimal digits of a number, at least one. -/
def digitCount (n : Nat) : Nat := (Nat.toDigits 10 n).length

/-- The exponents beyond which every number is too large, or too small to differ from zero. -/
def exponentBound : Int := 400

/-- The floating-point value nearest to `mantissa * 10 ^ exponent`. -/
def toFloat (mantissa : Nat) (exponent : Int) : Float :=
  if mantissa = 0 then
    0.0
  else if exponentBound < digitCount mantissa + exponent then
    1.0 / 0.0
  else if digitCount mantissa + exponent < -exponentBound then
    0.0
  else if 0 ≤ exponent then
    Float.ofScientific (mantissa * Nat.pow 10 exponent.toNat) false 0
  else
    Float.ofScientific mantissa true (-exponent).toNat

end SourceCanvas.Decimal
