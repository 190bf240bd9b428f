/-!
# The parts of a floating-point number

Every finite value is a whole number times a power of two. `parts` takes a value apart, so that it
can be compared and written exactly.
-/

namespace SourceCanvas.Decimal

/-- The kinds of floating-point value, with the parts of the finite ones. -/
inductive Parts where
  | nan
  | infinite (negative : Bool)
  /-- the value is `mantissa * 2 ^ exponent`, less than zero or minus zero if it is negative -/
  | finite (negative : Bool) (mantissa : Nat) (exponent : Int)

/-- The parts of a value. The least exponent is shared by the values that have no leading bit. -/
def parts (x : Float) : Parts :=
  let bits := x.toBits.toNat
  let hidden := Nat.pow 2 52
  let negative := bits / Nat.pow 2 63 == 1
  let biased := bits / hidden % Nat.pow 2 11
  let fraction := bits % hidden
  if biased = 2047 then
    if fraction = 0 then .infinite negative else .nan
  else if biased = 0 then
    .finite negative fraction (-1074)
  else
    .finite negative (hidden + fraction) (Int.ofNat biased - 1075)

/-- A number with a sign. -/
def signed (negative : Bool) (n : Nat) : Int := if negative then -n else n

/-- The whole number that a value is, if it is one that neighbours of it can be told from: below
`2 ^ 53`, where floating-point numbers lie no more than one apart. -/
def whole? (x : Float) : Option Int :=
  match parts x with
  | .finite negative mantissa exponent =>
    let denominator := Nat.pow 2 (-exponent).toNat
    if exponent ≤ 0 ∧ mantissa % denominator = 0 then
      some (signed negative (mantissa / denominator))
    else
      none
  | _ => none

/-- How a whole number compares with a value, which is unordered if it is not a number. -/
def compareWhole? (n : Int) (x : Float) : Option Ordering :=
  match parts x with
  | .nan => none
  | .infinite negative => some (if negative then .gt else .lt)
  | .finite negative mantissa exponent =>
    some (compare (n * Nat.pow 2 (-exponent).toNat)
      (signed negative mantissa * Nat.pow 2 exponent.toNat))

end SourceCanvas.Decimal
