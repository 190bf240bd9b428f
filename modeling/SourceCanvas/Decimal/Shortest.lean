import SourceCanvas.Decimal.Parts
import SourceCanvas.Decimal.Scientific

/-!
# The shortest decimal of a floating-point number

Every finite nonzero value is `m * 2 ^ q` with whole numbers `m` and `q`. The numbers that round to
it form an interval, whose ends belong to it when `m` is even. For one digit, two digits and so on,
the two neighbours of the value on the grid of decimals with that many digits are tested against the
interval; the first grid with a hit gives the digits, and of two hits the nearer one is taken.
-/

namespace SourceCanvas.Decimal

/-- A positive fraction with the ends of the interval that rounds to it, over one denominator. -/
structure Rounding where
  low : Nat
  value : Nat
  high : Nat
  denominator : Nat
  /-- whether the ends of the interval round to the value as well -/
  closed : Bool

/-- The interval around `m * 2 ^ q`. Below a power of two the values lie twice as close, unless `q`
is the least exponent there is. -/
def Rounding.ofBinary (m : Nat) (q : Int) : Rounding :=
  let below := if m = Nat.pow 2 52 && q != -1074 then 1 else 2
  let scale := q - 2
  let factor := Nat.pow 2 scale.toNat
  { low := (4 * m - below) * factor
    value := 4 * m * factor
    high := (4 * m + 2) * factor
    denominator := Nat.pow 2 (-scale).toNat
    closed := m % 2 == 0 }

/-- Whether the fraction `n / d` rounds to the value. -/
def Rounding.contains (r : Rounding) (n d : Nat) : Bool :=
  let left := n * r.denominator
  if r.closed then
    r.low * d ≤ left && left ≤ r.high * d
  else
    r.low * d < left && left < r.high * d

/-- The distance of the fraction `n / d` from the value, over the common denominator. -/
def Rounding.distance (r : Rounding) (n d : Nat) : Nat :=
  (n * r.denominator - r.value * d) + (r.value * d - n * r.denominator)

/-- The first exponent from `e` on, counted upward, at which `n * 10 ^ e` is at least `d`. -/
def leadingZeros (n d : Nat) : Nat → Nat → Nat
  | 0, e => e
  | fuel + 1, e => if d ≤ n * Nat.pow 10 e then e else leadingZeros n d fuel (e + 1)

/-- The exponent of the leading decimal digit of the value. -/
def Rounding.magnitude (r : Rounding) : Int :=
  if r.denominator ≤ r.value then
    (digitCount (r.value / r.denominator) : Int) - 1
  else
    -(leadingZeros r.value r.denominator 400 1 : Int)

/-- The neighbour of the value that rounds to it among the multiples of `10 ^ exponent`, if any. -/
def Rounding.onGrid? (r : Rounding) (exponent : Int) : Option Nat :=
  let up := Nat.pow 10 exponent.toNat
  let down := Nat.pow 10 (-exponent).toNat
  let floor := r.value * down / (r.denominator * up)
  let hit (n : Nat) : Bool := r.contains (n * up) down
  match hit floor && floor != 0, hit (floor + 1) with
  | true, true =>
    let left := r.distance (floor * up) down
    let right := r.distance ((floor + 1) * up) down
    if left < right || (left == right && floor % 2 == 0) then some floor else some (floor + 1)
  | true, false => some floor
  | false, true => some (floor + 1)
  | false, false => none

/-- The least count of digits, with the digits and the exponent of the last one. -/
def Rounding.shortest (r : Rounding) : Nat × Int :=
  let hits := (List.range 17).findSome? fun (places : Nat) =>
    let exponent := r.magnitude - (places : Int)
    (r.onGrid? exponent).map (·, exponent)
  hits.getD (0, 0)

/-- A number without the zeros at its end, with the exponent raised by their count. -/
def dropZeros : Nat → Nat → Int → Nat × Int
  | 0, digits, exponent => (digits, exponent)
  | fuel + 1, digits, exponent =>
    if digits ≠ 0 && digits % 10 = 0 then
      dropZeros fuel (digits / 10) (exponent + 1)
    else
      (digits, exponent)

/-- The kinds of floating-point value, with the parts of their decimal form. -/
inductive Form where
  | nan
  | infinite (negative : Bool)
  | zero (negative : Bool)
  /-- the value is `digits * 10 ^ exponent`, and no decimal with fewer digits rounds to it -/
  | finite (negative : Bool) (digits : Nat) (exponent : Int)

/-- The shortest decimal form of a value. -/
def shortest (x : Float) : Form :=
  match parts x with
  | .nan => .nan
  | .infinite negative => .infinite negative
  | .finite negative 0 _ => .zero negative
  | .finite negative mantissa exponent =>
    let (digits, exponent) := (Rounding.ofBinary mantissa exponent).shortest
    let (digits, exponent) := dropZeros 20 digits exponent
    .finite negative digits exponent

end SourceCanvas.Decimal
