import SourceCanvas.Decimal.Notation

/-!
# Numbers as they are given

A number is given as a whole one or as a decimal one, and keeps that form. Whole numbers are exact,
and so are their sums and products; where a decimal number takes part, the outcome is a decimal one.
Comparisons are exact.
-/

namespace SourceCanvas

/-- A number in the form in which it was given. -/
inductive Number where
  | whole (value : Int)
  | decimal (value : Float)

namespace Number

/-- The floating-point value nearest to a number. -/
def toFloat : Number → Float
  | .whole value => Float.ofInt value
  | .decimal value => value

/-- The number as messages show it. -/
def display : Number → String
  | .whole value => toString value
  | .decimal value => Decimal.display Decimal.messageNames value

/-- Whether a number is zero. -/
def isZero : Number → Bool
  | .whole value => value == 0
  | .decimal value => value == 0

/-! ## Arithmetic -/

/-- The sum of two numbers. -/
def add : Number → Number → Number
  | .whole a, .whole b => .whole (a + b)
  | a, b => .decimal (a.toFloat + b.toFloat)

/-- The product of two numbers. -/
def mul : Number → Number → Number
  | .whole a, .whole b => .whole (a * b)
  | a, b => .decimal (a.toFloat * b.toFloat)

/-- Whether a number is less than another one. -/
def below : Number → Number → Bool
  | .whole a, .whole b => a < b
  | .whole a, .decimal b => Decimal.compareWhole? a b == some .lt
  | .decimal a, .whole b => Decimal.compareWhole? b a == some .gt
  | .decimal a, .decimal b => a < b

instance : Add Number := ⟨add⟩

instance : Mul Number := ⟨mul⟩

/-- Sums start from a decimal zero, and so they are decimal themselves. -/
instance : OfNat Number 0 := ⟨.decimal 0⟩

instance : OfNat Number 2 := ⟨.whole 2⟩

instance : LT Number := ⟨fun a b => below a b = true⟩

instance : DecidableLT Number := fun a b => inferInstanceAs (Decidable (below a b = true))

end Number

end SourceCanvas
