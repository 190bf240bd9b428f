import SourceCanvas.Decimal.Shortest

/-!
# Decimal notation of floating-point numbers

How a value is written in its shortest decimal form. `display` always shows that the number is
not whole by type: it writes `2.0`, `2.5`, `1e+16`, with a decimal point below `10 ^ 16` and from
`10 ^ -4` on.
-/

namespace SourceCanvas.Decimal

/-- The names and the sign that a notation uses for values that have no digits. -/
structure Names where
  nan : String
  infinity : String

/-- The names used in messages. -/
def messageNames : Names := ⟨"nan", "inf"⟩

/-- The names used in data. -/
def dataNames : Names := ⟨"NaN", "Infinity"⟩

/-- A run of zeros. -/
def zeros (count : Nat) : List Char := List.replicate count '0'

/-- The exponents of the leading digit that are written with a decimal point alone. -/
def positional (leading : Int) : Bool := -4 ≤ leading && leading < 16

/-- Digits with a decimal point after the first `point` of them. -/
def pointed (digits : List Char) (point : Int) : List Char :=
  if point ≤ 0 then
    '0' :: '.' :: zeros (-point).toNat ++ digits
  else if digits.length ≤ point.toNat then
    digits ++ zeros (point.toNat - digits.length) ++ ['.', '0']
  else
    digits.take point.toNat ++ '.' :: digits.drop point.toNat

/-- An exponent: its sign and at least two digits. -/
def exponentPart (exponent : Int) : List Char :=
  let digits := Nat.toDigits 10 exponent.natAbs
  'e' :: (if exponent < 0 then '-' else '+') :: zeros (2 - digits.length) ++ digits

/-- Digits in scientific notation: the first one before the point. -/
def scientific (digits : List Char) (leading : Int) : List Char :=
  match digits with
  | [] => []
  | [first] => first :: exponentPart leading
  | first :: rest => first :: '.' :: rest ++ exponentPart leading

/-- The notation of a value, which shows by a point or an exponent that it is no whole number. -/
def display (names : Names) (x : Float) : String :=
  let sign (negative : Bool) : List Char := if negative then ['-'] else []
  match shortest x with
  | .nan => names.nan
  | .infinite negative => String.ofList (sign negative) ++ names.infinity
  | .zero negative => String.ofList (sign negative ++ ['0', '.', '0'])
  | .finite negative digits exponent =>
    let digits := Nat.toDigits 10 digits
    let leading := exponent + digits.length - 1
    let magnitude :=
      if positional leading then pointed digits (leading + 1) else scientific digits leading
    String.ofList (sign negative ++ magnitude)

/-! ## No notation is empty -/

theorem scientific_ne_nil {digits : List Char} (filled : digits ≠ []) (leading : Int) :
    scientific digits leading ≠ [] := by
  cases digits with
  | nil => exact absurd rfl filled
  | cons first rest => cases rest <;> exact List.cons_ne_nil _ _

theorem pointed_ne_nil (digits : List Char) (point : Int) : pointed digits point ≠ [] := by
  rw [pointed]
  split
  · exact List.cons_ne_nil _ _
  · split <;> simp

theorem display_ne_empty {names : Names} (nan : names.nan ≠ "") (infinity : names.infinity ≠ "")
    (x : Float) : display names x ≠ "" := by
  have ofList {chars : List Char} (filled : chars ≠ []) : String.ofList chars ≠ "" := by
    intro empty
    exact filled (by simpa using congrArg String.toList empty)
  rw [display]
  split
  · exact nan
  · exact fun empty => infinity (String.append_eq_empty_iff.mp empty).2
  · exact ofList (by simp)
  · refine ofList (List.append_ne_nil_of_right_ne_nil _ ?_)
    split
    · exact pointed_ne_nil _ _
    · exact scientific_ne_nil Nat.toDigits_ne_nil _

end SourceCanvas.Decimal
