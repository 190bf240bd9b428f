import SourceCanvas.Text.Lines
import SourceCanvas.Decimal.Scientific

/-!
# Numerals in settings

Whole numbers and decimals as they are written in settings: blanks around them are ignored, but for
the four separators of records, digits of any script count, and a low line may stand between two
digits. A whole number has at most 4300 digits.
-/

namespace SourceCanvas.Text

/-- The four characters that separate files, groups, records and units. -/
def isSeparator (c : Char) : Bool := 28 ≤ c.val && c.val ≤ 31

/-- Characters that may stand before and after a numeral. -/
def isMargin (c : Char) : Bool := isBlank c && !isSeparator c

/-- A numeral without what may stand before and after it. -/
def withoutMargins (text : List Char) : List Char :=
  ((text.dropWhile isMargin).reverse.dropWhile isMargin).reverse

/-- A numeral with the digits of all scripts written as those from 0 to 9. -/
def plainDigits (text : List Char) : List Char :=
  text.map fun c => match decimalValue? c with
    | some value => Char.ofNat ('0'.toNat + value)
    | none => c

/-- A numeral without its low lines, or nothing where one does not stand between two digits. -/
def dropLowLines? (afterDigit : Bool) : List Char → Option (List Char)
  | [] => some []
  | '_' :: c :: rest =>
    if afterDigit && c.isDigit then (dropLowLines? true rest).map (c :: ·) else none
  | ['_'] => none
  | c :: rest => (dropLowLines? c.isDigit rest).map (c :: ·)

/-- The sign before a numeral, and the numeral. -/
def takeSign : List Char → Bool × List Char
  | '-' :: rest => (true, rest)
  | '+' :: rest => (false, rest)
  | text => (false, text)

/-- The number that a run of digits stands for. -/
def digitsValue (digits : List Char) : Nat :=
  digits.foldl (fun value c => 10 * value + (c.toNat - '0'.toNat)) 0

/-- The largest count of digits in a whole number. -/
def wholeDigitLimit : Nat := 4300

/-- Reads a whole number. -/
def readWhole? (text : List Char) : Option Int := do
  let (negative, digits) := takeSign (plainDigits (withoutMargins text))
  let digits ← dropLowLines? false digits
  if digits.isEmpty || !digits.all Char.isDigit || wholeDigitLimit < digits.length then
    none
  else
    let value : Int := digitsValue digits
    some (if negative then -value else value)

/-- The names under which infinity and not-a-number are read, in small letters. -/
def readName? (letters : List Char) : Option Float :=
  match String.ofList (letters.map Char.toLower) with
  | "inf" | "infinity" => some (1.0 / 0.0)
  | "nan" => some (0.0 / 0.0)
  | _ => none

/-- Reads a decimal number, which may have a fraction and an exponent. -/
def readDecimal? (text : List Char) : Option Float := do
  let (negative, body) := takeSign (plainDigits (withoutMargins text))
  let magnitude ←
    match readName? body with
    | some value => some value
    | none => do
      let body ← dropLowLines? false body
      let (whole, rest) := (body.takeWhile Char.isDigit, body.dropWhile Char.isDigit)
      let (fraction, rest) :=
        match rest with
        | '.' :: rest => (rest.takeWhile Char.isDigit, rest.dropWhile Char.isDigit)
        | rest => ([], rest)
      if whole.isEmpty && fraction.isEmpty then
        none
      let exponent : Int ←
        match rest with
        | [] => some 0
        | 'e' :: rest | 'E' :: rest =>
          let (down, digits) := takeSign rest
          if digits.isEmpty || !digits.all Char.isDigit then
            none
          else
            some (if down then -(digitsValue digits : Int) else digitsValue digits)
        | _ => none
      some (Decimal.toFloat (digitsValue (whole ++ fraction)) (exponent - fraction.length))
  some (if negative then -magnitude else magnitude)

end SourceCanvas.Text
