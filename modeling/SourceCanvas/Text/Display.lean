import SourceCanvas.Text.CharClass

/-!
# Texts shown in messages

A text in a message stands in single quotes, or in double quotes if it holds a single quote and no
double one. The quote, the reverse solidus and whatever cannot be printed are escaped.
-/

namespace SourceCanvas.Text

/-- A number in hexadecimal, filled with zeros to a width. -/
def hexPadded (width n : Nat) : List Char :=
  let digits := Nat.toDigits 16 n
  List.replicate (width - digits.length) '0' ++ digits

/-- A character between the given quotes. -/
def displayChar (mark c : Char) : List Char :=
  if c = mark || c = '\\' then ['\\', c]
  else if c = '\t' then ['\\', 't']
  else if c = '\n' then ['\\', 'n']
  else if c = '\r' then ['\\', 'r']
  else if isPrintable c then [c]
  else if c.toNat < 0x100 then '\\' :: 'x' :: hexPadded 2 c.toNat
  else if c.toNat < 0x10000 then '\\' :: 'u' :: hexPadded 4 c.toNat
  else '\\' :: 'U' :: hexPadded 8 c.toNat

/-- The quotes that a text is shown in. -/
def displayMark (text : List Char) : Char :=
  if text.contains '\'' && !text.contains '"' then '"' else '\''

/-- A text as messages show it. -/
def display (text : String) : String :=
  let chars := text.toList
  let mark := displayMark chars
  String.ofList (mark :: chars.flatMap (displayChar mark) ++ [mark])

end SourceCanvas.Text
