import SourceCanvas.Json.Basic
import SourceCanvas.Decimal.Notation

/-!
# Writing JSON

`Json.render` writes a value on one line with `", "` between neighbours and `": "` after a name.
Characters beyond code point 126 and control characters are written by escapes of four hexadecimal
digits, those above U+FFFF as two such escapes.
-/

namespace SourceCanvas.Json

/-- Four hexadecimal digits. -/
def hex4 (n : Nat) : List Char :=
  let digits := Nat.toDigits 16 n
  List.replicate (4 - digits.length) '0' ++ digits

/-- The escape of one unit. -/
def unitEscape (unit : Nat) : List Char := '\\' :: 'u' :: hex4 unit

/-- A character inside a string. -/
def renderChar (c : Char) : List Char :=
  if c = '"' then ['\\', '"']
  else if c = '\\' then ['\\', '\\']
  else if c = '\n' then ['\\', 'n']
  else if c = '\r' then ['\\', 'r']
  else if c = '\t' then ['\\', 't']
  else if c = '\x08' then ['\\', 'b']
  else if c = '\x0c' then ['\\', 'f']
  else if ' ' ≤ c ∧ c ≤ '~' then [c]
  else if c.toNat < 0x10000 then unitEscape c.toNat
  else
    let n := c.toNat - 0x10000
    unitEscape (0xD800 + n / 0x400) ++ unitEscape (0xDC00 + n % 0x400)

/-- A string in quotes. -/
def renderChars (text : List Char) : List Char := '"' :: text.flatMap renderChar ++ ['"']

/-- A string in quotes. -/
def renderString (text : String) : String := String.ofList (renderChars text.toList)

mutual

/-- The text of a value. -/
def render : Json → String
  | .null => "null"
  | .bool true => "true"
  | .bool false => "false"
  | .int value => toString value
  | .float value => Decimal.display Decimal.dataNames value
  | .string value => renderString value
  | .array items => "[" ++ renderItems items ++ "]"
  | .object fields => "\x7b" ++ renderFields fields ++ "\x7d"

/-- The texts of the values of a list. -/
def renderItems : List Json → String
  | [] => ""
  | [item] => render item
  | item :: next :: items => render item ++ ", " ++ renderItems (next :: items)

/-- The texts of the fields of an object. -/
def renderFields : List (String × Json) → String
  | [] => ""
  | [(name, value)] => renderString name ++ ": " ++ render value
  | (name, value) :: next :: fields =>
    renderString name ++ ": " ++ render value ++ ", " ++ renderFields (next :: fields)

end

end SourceCanvas.Json
