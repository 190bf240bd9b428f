import SourceCanvas.Json.Basic
import SourceCanvas.Text.Numeral

/-!
# Reading JSON

`Json.parse?` reads one value with blanks around it. A number with a fraction or an exponent is read
as floating point, any other as a whole number of at most 4300 digits; the names `NaN`, `Infinity`
and `-Infinity` are accepted. A name that comes twice in an object keeps its first place and takes
its last value. Control characters have to be escaped.
-/

namespace SourceCanvas.Json

open SourceCanvas.Text (digitsValue wholeDigitLimit)

/-- The characters that may stand between the parts of a value. -/
def isSpace (c : Char) : Bool := c = ' ' || c = '\t' || c = '\n' || c = '\r'

/-- The text from the next part on. -/
def skipSpace (text : List Char) : List Char := text.dropWhile isSpace

/-- The value of a hexadecimal digit. -/
def hexValue? (c : Char) : Option Nat :=
  if '0' ≤ c ∧ c ≤ '9' then some (c.toNat - '0'.toNat)
  else if 'a' ≤ c ∧ c ≤ 'f' then some (c.toNat - 'a'.toNat + 10)
  else if 'A' ≤ c ∧ c ≤ 'F' then some (c.toNat - 'A'.toNat + 10)
  else none

/-- The number written by four hexadecimal digits. -/
def unit? (a b c d : Char) : Option Nat := do
  some (((← hexValue? a) * 16 + (← hexValue? b)) * 256 + (← hexValue? c) * 16 + (← hexValue? d))

/-- The character that two units of a pair stand for. -/
def pairChar? (high low : Nat) : Option Char :=
  if 0xD800 ≤ high ∧ high < 0xDC00 ∧ 0xDC00 ≤ low ∧ low < 0xE000 then
    some (Char.ofNat (0x10000 + (high - 0xD800) * 0x400 + (low - 0xDC00)))
  else
    none

/-- The character of one unit; half of a pair is shown by the replacement character. -/
def unitChar (unit : Nat) : Char := if 0xD800 ≤ unit ∧ unit < 0xE000 then '\ufffd' else .ofNat unit

/-- The character that an escape of one letter stands for. -/
def escaped? : Char → Option Char
  | '"' => some '"'
  | '\\' => some '\\'
  | '/' => some '/'
  | 'b' => some '\x08'
  | 'f' => some '\x0c'
  | 'n' => some '\n'
  | 'r' => some '\r'
  | 't' => some '\t'
  | _ => none

/-- Reads the contents of a string up to its closing quote, and gives the text after it. -/
def readString : Nat → List Char → Option (List Char × List Char)
  | 0, _ => none
  | fuel + 1, text =>
    match text with
    | [] => none
    | '"' :: rest => some ([], rest)
    | '\\' :: 'u' :: a :: b :: c :: d :: rest => do
      let unit ← unit? a b c d
      let single : Option (List Char × List Char) := do
        let (chars, rest) ← readString fuel rest
        some (unitChar unit :: chars, rest)
      match rest with
      | '\\' :: 'u' :: e :: f :: g :: h :: after =>
        match (unit? e f g h).bind (pairChar? unit) with
        | some char => do
          let (chars, rest) ← readString fuel after
          some (char :: chars, rest)
        | none => single
      | _ => single
    | '\\' :: c :: rest => do
      let char ← escaped? c
      let (chars, rest) ← readString fuel rest
      some (char :: chars, rest)
    | c :: rest =>
      if c < ' ' then
        none
      else do
        let (chars, rest) ← readString fuel rest
        some (c :: chars, rest)

/-- The digits at the start of a text, and the text after them. -/
def takeDigits (text : List Char) : List Char × List Char :=
  (text.takeWhile Char.isDigit, text.dropWhile Char.isDigit)

/-- Reads the fraction of a number, if the text starts with one. -/
def readFraction (text : List Char) : List Char × List Char :=
  match text with
  | '.' :: rest =>
    match takeDigits rest with
    | ([], _) => ([], text)
    | found => found
  | _ => ([], text)

/-- Reads the exponent of a number, if the text starts with one. -/
def readExponent (text : List Char) : Option Int × List Char :=
  match text with
  | 'e' :: rest | 'E' :: rest =>
    let (down, rest) := Text.takeSign rest
    match takeDigits rest with
    | ([], _) => (none, text)
    | (digits, rest) =>
      (some (if down then -(digitsValue digits : Int) else digitsValue digits), rest)
  | _ => (none, text)

/-- Reads a number without its sign. -/
def readMagnitude (negative : Bool) (text : List Char) : Option (Json × List Char) :=
  let (whole, rest) :=
    match text with
    | '0' :: rest => (['0'], rest)
    | _ => takeDigits text
  if whole.isEmpty then
    none
  else
    let (fraction, rest) := readFraction rest
    let (exponent?, rest) := readExponent rest
    if fraction.isEmpty && exponent?.isNone then
      if wholeDigitLimit < whole.length then
        none
      else
        let value : Int := digitsValue whole
        some (.int (if negative then -value else value), rest)
    else
      let value := Decimal.toFloat (digitsValue (whole ++ fraction))
        (exponent?.getD 0 - fraction.length)
      some (.float (if negative then -value else value), rest)

/-- Values with a name, with the text that writes them. -/
def named : List (List Char × Json) :=
  [("null".toList, .null), ("true".toList, .bool true), ("false".toList, .bool false),
    ("NaN".toList, .float (0.0 / 0.0)), ("Infinity".toList, .float (1.0 / 0.0)),
    ("-Infinity".toList, .float (-1.0 / 0.0))]

/-- Reads a value with a name. -/
def readNamed (text : List Char) : Option (Json × List Char) :=
  (named.find? fun entry => entry.1.isPrefixOf text).map fun entry =>
    (entry.2, text.drop entry.1.length)

/-- Reads a value that is neither a list nor an object. -/
def readScalar (fuel : Nat) (text : List Char) : Option (Json × List Char) :=
  match text with
  | '"' :: rest => (readString fuel rest).map fun (chars, rest) => (.string (.ofList chars), rest)
  | _ =>
    match readNamed text, text with
    | some found, _ => some found
    | none, '-' :: rest => readMagnitude true rest
    | none, _ => readMagnitude false text

mutual

/-- Reads one value. Fuel bounds the count of parts. -/
def readValue : Nat → List Char → Option (Json × List Char)
  | 0, _ => none
  | fuel + 1, text =>
    match text with
    | '[' :: rest =>
      match skipSpace rest with
      | ']' :: rest => some (.array [], rest)
      | rest => do
        let (items, rest) ← readItems fuel rest
        some (.array items, rest)
    | '\x7b' :: rest =>
      match skipSpace rest with
      | '\x7d' :: rest => some (.object [], rest)
      | rest => do
        let (fields, rest) ← readFields fuel rest
        some (.object (Catalog.ofList fields), rest)
    | _ => readScalar fuel text

/-- Reads the values of a list up to its closing bracket. -/
def readItems : Nat → List Char → Option (List Json × List Char)
  | 0, _ => none
  | fuel + 1, text => do
    let (item, rest) ← readValue fuel text
    match skipSpace rest with
    | ']' :: rest => some ([item], rest)
    | ',' :: rest =>
      let (items, rest) ← readItems fuel (skipSpace rest)
      some (item :: items, rest)
    | _ => none

/-- Reads the fields of an object up to its closing brace. -/
def readFields : Nat → List Char → Option (List (String × Json) × List Char)
  | 0, _ => none
  | fuel + 1, text =>
    match text with
    | '"' :: rest => do
      let (name, rest) ← readString fuel rest
      match skipSpace rest with
      | ':' :: rest =>
        let (value, rest) ← readValue fuel (skipSpace rest)
        match skipSpace rest with
        | '\x7d' :: rest => some ([(String.ofList name, value)], rest)
        | ',' :: rest =>
          let (fields, rest) ← readFields fuel (skipSpace rest)
          some ((String.ofList name, value) :: fields, rest)
        | _ => none
      | _ => none
    | _ => none

end

/-- Reads a whole text as one value. -/
def parse? (text : List Char) : Option Json := do
  let (value, rest) ← readValue (2 * text.length + 2) (skipSpace text)
  if (skipSpace rest).isEmpty then some value else none

end SourceCanvas.Json
