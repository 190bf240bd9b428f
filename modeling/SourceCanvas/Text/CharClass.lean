import SourceCanvas.Text.CharTable

/-!
# Character classes

The predicates on characters that the rest of the library asks for. Each answers from a short list
of cases below code point 128 and from a table above it, so that the tables are not searched for
plain text.
-/

namespace SourceCanvas.Text

/-- Whether a code point lies in one of the ranges of a table. -/
def inRanges (table : List (Nat × Nat)) (code : Nat) : Bool :=
  table.any fun range => range.1 ≤ code && code ≤ range.2

/-- Blank characters: those that trimming removes. -/
def isBlank (c : Char) : Bool :=
  if c.val < 128 then
    c = ' ' || (9 ≤ c.val && c.val ≤ 13) || (28 ≤ c.val && c.val ≤ 31)
  else
    inRanges CharTable.blank c.toNat

/-- Characters after which a new line of a report begins. -/
def isLineBreak (c : Char) : Bool :=
  (10 ≤ c.val && c.val ≤ 13) || (28 ≤ c.val && c.val ≤ 30) ||
    c.val == 0x85 || c.val == 0x2028 || c.val == 0x2029

/-- The value of a decimal digit of any script. Tables list decimal digits in whole runs of ten. -/
def decimalValue? (c : Char) : Option Nat :=
  if c.val < 128 then
    if c.isDigit then some (c.toNat - '0'.toNat) else none
  else
    (CharTable.decimalDigit.find? fun range => range.1 ≤ c.toNat && c.toNat ≤ range.2).map
      fun range => (c.toNat - range.1) % 10

/-- Decimal digits of any script. -/
def isDecimal (c : Char) : Bool := (decimalValue? c).isSome

/-- Characters that stand for one digit, decimal or not. -/
def isDigit (c : Char) : Bool := isDecimal c || inRanges CharTable.otherDigit c.toNat

/-- Characters of a word: letters, characters with a numeric value and the low line. -/
def isWord (c : Char) : Bool :=
  if c.val < 128 then c.isAlphanum || c = '_' else inRanges CharTable.alphanumeric c.toNat

/-- Characters that a quoted display shows as themselves. -/
def isPrintable (c : Char) : Bool :=
  if c.val < 128 then 32 ≤ c.val && c.val < 127 else !inRanges CharTable.unprintable c.toNat

/-- The capital form of a character, which may be several characters. -/
def capital (c : Char) : List Char :=
  if c.val < 128 then
    [c.toUpper]
  else
    match CharTable.longCapitals.find? (·.1 == c.toNat) with
    | some (_, codes) => codes.map Char.ofNat
    | none =>
      match CharTable.capitals.find? fun run =>
          run.first ≤ c.toNat && c.toNat ≤ run.last && (c.toNat - run.first) % run.step == 0 with
      | some run => [Char.ofNat (run.capital + (c.toNat - run.first))]
      | none => [c]

/-- A text in capitals. -/
def toCapitals (text : String) : String := String.ofList (text.toList.flatMap capital)

/-- Whitespace between words, as `Char.isWhitespace` has it, is blank. -/
theorem isBlank_of_isWhitespace {c : Char} (h : c.isWhitespace = true) : isBlank c = true := by
  simp only [Char.isWhitespace, Bool.or_eq_true, decide_eq_true_eq] at h
  rcases h with ((rfl | rfl) | rfl) | rfl <;> decide

/-- The decimal digits below code point 128 are the ten of `Char.isDigit`. -/
theorem isDecimal_of_isDigit {c : Char} (h : c.isDigit = true) : isDecimal c = true := by
  have small : c.val < 128 := by
    simp only [Char.isDigit, Bool.and_eq_true, decide_eq_true_eq] at h
    exact Nat.lt_of_le_of_lt (UInt32.le_iff_toNat_le.mp h.2) (by decide)
  simp [isDecimal, decimalValue?, small, h]

end SourceCanvas.Text
