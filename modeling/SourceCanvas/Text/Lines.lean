import SourceCanvas.Text.CharClass

/-!
# Lines, margins and trimming

Texts are handled here as lists of characters. `split` and `join` are inverse to each other
(`join_split`); `trim` removes blanks at both ends; `dedent?` takes the text between two braces to
the form in which it is kept as a captured body: no blank line at either end, no blank at the end of
a line, and the margin shared by all lines removed.
-/

namespace SourceCanvas.Text

/-! ## Splitting and joining -/

/-- The pieces of a text between the occurrences of a separator. -/
def split (sep : Char) : List Char → List (List Char)
  | [] => [[]]
  | c :: rest =>
    if c = sep then
      [] :: split sep rest
    else
      match split sep rest with
      | [] => [[c]]
      | piece :: pieces => (c :: piece) :: pieces

/-- Pieces put together with a separator between neighbours. -/
def join (sep : Char) : List (List Char) → List Char
  | [] => []
  | [piece] => piece
  | piece :: next :: pieces => piece ++ sep :: join sep (next :: pieces)

theorem split_ne_nil (sep : Char) (text : List Char) : split sep text ≠ [] := by
  cases text with
  | nil => simp [split]
  | cons c rest =>
    rw [split]
    split
    · simp
    · split <;> simp

theorem join_cons_cons (sep c : Char) (piece : List Char) (pieces : List (List Char)) :
    join sep ((c :: piece) :: pieces) = c :: join sep (piece :: pieces) := by
  cases pieces <;> simp [join]

/-- Splitting loses nothing. -/
theorem join_split (sep : Char) (text : List Char) : join sep (split sep text) = text := by
  induction text with
  | nil => rfl
  | cons c rest ih =>
    rw [split]
    split
    · next same =>
      cases pieces : split sep rest with
      | nil => exact absurd pieces (split_ne_nil sep rest)
      | cons piece pieces' => rw [join, ← pieces, ih, same, List.nil_append]
    · cases pieces : split sep rest with
      | nil => exact absurd pieces (split_ne_nil sep rest)
      | cons piece pieces' => rw [join_cons_cons, ← pieces, ih]

/-! ## Trimming -/

/-- A text without the blanks at its start. -/
def trimStart (text : List Char) : List Char := text.dropWhile isBlank

/-- A text without the blanks at its end. -/
def trimEnd : List Char → List Char
  | [] => []
  | c :: rest =>
    match trimEnd rest with
    | [] => if isBlank c then [] else [c]
    | kept => c :: kept

/-- A text without the blanks at both ends. -/
def trim (text : List Char) : List Char := trimEnd (trimStart text)

/-- Whether a text holds blanks only. -/
def isBlankText (text : List Char) : Bool := text.all isBlank

/-- A string without the blanks at both ends. -/
def trimString (text : String) : String := String.ofList (trim text.toList)

/-- A string if it is not empty. -/
def nonempty? (text : String) : Option String := if text = "" then none else some text

/-- A string if it is given and not empty. -/
def given? (text : Option String) : Option String := text.bind nonempty?

theorem given?_some {text : String} (filled : text ≠ "") : given? (some text) = some text :=
  if_neg filled

/-! ## Bodies -/

/-- The longest start that two texts share. -/
def commonStart : List Char → List Char → List Char
  | a :: as, b :: bs => if a = b then a :: commonStart as bs else []
  | _, _ => []

/-- Spaces and tabs, the characters that indent a line. -/
def isIndent (c : Char) : Bool := c = ' ' || c = '\t'

/-- The indentation of the lines, as far as all lines that hold more than indentation share it. -/
def margin (lines : List (List Char)) : List Char :=
  match (lines.filter fun line => !line.all isIndent).map (·.takeWhile isIndent) with
  | [] => []
  | first :: others => others.foldl commonStart first

/-- A line without a margin that it starts with. A line of indentation only becomes empty. -/
def removeMargin (width : List Char) (line : List Char) : List Char :=
  if line.all isIndent then
    []
  else if width.isPrefixOf line then
    line.drop width.length
  else
    line

/-- The lines of a text without the blank ones at its start and end. -/
def bodyLines (text : List Char) : List (List Char) :=
  let lines := (split '\n' text).dropWhile isBlankText
  (lines.reverse.dropWhile isBlankText).reverse

/-- A captured body: the text between two braces, moved to the left margin and trimmed, or nothing
where there are only blanks. A body of one line has no margin to keep. -/
def dedent? (text : List Char) : Option (List Char) :=
  let lines :=
    match bodyLines text with
    | [line] => [trimStart line]
    | lines => lines
  let moved := lines.map (removeMargin (margin lines))
  match trim (join '\n' (moved.map trimEnd)) with
  | [] => none
  | body => some body

/-! ## Positions of lines -/

/-- The offsets just after the line feeds of a text whose first character has the given offset. -/
def lineStartsFrom (offset : Nat) : List Char → List Nat
  | [] => []
  | c :: rest =>
    if c = '\n' then
      (offset + 1) :: lineStartsFrom (offset + 1) rest
    else
      lineStartsFrom (offset + 1) rest

/-- The offset of the first character of every line. -/
def lineOffsets (text : List Char) : List Nat := 0 :: lineStartsFrom 0 text

/-- The lines of a report, which may end in any of the line breaks; a carriage return with its line
feed is one break, and the last break opens no further line. -/
def reportLines : List Char → List (List Char)
  | [] => []
  | '\r' :: '\n' :: rest => [] :: reportLines rest
  | c :: rest =>
    if isLineBreak c then
      [] :: reportLines rest
    else
      match reportLines rest with
      | [] => [[c]]
      | line :: lines => (c :: line) :: lines

end SourceCanvas.Text
