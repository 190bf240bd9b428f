import SourceCanvas.Token.Basic

/-!
# Cursors

A reader of tokens works in a window of them. A cursor holds the tokens of the window that are still
to be read, and the token that stands where the window ends: the end of the text, or the brace that
closes a body. Beyond the window only that token is ever seen, and it is never passed.
-/

namespace SourceCanvas

/-- The tokens of a window that are left, and the token at its end. -/
structure Cursor where
  rest : List Token
  fence : Token
  deriving Repr

namespace Cursor

/-- The next token. -/
def peek (cursor : Cursor) : Token := cursor.rest.headD cursor.fence

/-- The token after a count of others. -/
def peekAt (cursor : Cursor) (count : Nat) : Token := cursor.rest.getD count cursor.fence

/-- The cursor after the next token, unless the window ends. -/
def advance (cursor : Cursor) : Cursor := { cursor with rest := cursor.rest.tail }

/-- The cursor at another rest of its window. -/
def move (cursor : Cursor) (rest : List Token) : Cursor := { cursor with rest }

/-- Whether the window is used up. -/
def atEnd (cursor : Cursor) : Bool := cursor.rest.isEmpty

/-- The count of tokens left. -/
def size (cursor : Cursor) : Nat := cursor.rest.length

/-- Reads the given punctuator. -/
def expectPunct (cursor : Cursor) (value : String) : Option (Token × Cursor) :=
  if cursor.peek.isPunct value then some (cursor.peek, cursor.advance) else none

/-- Reads any word. -/
def expectIdentifier (cursor : Cursor) : Option (Token × Cursor) :=
  if cursor.peek.kind = .identifier then some (cursor.peek, cursor.advance) else none

/-- Reads the given word. -/
def expectWord (cursor : Cursor) (value : String) : Option (Token × Cursor) :=
  if cursor.peek.isWord value then some (cursor.peek, cursor.advance) else none

/-- Reads a string. -/
def expectString (cursor : Cursor) : Option (Token × Cursor) :=
  if cursor.peek.kind = .string then some (cursor.peek, cursor.advance) else none

/-- The cursor after the given punctuator, if that comes next. -/
def skipPunct (cursor : Cursor) (value : String) : Cursor :=
  if cursor.peek.isPunct value then cursor.advance else cursor

/-- Reads the end of a statement: a semicolon, or nothing where the window ends, a line begins or a
brace closes. -/
def endStatement (cursor : Cursor) : Option Cursor :=
  let token := cursor.peek
  if token.isPunct ";" then
    some cursor.advance
  else if cursor.atEnd || token.newlineBefore || token.isPunct "\x7d" then
    some cursor
  else
    none

@[simp] theorem size_advance (cursor : Cursor) : cursor.advance.size = cursor.size - 1 := by
  simp [size, advance]

@[simp] theorem fence_advance (cursor : Cursor) : cursor.advance.fence = cursor.fence := rfl

theorem peek_eq_peekAt (cursor : Cursor) : cursor.peek = cursor.peekAt 0 := by
  cases h : cursor.rest <;> simp [peek, peekAt, h]

end Cursor

end SourceCanvas
