/-!
# Double-quoted literals

`quote` writes the contents of a string literal between double quotes and keeps the escapes that the
contents already hold: a reverse solidus and the character after it are copied as a pair. Only what
would end the literal too early is escaped: a bare quote, a line feed, and a reverse solidus with
nothing after it. `unquote` takes the first and the last character off.
-/

namespace SourceCanvas.Text

/-- The contents of a literal with bare quotes, line feeds and a last reverse solidus escaped. -/
def escape : List Char → List Char
  | [] => []
  | ['\\'] => ['\\', '\\']
  | '\\' :: c :: rest => '\\' :: c :: escape rest
  | '"' :: rest => '\\' :: '"' :: escape rest
  | '\n' :: rest => '\\' :: 'n' :: escape rest
  | c :: rest => c :: escape rest

/-- The literal with the given contents. -/
def quoteChars (contents : List Char) : List Char := '"' :: escape contents ++ ['"']

/-- The literal with the given contents, as a string. -/
def quote (contents : String) : String := String.ofList (quoteChars contents.toList)

/-- The contents of a literal: the text without its first and last character. -/
def unquoteChars (literal : List Char) : List Char := (literal.drop 1).dropLast

/-- The contents of a literal, as a string. -/
def unquote (literal : String) : String := String.ofList (unquoteChars literal.toList)

/-- Taking the quotes off leaves the escaped contents. -/
theorem unquoteChars_quoteChars (contents : List Char) :
    unquoteChars (quoteChars contents) = escape contents := by
  simp [unquoteChars, quoteChars]

end SourceCanvas.Text
