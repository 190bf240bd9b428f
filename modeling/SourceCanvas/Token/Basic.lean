/-!
# Tokens

A source text is read as a list of tokens. A token knows the text it stands for, where that lies,
and whether a line break comes before it, on which the end of a statement may depend. The last token
of a text is an empty one at its end.
-/

namespace SourceCanvas

/-- A half-open range of offsets, counted in characters. -/
structure Span where
  start : Nat
  stop : Nat
  deriving DecidableEq, Repr, Inhabited

/-- Whether an offset belongs to a span. An empty span still contains its start. -/
def Span.contains (span : Span) (offset : Int) : Bool :=
  (span.start ≤ offset && offset < span.stop) || offset == span.start

/-- The kinds of token. -/
inductive TokenKind where
  | identifier
  | number
  | string
  | template
  | regex
  | punctuator
  | eof
  deriving DecidableEq, Repr, Inhabited

/-- The name of a kind of token. -/
def TokenKind.name : TokenKind → String
  | .identifier => "identifier"
  | .number => "number"
  | .string => "string"
  | .template => "template"
  | .regex => "regex"
  | .punctuator => "punctuator"
  | .eof => "eof"

/-- A token of a source text. -/
structure Token where
  kind : TokenKind
  value : String
  span : Span
  newlineBefore : Bool
  deriving DecidableEq, Repr, Inhabited

namespace Token

/-- Whether the token is the given punctuator. -/
def isPunct (token : Token) (value : String) : Bool :=
  token.kind == .punctuator && token.value == value

/-- Whether the token is one of the given punctuators. -/
def isPunctIn (token : Token) (values : List String) : Bool :=
  token.kind == .punctuator && values.contains token.value

/-- Whether the token is the given word. -/
def isWord (token : Token) (value : String) : Bool :=
  token.kind == .identifier && token.value == value

/-- Whether the token is one of the given words. -/
def isWordIn (token : Token) (values : List String) : Bool :=
  token.kind == .identifier && values.contains token.value

/-- Whether the token opens a bracket. -/
def isOpener (token : Token) : Bool := token.isPunctIn ["(", "[", "\x7b"]

/-- Whether the token closes a bracket. -/
def isCloser (token : Token) : Bool := token.isPunctIn [")", "]", "\x7d"]

/-- Whether the token ends one or more angle brackets. -/
def isAngleCloser (token : Token) : Bool := token.isPunctIn [">", ">>", ">>>"]

/-- The offset of the first character. -/
def start (token : Token) : Nat := token.span.start

/-- The offset after the last character. -/
def stop (token : Token) : Nat := token.span.stop

/-- The token at the end of a text. -/
def atEnd (offset : Nat) (newlineBefore : Bool) : Token :=
  ⟨.eof, "", ⟨offset, offset⟩, newlineBefore⟩

end Token

end SourceCanvas
