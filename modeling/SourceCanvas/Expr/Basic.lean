import SourceCanvas.Node.Attributes
import SourceCanvas.Token.Basic

/-!
# Expressions

An expression is a tree of spans. The form of a node says what the expression is and holds what is
not an expression of its own, such as an operator; the parts are the expressions inside it, in the
order of the source. Expressions that have no form of their own keep their parts only.
-/

namespace SourceCanvas

/-- What an expression is. -/
inductive Form where
  | identifier
  | literal (kind : LiteralKind)
  /-- an expression in parentheses -/
  | paren
  /-- a call: the function, then the arguments -/
  | call
  /-- an access to a property of the one part -/
  | member (name : String)
  | binary (operator : String)
  /-- a choice: the test, then the two outcomes -/
  | conditional
  /-- an object: its keys, with the spans of their values; a shorthand has none -/
  | object (properties : List (String × Option Span))
  | other
  deriving DecidableEq, Repr

/-- An expression of a source text. -/
inductive Expr where
  | mk (form : Form) (span : Span) (parts : List Expr)
  deriving Repr

namespace Expr

/-- What the expression is. -/
def form : Expr → Form
  | .mk form _ _ => form

/-- Where the expression lies. -/
def span : Expr → Span
  | .mk _ span _ => span

/-- The expressions inside it. -/
def parts : Expr → List Expr
  | .mk _ _ parts => parts

/-- The offset of its first character. -/
def start (expr : Expr) : Nat := expr.span.start

/-- The offset after its last character. -/
def stop (expr : Expr) : Nat := expr.span.stop

/-- An expression without parts that one token makes. -/
def leaf (form : Form) (token : Token) : Expr := .mk form token.span []

/-- The expression inside all parentheses around it. -/
def unwrap : Expr → Expr
  | .mk .paren span (inner :: rest) => let _ := (span, rest); unwrap inner
  | expr => expr

end Expr

/-- What is written about a parameter, by where it lies. -/
structure ParameterSpans where
  name : Span
  optional : Bool
  type : Option Span
  value : Option Span
  deriving Repr

end SourceCanvas
