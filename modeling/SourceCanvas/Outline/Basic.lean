import SourceCanvas.Expr.Basic
import SourceCanvas.Node.Basic
import SourceCanvas.Text.Quoted

/-!
# Outlines

An outline of a source text is a forest of constructs. A construct has attributes, the span it takes
up, and the constructs inside it. `Construct.nodes` lists a construct and all below it, each before
those inside it, and gives every node the id that follows from its span and kind.
-/

namespace SourceCanvas

/-- The text of a span. -/
def Span.slice (span : Span) (source : List Char) : String :=
  String.ofList ((source.drop span.start).take (span.stop - span.start))

/-- A construct of a source text. -/
inductive Construct where
  | mk (attributes : Attributes) (span : Span) (children : List Construct)
  deriving Repr

namespace Construct

/-- What the construct is. -/
def attributes : Construct → Attributes
  | .mk attributes _ _ => attributes

/-- Where the construct lies. -/
def span : Construct → Span
  | .mk _ span _ => span

/-- The constructs inside it. -/
def children : Construct → List Construct
  | .mk _ _ children => children

/-- The id of the node of a construct. -/
def id (construct : Construct) : String :=
  nodeId construct.span.start construct.span.stop construct.attributes.kind.name

mutual

/-- The nodes of a construct below a parent. -/
def nodes (parent : Option String) : Construct → List Node
  | .mk attributes span children =>
    let id := nodeId span.start span.stop attributes.kind.name
    { id, content := .typed attributes, parent, span := some span } :: listNodes (some id) children

/-- The nodes of constructs below a parent. -/
def listNodes (parent : Option String) : List Construct → List Node
  | [] => []
  | construct :: others => nodes parent construct ++ listNodes parent others

end

end Construct

/-! ## Constructs of expressions -/

namespace Expr

/-- The attributes of an expression, if its form has a kind of node. -/
def attributes? (source : List Char) (expr : Expr) : Option Attributes :=
  let text (expr : Expr) : String := expr.span.slice source
  match expr with
  | .mk .call _ (function :: args) =>
    some (.call { function := some (text function), args := args.map text })
  | .mk (.member name) _ [target] =>
    some (.propertyAccess { object := some (text target.unwrap), property := name })
  | .mk (.binary operator) _ [left, right] =>
    some (.binaryOp { operator, left := some (text left), right := some (text right) })
  | .mk .conditional _ [test, whenTrue, whenFalse] =>
    some (.conditional
      { test := some (text test), whenTrue := some (text whenTrue),
        whenFalse := some (text whenFalse) })
  | .mk (.object properties) _ _ =>
    some (.object {
      properties := properties.map fun (key, value) =>
        { key, value := value.map fun span => span.slice source } })
  | .mk (.literal .string) span _ =>
    some (.literal { value := Text.unquote (span.slice source), kind := .string })
  | .mk (.literal kind) span _ => some (.literal { value := span.slice source, kind })
  | _ => none

mutual

/-- The constructs that an expression makes: one where its form has a kind of node, otherwise those
of its parts. -/
def constructs (source : List Char) : Expr → List Construct
  | .mk form span parts =>
    match attributes? source (.mk form span parts) with
    | some attributes => [.mk attributes span (listConstructs source parts)]
    | none => listConstructs source parts

/-- The constructs that expressions make. -/
def listConstructs (source : List Char) : List Expr → List Construct
  | [] => []
  | expr :: others => constructs source expr ++ listConstructs source others

end

end Expr

end SourceCanvas
