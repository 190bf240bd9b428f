/-!
# Kinds of node

The closed set of constructs that have a node of their own, with the names under which they are
stored. Any other name is that of an unknown kind.
-/

namespace SourceCanvas

/-- The kinds of node. -/
inductive NodeKind where
  | interfaceDecl
  | functionDecl
  | variableDecl
  | literal
  | binaryOp
  | call
  | propertyAccess
  | conditional
  | object
  | api
  | console
  | importDecl
  | exportDecl
  deriving DecidableEq, Repr, Inhabited

namespace NodeKind

/-- All kinds. -/
def all : List NodeKind :=
  [.interfaceDecl, .functionDecl, .variableDecl, .literal, .binaryOp, .call, .propertyAccess,
    .conditional, .object, .api, .console, .importDecl, .exportDecl]

/-- The name of a kind. -/
def name : NodeKind → String
  | .interfaceDecl => "interface"
  | .functionDecl => "function"
  | .variableDecl => "variable"
  | .literal => "literal"
  | .binaryOp => "binaryOp"
  | .call => "call"
  | .propertyAccess => "propertyAccess"
  | .conditional => "conditional"
  | .object => "object"
  | .api => "api"
  | .console => "console"
  | .importDecl => "import"
  | .exportDecl => "export"

/-- The kind with a name. -/
def ofName? (name : String) : Option NodeKind := all.find? fun kind => kind.name == name

theorem name_of_ofName? {name : String} {kind : NodeKind} (h : ofName? name = some kind) :
    kind.name = name := by
  simpa using List.find?_some h

end NodeKind

end SourceCanvas
