import SourceCanvas.Node.Kind

/-!
# Attributes of nodes

What a node of each kind says about the construct it stands for. Expressions inside a construct are
kept as the text they have in the source.
-/

namespace SourceCanvas

/-! ## Parts -/

/-- A parameter of a function. -/
structure Parameter where
  name : String
  type : Option String := none
  optional : Bool := false
  defaultValue : Option String := none
  deriving DecidableEq, Repr, Inhabited

/-- A property that an interface declares. -/
structure Member where
  name : String
  type : String := "any"
  optional : Bool := false
  deriving DecidableEq, Repr, Inhabited

/-- A key of an object. Without a value it is a shorthand. -/
structure Property where
  key : String
  value : Option String := none
  deriving DecidableEq, Repr, Inhabited

/-- The kinds of literal. -/
inductive LiteralKind where
  | string
  | number
  | boolean
  deriving DecidableEq, Repr, Inhabited

/-- The name of a kind of literal. -/
def LiteralKind.name : LiteralKind → String
  | .string => "string"
  | .number => "number"
  | .boolean => "boolean"

/-- The kind of literal with a name. -/
def LiteralKind.ofName? : String → Option LiteralKind
  | "string" => some .string
  | "number" => some .number
  | "boolean" => some .boolean
  | _ => none

/-! ## Attributes by kind -/

/-- An interface, with the types it extends. -/
structure InterfaceAttributes where
  name : String := ""
  members : List Member := []
  bases : List String := []
  deriving DecidableEq, Repr, Inhabited

/-- A function. Its body is the captured text, moved to the left margin. -/
structure FunctionAttributes where
  name : String := ""
  parameters : List Parameter := []
  returnType : Option String := none
  isAsync : Bool := false
  body : Option String := none
  deriving DecidableEq, Repr, Inhabited

/-- A variable, with the word that declares it. -/
structure VariableAttributes where
  name : String := ""
  declaredType : Option String := none
  initializer : Option String := none
  keyword : String := "const"
  deriving DecidableEq, Repr, Inhabited

/-- A literal. The value of a string is its contents, with escapes as written. -/
structure LiteralAttributes where
  value : String := ""
  kind : LiteralKind := .string
  name : Option String := none
  deriving DecidableEq, Repr, Inhabited

/-- An operation on two operands. -/
structure BinaryOpAttributes where
  operator : String := "+"
  left : Option String := none
  right : Option String := none
  name : Option String := none
  deriving DecidableEq, Repr, Inhabited

/-- A call, with the names of the parameters that the called function has. -/
structure CallAttributes where
  function : Option String := none
  args : List String := []
  expected : List String := []
  name : Option String := none
  deriving DecidableEq, Repr, Inhabited

/-- An access to a property. -/
structure PropertyAccessAttributes where
  object : Option String := none
  property : String := ""
  name : Option String := none
  deriving DecidableEq, Repr, Inhabited

/-- A choice between two expressions. -/
structure ConditionalAttributes where
  test : Option String := none
  whenTrue : Option String := none
  whenFalse : Option String := none
  name : Option String := none
  deriving DecidableEq, Repr, Inhabited

/-- An object literal. -/
structure ObjectAttributes where
  properties : List Property := []
  name : Option String := none
  deriving DecidableEq, Repr, Inhabited

/-- A value that is shown on the console, with the method that shows it. -/
structure ConsoleAttributes where
  value : Option String := none
  label : String := "log"
  name : Option String := none
  deriving DecidableEq, Repr, Inhabited

/-- The methods that show a value on the console. -/
def consoleMethods : List String := ["log", "info", "warn", "error", "debug"]

/-- A request to a service. -/
structure ApiAttributes where
  name : String := "fetchData"
  method : String := "GET"
  endpoint : String := ""
  headers : List (String × String) := []
  body : Option String := none
  deriving DecidableEq, Repr, Inhabited

/-- What is taken from another source. -/
structure ImportAttributes where
  source : String := ""
  named : List String := []
  defaultName : Option String := none
  wholeName : Option String := none
  typeOnly : Bool := false
  deriving DecidableEq, Repr, Inhabited

/-- What is handed on to others. -/
structure ExportAttributes where
  source : Option String := none
  named : List String := []
  defaultValue : Option String := none
  wholeName : Option String := none
  isStar : Bool := false
  deriving DecidableEq, Repr, Inhabited

/-- The attributes of a node of a known kind. -/
inductive Attributes where
  | interfaceDecl (attributes : InterfaceAttributes)
  | functionDecl (attributes : FunctionAttributes)
  | variableDecl (attributes : VariableAttributes)
  | literal (attributes : LiteralAttributes)
  | binaryOp (attributes : BinaryOpAttributes)
  | call (attributes : CallAttributes)
  | propertyAccess (attributes : PropertyAccessAttributes)
  | conditional (attributes : ConditionalAttributes)
  | object (attributes : ObjectAttributes)
  | api (attributes : ApiAttributes)
  | console (attributes : ConsoleAttributes)
  | importDecl (attributes : ImportAttributes)
  | exportDecl (attributes : ExportAttributes)
  deriving DecidableEq, Repr, Inhabited

namespace Attributes

/-- The kind that attributes belong to. -/
def kind : Attributes → NodeKind
  | .interfaceDecl _ => .interfaceDecl
  | .functionDecl _ => .functionDecl
  | .variableDecl _ => .variableDecl
  | .literal _ => .literal
  | .binaryOp _ => .binaryOp
  | .call _ => .call
  | .propertyAccess _ => .propertyAccess
  | .conditional _ => .conditional
  | .object _ => .object
  | .api _ => .api
  | .console _ => .console
  | .importDecl _ => .importDecl
  | .exportDecl _ => .exportDecl

/-- The name that attributes give to what they declare. Imports and exports declare no name of
their own. -/
def name? : Attributes → Option String
  | .interfaceDecl a => some a.name
  | .functionDecl a => some a.name
  | .variableDecl a => some a.name
  | .literal a => a.name
  | .binaryOp a => a.name
  | .call a => a.name
  | .propertyAccess a => a.name
  | .conditional a => a.name
  | .object a => a.name
  | .api a => some a.name
  | .console a => a.name
  | .importDecl _ | .exportDecl _ => none

/-- The same attributes under a name. Imports and exports stay as they are. -/
def withName (attributes : Attributes) (name : String) : Attributes :=
  match attributes with
  | .interfaceDecl a => .interfaceDecl { a with name }
  | .functionDecl a => .functionDecl { a with name }
  | .variableDecl a => .variableDecl { a with name }
  | .literal a => .literal { a with name := some name }
  | .binaryOp a => .binaryOp { a with name := some name }
  | .call a => .call { a with name := some name }
  | .propertyAccess a => .propertyAccess { a with name := some name }
  | .conditional a => .conditional { a with name := some name }
  | .object a => .object { a with name := some name }
  | .api a => .api { a with name }
  | .console a => .console { a with name := some name }
  | .importDecl a => .importDecl a
  | .exportDecl a => .exportDecl a

@[simp] theorem kind_withName (attributes : Attributes) (name : String) :
    (attributes.withName name).kind = attributes.kind := by
  cases attributes <;> rfl

/-- The attributes that a node of a kind has when nothing is said about it. -/
def blank : NodeKind → Attributes
  | .interfaceDecl => .interfaceDecl {}
  | .functionDecl => .functionDecl {}
  | .variableDecl => .variableDecl {}
  | .literal => .literal {}
  | .binaryOp => .binaryOp {}
  | .call => .call {}
  | .propertyAccess => .propertyAccess {}
  | .conditional => .conditional {}
  | .object => .object {}
  | .api => .api {}
  | .console => .console {}
  | .importDecl => .importDecl {}
  | .exportDecl => .exportDecl {}

end Attributes

end SourceCanvas
