import SourceCanvas.Graph.Basic

/-!
# Handles

The places of a node at which edges start and end. Every node has one output; its inputs depend on
its kind, and for calls, objects and functions on what it holds.
-/

namespace SourceCanvas

/-- Which end of an edge a handle takes. -/
inductive HandleDirection where
  | source
  | target
  deriving DecidableEq, Repr

/-- The name of a direction. -/
def HandleDirection.name : HandleDirection → String
  | .source => "source"
  | .target => "target"

/-- A named place of a node at which edges meet it. -/
structure Handle where
  name : String
  direction : HandleDirection
  deriving DecidableEq, Repr

/-- The name of the one output. -/
def outputHandle : String := "output"

namespace CanvasNode

/-- Names made of a beginning and the numbers below a count. -/
def numbered (beginning : String) (count : Nat) : List String :=
  (List.range count).map fun index => beginning ++ toString index

/-- The inputs that all nodes of a kind have. -/
def fixedInputs : NodeKind → List String
  | .binaryOp => ["lhs", "rhs"]
  | .conditional => ["test", "whenTrue", "whenFalse"]
  | .console => ["value"]
  | .propertyAccess => ["obj"]
  | .variableDecl => ["value", "type"]
  | .call => ["func"]
  | _ => []

/-- The inputs that follow from what a node holds. A call has one more than it has or expects. -/
def contentInputs (content : Content) : List String :=
  match content with
  | .typed (.call call) => numbered "arg" (max call.args.length call.expected.length + 1)
  | .typed (.object object) => numbered "prop-" object.properties.length
  | .typed (.functionDecl function) =>
    numbered "param-" function.parameters.length ++ ["return"]
  | content => if content.kind? = some .call then ["arg0"] else []

/-- The names of the inputs of a node. -/
def inputNames (node : CanvasNode) : List String :=
  (match node.kind? with
    | some kind => fixedInputs kind
    | none => []) ++ contentInputs node.content

/-- The inputs of a node. -/
def inputs (node : CanvasNode) : List Handle := node.inputNames.map (⟨·, .target⟩)

/-- The outputs of a node. -/
def outputs (_ : CanvasNode) : List Handle := [⟨outputHandle, .source⟩]

/-- The input with a name. -/
def input? (node : CanvasNode) (name : String) : Option Handle :=
  node.inputs.find? (·.name == name)

end CanvasNode

end SourceCanvas
