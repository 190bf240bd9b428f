import SourceCanvas.Graph.Basic
import SourceCanvas.Program.Block
import SourceCanvas.Text.Numeral

/-!
# Edits of a graph

Drawing an edge writes the text of its source into what the handle at its target stands for
(`Graph.connect`). Attributes can also be given by name (`Graph.update`). After both, the captured
bodies of the functions around the changed node no longer hold and are dropped.
-/

namespace SourceCanvas

open Text (nonempty? given?)

/-! ## Texts of nodes -/

/-- The text that a node with attributes stands for where its output is connected. -/
def CanvasNode.attributesText (node : CanvasNode) : Attributes → Option String
  | .variableDecl a => nonempty? a.name
  | .interfaceDecl a => nonempty? a.name
  | .literal a => some a.text
  | .functionDecl a => (nonempty? a.name).map (· ++ "()")
  | .api a => (nonempty? a.name).map (· ++ "()")
  | .importDecl a => ((given? a.defaultName).or (given? a.wholeName)).or a.named.head?
  | .exportDecl _ => none
  | _ => some (Naming.materializedName node.toNode)

/-- The kinds of node that stand for their bound name, whatever they hold. -/
def NodeKind.isBound : NodeKind → Bool
  | .binaryOp | .call | .console | .propertyAccess | .conditional | .object => true
  | _ => false

/-- The text that a node stands for where its output is connected, if there is one. Of a node that
holds a payload, only the bound name is known. -/
def CanvasNode.expressionText (node : CanvasNode) : Except Fault (Option String) :=
  match node.content with
  | .typed attributes => .ok (node.attributesText attributes)
  | .raw kind _ =>
    match NodeKind.ofName? kind with
    | none | some .exportDecl => .ok none
    | some kind =>
      if kind.isBound then
        .ok (some (Naming.materializedName node.toNode))
      else
        .error (.shape .notObject)

/-! ## Handles -/

/-- The index that a handle names after its beginning. Digits that are not decimal are refused; any
other text names no index. -/
def handleIndex (suffix : List Char) : Except Fault (Option Nat) :=
  if suffix.isEmpty || !suffix.all Text.isDigit then
    .ok none
  else
    match Text.readWhole? suffix with
    | some index => .ok (some index.toNat)
    | none => .error (.shape .indexDigits)

/-- The part of a handle after its beginning. -/
def handleSuffix? (beginning handle : String) : Option (List Char) :=
  if beginning.toList.isPrefixOf handle.toList then
    some (handle.toList.drop beginning.length)
  else
    none

/-- A list of arguments with one of them written; missing ones before it are undefined. -/
def writeArgument (args : List String) (index : Nat) (text : String) : List String :=
  (args ++ List.replicate (index + 1 - args.length) "undefined").set index text

/-- The call with one argument written. -/
def CallAttributes.writeHandle (call : CallAttributes) (handle text : String) :
    Except Fault (Option CallAttributes) := do
  match handleSuffix? "arg" handle with
  | none => return none
  | some suffix =>
    match ← handleIndex suffix with
    | none => return none
    | some index => return some { call with args := writeArgument call.args index text }

/-- The object with the value of one property written. -/
def ObjectAttributes.writeHandle (object : ObjectAttributes) (handle text : String) :
    Except Fault (Option ObjectAttributes) := do
  match handleSuffix? "prop-" handle with
  | none => return none
  | some suffix =>
    match ← handleIndex suffix with
    | none => return none
    | some index =>
      match object.properties[index]? with
      | none => return none
      | some property =>
        return some { object with
          properties := object.properties.set index { property with value := some text } }

/-- The attributes with a text written where a handle says, if the handle is one of theirs. -/
def Attributes.writeHandle (attributes : Attributes) (handle text : String) :
    Except Fault (Option Attributes) :=
  match attributes, handle with
  | .variableDecl a, "value" => .ok (some (.variableDecl { a with initializer := some text }))
  | .console a, "value" => .ok (some (.console { a with value := some text }))
  | .binaryOp a, "lhs" => .ok (some (.binaryOp { a with left := some text }))
  | .binaryOp a, "rhs" => .ok (some (.binaryOp { a with right := some text }))
  | .propertyAccess a, "obj" => .ok (some (.propertyAccess { a with object := some text }))
  | .conditional a, "test" => .ok (some (.conditional { a with test := some text }))
  | .conditional a, "whenTrue" => .ok (some (.conditional { a with whenTrue := some text }))
  | .conditional a, "whenFalse" => .ok (some (.conditional { a with whenFalse := some text }))
  | .call a, handle => (·.map .call) <$> a.writeHandle handle text
  | .object a, handle => (·.map .object) <$> a.writeHandle handle text
  | _, _ => .ok none

/-- The name and the names of the parameters of what can be called. -/
def Attributes.signature? : Attributes → Option (String × List String)
  | .functionDecl a => some (a.name, a.parameters.map Parameter.name)
  | .api a => some (a.name, [])
  | _ => none

/-- What an edge does to its ends. -/
inductive Effect where
  /-- the source comes to lie below the target -/
  | adopt
  /-- the attributes of the target change -/
  | write (attributes : Attributes)

/-- What an edge into a handle does, given both ends with their attributes. -/
def effect (source target : CanvasNode) (from_ into : Attributes) (handle : String) :
    Except Fault (Option Effect) :=
  match into, handle with
  | .functionDecl _, handle =>
    if handle = "return" && from_.kind == .binaryOp && source.parent != some target.id then
      .ok (some .adopt)
    else
      .ok none
  | .call call, "func" =>
    .ok (from_.signature?.map fun (name, expected) =>
      .write (.call { call with function := some name, expected, args := [] }))
  | .variableDecl declared, "type" =>
    match from_ with
    | .interfaceDecl interface =>
      .ok ((nonempty? interface.name).map fun name =>
        .write (.variableDecl { declared with declaredType := some name }))
    | _ => .ok none
  | into, handle =>
    match source.attributesText from_ with
    | none => .ok none
    | some text => (·.map .write) <$> into.writeHandle handle text

namespace Graph

/-! ## Bodies -/

/-- The ids of a node and of those around it. Fuel bounds their count. -/
def enclosing (graph : Graph) : Nat → Option CanvasNode → List String
  | 0, _ | _, none => []
  | fuel + 1, some node => node.id :: enclosing graph fuel (graph.parentOf? node)

/-- The graph without the captured bodies of the functions that a node is or lies in. -/
def dropBodies (graph : Graph) (id : Option String) : Graph :=
  let around := graph.enclosing graph.nodes.length ((given? id).bind graph.node?)
  { graph with
    nodes := graph.nodes.map fun node =>
      if around.contains node.id then node.withoutBody else node }

/-! ## Edges -/

/-- Does to the ends of an edge what the edge says. -/
def applyEffect (graph : Graph) (source target : String) : Effect → Graph
  | .adopt => graph.adjust source fun node => { node with parent := some target }
  | .write attributes =>
    graph.adjust target fun node => { node with content := .typed attributes }

/-- Draws an edge, and tells whether attributes or parents have changed. The edge is drawn also
where its handle cannot be read. -/
def connect (graph : Graph) (edge : Edge) : Graph × Except Fault Bool :=
  match graph.addEdge? edge with
  | none => (graph, .ok false)
  | some drawn =>
    match drawn.node? edge.source, drawn.node? edge.target with
    | some source, some target =>
      match source.content, target.content with
      | .typed from_, .typed into =>
        match effect source target from_ into (edge.targetHandle.getD "") with
        | .error fault => (drawn, .error fault)
        | .ok none => (drawn, .ok false)
        | .ok (some effect) =>
          ((drawn.applyEffect edge.source edge.target effect).dropBodies (some edge.target),
            .ok true)
      | _, _ => (drawn, .ok false)
    | _, _ => (drawn, .ok false)

/-- Takes an edge away; what it wrote stays. -/
def disconnect (graph : Graph) (id : String) : Graph × Bool :=
  (graph.removeEdge id, (graph.edge? id).isSome)

/-! ## Attributes -/

/-- The content of a node with some fields changed. The fields of a payload are not checked. -/
def changedContent (node : CanvasNode) (changes : Json.Fields) : Except Fault Content :=
  match node.content with
  | .raw kind payload => Content.ofFields kind (Catalog.union payload changes)
  | .typed attributes =>
    let current := attributes.toFields
    let unknown := changes.names.filter fun name => !current.has name
    if unknown.isEmpty then
      .typed <$> Attributes.ofFields attributes.kind (Catalog.union current changes)
    else
      .error (.invalid (.unknownAttributes attributes.kind.name node.id
        (unknown.mergeSort fun a b => a ≤ b)))

/-- The names that stand for the changed node itself. -/
def nodeNames : List String := ["self", "node_id"]

/-- The names that stand for what is changed, and never for a field of a node. -/
def reservedNames : List String := "graph" :: nodeNames

/-- Changes fields of a node, and tells whether there is such a node. -/
def update (graph : Graph) (id : String) (changes : Json.Fields) : Graph × Except Fault Bool :=
  match reservedNames.find? changes.has, graph.node? id with
  | some name, _ => (graph, .error (.shape (.wrongType name)))
  | none, none => (graph, .ok false)
  | none, some node =>
    match changedContent node changes with
    | .error fault => (graph, .error fault)
    | .ok content =>
      ((graph.adjust id fun node => { node with content }).dropBodies node.parent, .ok true)

end Graph

end SourceCanvas
