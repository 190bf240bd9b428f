import SourceCanvas.Graph.Basic

/-!
# Graphs of nodes

A list of nodes becomes a graph by giving every node a position and drawing an edge for each parent
(`Graph.ofNodes`). Back from a graph to a list (`Graph.toNodes`), parents that the graph does not
have are dropped. `Graph.merge` takes over a fresh graph and keeps of the one on the canvas the
positions of the nodes and the edges drawn by hand, as far as the nodes are still there.
-/

namespace SourceCanvas.Graph

/-- The handle of a parent that a node below it comes in at. -/
def containmentHandle (child parent : CanvasNode) : Option String :=
  if parent.kind? = some .functionDecl ∧ child.kind? = some .binaryOp then some "return" else none

/-- The edge that shows that a node lies below another. -/
def containmentEdge (child parent : CanvasNode) : Edge :=
  { id := child.id ++ "->" ++ parent.id
    source := child.id
    target := parent.id
    targetHandle := containmentHandle child parent
    data := [("relation", .string "contains")] }

/-- One edge for each node whose parent the graph has. -/
def containmentEdges (graph : Graph) : List Edge :=
  graph.nodes.filterMap fun node => (graph.parentOf? node).map (containmentEdge node)

/-- The edges drawn by hand. -/
def userEdges (graph : Graph) : List Edge := graph.edges.filter fun edge => !edge.isContainment

/-- The graph of a list of nodes, with positions by id. -/
def ofNodes (nodes : List Node) (positions : Catalog Point) : Graph :=
  let placed := collect (nodes.map fun node =>
    CanvasNode.place ((positions.get? node.id).getD .origin) node)
  { nodes := placed, edges := containmentEdges { nodes := placed } }

/-- The nodes of a graph, without parents that the graph does not have. -/
def toNodes (graph : Graph) : List Node :=
  graph.nodes.map fun node =>
    { node.toNode with parent := node.parent.filter graph.hasNode }

/-- The nodes of a fresh graph, where they lie on the canvas, or else where they are to lie. -/
def mergeNodes (existing fresh : Graph) (positions : Catalog Point) : List CanvasNode :=
  fresh.nodes.map fun node =>
    { node with
      position := match existing.node? node.id with
        | some previous => previous.position
        | none => (positions.get? node.id).getD node.position }

/-- The fresh graph in place of the existing one. -/
def merge (existing fresh : Graph) (positions : Catalog Point) : Graph :=
  let merged : Graph := { nodes := mergeNodes existing fresh positions }
  let kept := existing.userEdges.filter fun edge =>
    merged.hasNode edge.source && merged.hasNode edge.target
  { merged with edges := kept ++ containmentEdges merged }

end SourceCanvas.Graph
