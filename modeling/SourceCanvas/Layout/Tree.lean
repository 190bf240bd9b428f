import SourceCanvas.Graph.Basic

/-!
# Trees of nodes

The nodes of a graph as trees: a root lies below no node of the graph, and below a node come its
children, in the order of the graph. Nodes on a cycle of parents belong to no tree.
-/

namespace SourceCanvas

/-- A node with the trees below it. -/
inductive Tree where
  | node (id : String) (children : List Tree)

namespace Tree

/-- The id of the node on top. -/
def id : Tree → String
  | .node id _ => id

/-- The trees right below the node on top. -/
def children : Tree → List Tree
  | .node _ children => children

mutual

/-- The ids of all nodes of a tree, each before those below it. -/
def ids : Tree → List String
  | .node id children => id :: idsBelow children

/-- The ids of all nodes of a list of trees. -/
def idsBelow : List Tree → List String
  | [] => []
  | tree :: rest => tree.ids ++ idsBelow rest

end

end Tree

namespace Graph

/-- Whether a node lies below no node of the graph. -/
def isRoot (graph : Graph) (node : CanvasNode) : Bool := !node.parent.any graph.hasNode

/-- The nodes that lie below no node of the graph. -/
def roots (graph : Graph) : List CanvasNode := graph.nodes.filter graph.isRoot

/-- The tree below an id. Fuel bounds the depth. -/
def treeBelow (graph : Graph) : Nat → String → Tree
  | 0, id => .node id []
  | fuel + 1, id =>
    .node id ((graph.children id).map fun child => treeBelow graph fuel child.id)

/-- The trees of a graph. -/
def forest (graph : Graph) : List Tree :=
  graph.roots.map fun root => graph.treeBelow graph.nodes.length root.id

/-- The root of the tree that a node belongs to, if it belongs to one. Fuel bounds the depth. -/
def rootFrom? (graph : Graph) : Nat → CanvasNode → Option String
  | 0, _ => none
  | fuel + 1, node =>
    match node.parent.bind graph.node? with
    | none => some node.id
    | some parent => rootFrom? graph fuel parent

/-- The root of the tree that an id belongs to, if it belongs to one. -/
def rootOf? (graph : Graph) (id : String) : Option String :=
  (graph.node? id).bind (graph.rootFrom? graph.nodes.length)

end Graph

end SourceCanvas
