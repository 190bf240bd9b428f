import SourceCanvas.Node.Starter

/-!
# Graphs

A graph is what the canvas shows: nodes, each with a position, and edges between their handles.
Nodes are found by their ids, and keep the order in which their ids came first. An edge joins two
ids; containment edges show which node lies below which, all others are drawn by hand.
-/

namespace SourceCanvas

/-! ## Nodes and edges -/

/-- A place on the canvas; that of a node below another is relative to the other. -/
structure Point where
  x : Float
  y : Float
  deriving DecidableEq

/-- The place where nodes lie that have none of their own. -/
def Point.origin : Point := ⟨0, 0⟩

/-- A node on the canvas. -/
structure CanvasNode extends Node where
  position : Point := Point.origin
  deriving DecidableEq

/-- A connection between two nodes. -/
structure Edge where
  id : String
  source : String
  sourceHandle : Option String := some "output"
  target : String
  targetHandle : Option String := none
  data : Json.Fields := []
  deriving DecidableEq

/-- Whether an edge shows that its source lies below its target. -/
def Edge.isContainment (edge : Edge) : Bool :=
  edge.data.get? "relation" == some (.string "contains")

/-- Nodes and edges on the canvas. -/
structure Graph where
  nodes : List CanvasNode := []
  edges : List Edge := []
  deriving DecidableEq

namespace CanvasNode

/-- The node of a construct, placed on the canvas. -/
def place (position : Point) (node : Node) : CanvasNode := { node with position }

/-- A fresh node of the kind with the given name. -/
def create (kind : String) (position : Point) (parent : Option String) (id : String) : CanvasNode :=
  { id, content := .starter kind, parent, position }

/-- A node without the text captured as the body of its function. An empty body stays. -/
def withoutBody (node : CanvasNode) : CanvasNode :=
  match node.content with
  | .typed (.functionDecl function) =>
    { node with
      content := .typed (.functionDecl { function with body := function.body.filter (· = "") }) }
  | _ => node

end CanvasNode

namespace Graph

/-! ## Looking up -/

/-- The ids of the nodes, in order. -/
def ids (graph : Graph) : List String := graph.nodes.map (·.id)

/-- The node with an id. -/
def node? (graph : Graph) (id : String) : Option CanvasNode := graph.nodes.find? (·.id == id)

/-- Whether there is a node with an id. -/
def hasNode (graph : Graph) (id : String) : Bool := graph.nodes.any (·.id == id)

/-- The first edge with an id. -/
def edge? (graph : Graph) (id : String) : Option Edge := graph.edges.find? (·.id == id)

/-- The nodes below a node, in order. -/
def children (graph : Graph) (id : String) : List CanvasNode :=
  graph.nodes.filter fun node => node.parent == some id

/-- The node that a node lies below, if the graph has it. An empty id names no parent. -/
def parentOf? (graph : Graph) (node : CanvasNode) : Option CanvasNode :=
  (Text.given? node.parent).bind graph.node?

/-! ## Nodes -/

/-- Writes a node into a list: in the place of the one with its id, or last. -/
def insertInto (node : CanvasNode) : List CanvasNode → List CanvasNode
  | [] => [node]
  | other :: rest =>
    if other.id = node.id then node :: rest else other :: insertInto node rest

/-- Writes a node: in the place of the one with its id, or last. -/
def insertNode (graph : Graph) (node : CanvasNode) : Graph :=
  { graph with nodes := insertInto node graph.nodes }

/-- Writes the nodes of a list one after the other. -/
def collect (nodes : List CanvasNode) : List CanvasNode :=
  nodes.foldl (fun found node => insertInto node found) []

/-- The graph without a node and all edges that touch it, or nothing if there is no such node. -/
def removeNode? (graph : Graph) (id : String) : Option Graph :=
  if graph.hasNode id then
    some {
      nodes := graph.nodes.filter (·.id != id)
      edges := graph.edges.filter fun edge => edge.source != id && edge.target != id }
  else
    none

/-- The graph with a node changed. -/
def adjust (graph : Graph) (id : String) (change : CanvasNode → CanvasNode) : Graph :=
  { graph with nodes := graph.nodes.map fun node => if node.id == id then change node else node }

/-! ## Edges -/

/-- The graph with an edge in the place of all with its id, or nothing if an end is missing. -/
def addEdge? (graph : Graph) (edge : Edge) : Option Graph :=
  if graph.hasNode edge.source && graph.hasNode edge.target then
    some { graph with edges := graph.edges.filter (·.id != edge.id) ++ [edge] }
  else
    none

/-- The graph without the first edge with an id. -/
def removeEdge (graph : Graph) (id : String) : Graph :=
  { graph with edges := graph.edges.eraseP (·.id == id) }

/-! ## The graph as a whole -/

/-- Which node lies below which, for all nodes. -/
def links (graph : Graph) : List (String × Option String) :=
  graph.nodes.map fun node => (node.id, node.parent)

/-- Whether two graphs have the same nodes below each other, in whatever order. -/
def sameTopology (graph other : Graph) : Bool :=
  graph.links.all other.links.contains && other.links.all graph.links.contains

/-- What is wrong with a graph: parents and ends of edges that are missing. -/
def problems (graph : Graph) : List Problem :=
  (graph.nodes.filterMap fun node =>
    match node.parent with
    | some parent => if graph.hasNode parent then none else some (.danglingParent node.id parent)
    | none => none) ++
  graph.edges.flatMap fun edge =>
    (if graph.hasNode edge.source then [] else [.missingSource edge.id edge.source]) ++
    (if graph.hasNode edge.target then [] else [.missingTarget edge.id edge.target])

/-! ## Small lemmas -/

theorem ids_insertInto (node : CanvasNode) (nodes : List CanvasNode) :
    (insertInto node nodes).map (·.id) =
      if node.id ∈ nodes.map (·.id) then nodes.map (·.id) else nodes.map (·.id) ++ [node.id] := by
  induction nodes with
  | nil => simp [insertInto]
  | cons other rest ih =>
    rw [insertInto]
    by_cases same : other.id = node.id
    · simp [same]
    · by_cases known : node.id ∈ rest.map (·.id)
      · simp [same, ih, known]
      · simp [same, ih, known, Ne.symm same]

theorem nodup_ids_insertInto {node : CanvasNode} {nodes : List CanvasNode}
    (apart : (nodes.map (·.id)).Nodup) : ((insertInto node nodes).map (·.id)).Nodup := by
  rw [ids_insertInto]
  split
  · exact apart
  · next fresh =>
    refine List.nodup_append.mpr ⟨apart, by simp, fun a ha b hb same => fresh ?_⟩
    rw [← List.mem_singleton.mp hb, ← same]
    exact ha

/-- Collecting nodes leaves their ids apart. -/
theorem nodup_ids_collect (nodes : List CanvasNode) : ((collect nodes).map (·.id)).Nodup := by
  have step (found : List CanvasNode) (apart : (found.map (·.id)).Nodup) :
      ((nodes.foldl (fun found node => insertInto node found) found).map (·.id)).Nodup := by
    induction nodes generalizing found with
    | nil => exact apart
    | cons node rest ih => exact ih _ (nodup_ids_insertInto apart)
  exact step [] List.nodup_nil

end Graph

end SourceCanvas
