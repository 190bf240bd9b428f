import SourceCanvas.Error
import SourceCanvas.Text.Lines

/-!
# Records of a store

A store keeps flows with their nodes and edges. What can be asked of it is a `StoreCall`, and what
it answers is a `StoreReply`. Fields that a caller leaves open are missing; which of them have to be
there is up to the store.
-/

namespace SourceCanvas

/-! ## Records -/

/-- What is stored of a node, apart from its id. -/
structure NodeEntry where
  flow : Option String
  kind : Option String
  data : Json
  x : Option Float
  y : Option Float
  deriving DecidableEq

/-- What is stored of an edge, apart from its id. -/
structure EdgeEntry where
  flow : Option String
  source : Option String
  sourceHandle : Option String
  target : Option String
  targetHandle : Option String
  data : Json
  deriving DecidableEq

/-- A stored node. -/
structure StoredNode extends NodeEntry where
  id : String
  deriving DecidableEq

/-- A stored edge. -/
structure StoredEdge extends EdgeEntry where
  id : String
  deriving DecidableEq

/-! ## Calls -/

/-- What can be asked of a store. -/
inductive StoreCall where
  | createFlow (title owner : Option String)
  /-- writes a node under an id, or under a fresh one where the id is missing or empty -/
  | upsertNode (id : Option String) (entry : NodeEntry)
  /-- removes a node and all edges that touch it -/
  | removeNode (id : Option String)
  | listNodes (flow : Option String)
  /-- writes an edge under an id, or under a fresh one where the id is missing or empty -/
  | upsertEdge (id : Option String) (entry : EdgeEntry)
  | removeEdge (id : Option String)
  | listEdges (flow : Option String)
  /-- keeps the text of a flow -/
  | updatePreview (flow code : Option String)
  /-- the text of a flow -/
  | preview (flow : Option String)
  | close
  deriving DecidableEq

/-- What a store answers. -/
inductive StoreReply where
  | done
  | id (id : String)
  | nodes (nodes : List StoredNode)
  | edges (edges : List StoredEdge)
  | text (text : Option String)
  deriving DecidableEq

namespace StoreCall

/-- The name of what is asked. -/
def operation : StoreCall → String
  | createFlow _ _ => "create_flow"
  | upsertNode _ _ => "upsert_node"
  | removeNode _ => "remove_node"
  | listNodes _ => "list_nodes_by_flow"
  | upsertEdge _ _ => "upsert_edge"
  | removeEdge _ => "remove_edge"
  | listEdges _ => "list_edges_by_flow"
  | updatePreview _ _ => "update_flow_preview"
  | preview _ => "get_flow_preview"
  | close => "close"

/-- Whether a call needs a fresh id. -/
def draws : StoreCall → Bool
  | createFlow _ _ => true
  | upsertNode id _ => (Text.given? id).isNone
  | upsertEdge id _ => (Text.given? id).isNone
  | _ => false

end StoreCall

end SourceCanvas
