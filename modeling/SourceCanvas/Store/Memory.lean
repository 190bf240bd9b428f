import SourceCanvas.Store.Record

/-!
# Stores in memory

Nodes and edges are catalogs by id. A written record takes the place of the one with its id, with
all its fields.
-/

namespace SourceCanvas

/-- Nodes, edges and texts of flows in memory. -/
structure Memory where
  nodes : Catalog NodeEntry := []
  edges : Catalog EdgeEntry := []
  /-- the texts of flows, the latest first -/
  previews : List (Option String × Option String) := []
  deriving DecidableEq

namespace Memory

/-- The memory without a node and all edges that touch it. -/
def removeNode (memory : Memory) (id : Option String) : Memory :=
  { memory with
    nodes := memory.nodes.filter fun entry => some entry.1 ≠ id
    edges := memory.edges.filter fun entry => entry.2.source ≠ id ∧ entry.2.target ≠ id }

/-- The memory without an edge. -/
def removeEdge (memory : Memory) (id : Option String) : Memory :=
  { memory with edges := memory.edges.filter fun entry => some entry.1 ≠ id }

/-- The nodes of a flow, in order. -/
def nodesOf (memory : Memory) (flow : Option String) : List StoredNode :=
  (memory.nodes.filter fun entry => entry.2.flow = flow).map fun (id, entry) => { entry with id }

/-- The edges of a flow, in order. -/
def edgesOf (memory : Memory) (flow : Option String) : List StoredEdge :=
  (memory.edges.filter fun entry => entry.2.flow = flow).map fun (id, entry) => { entry with id }

/-- The data of a record, which has to be an object. -/
def checkData : Json → Except Fault Unit
  | .object _ => .ok ()
  | _ => .error (.shape (.wrongType "data"))

/-- Answers a call, given the id to be used where it needs a fresh one. -/
def perform (fresh : String) (memory : Memory) : StoreCall → Except Fault StoreReply × Memory
  | .createFlow _ _ => (.ok (.id fresh), memory)
  | .upsertNode id entry =>
    let id := (Text.given? id).getD fresh
    match checkData entry.data with
    | .ok () => (.ok (.id id), { memory with nodes := Catalog.insert id entry memory.nodes })
    | .error fault => (.error fault, memory)
  | .removeNode id => (.ok .done, memory.removeNode id)
  | .listNodes flow => (.ok (.nodes (memory.nodesOf flow)), memory)
  | .upsertEdge id entry =>
    let id := (Text.given? id).getD fresh
    match checkData entry.data with
    | .ok () => (.ok (.id id), { memory with edges := Catalog.insert id entry memory.edges })
    | .error fault => (.error fault, memory)
  | .removeEdge id => (.ok .done, memory.removeEdge id)
  | .listEdges flow => (.ok (.edges (memory.edgesOf flow)), memory)
  | .updatePreview flow code =>
    (.ok .done, { memory with previews := (flow, code) :: memory.previews })
  | .preview flow => (.ok (.text ((memory.previews.lookup flow).join)), memory)
  | .close => (.ok .done, memory)

end Memory

end SourceCanvas
