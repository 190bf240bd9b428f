import SourceCanvas.Session.Basic

/-!
# Saving a graph in a store

After a change, the differences since the last time are written into the store: records of edges and
nodes that are gone are removed, and nodes and edges that look different are written. A snapshot of
each says how it looked when it was last written, so that a call that fails is made up for later.
-/

namespace SourceCanvas

open Session (ask attempt)

/-! ## Records -/

/-- What a store keeps about a node. -/
def CanvasNode.payload (node : CanvasNode) : Json :=
  .object [("localId", .string node.id), ("kind", .string node.kindName),
    ("parentId", .ofText? node.parent), ("attributes", .object node.content.toFields)]

/-- How a node looks to a store. -/
def CanvasNode.snapshot (node : CanvasNode) : NodeSnapshot :=
  { payload := node.payload.sorted, position := node.position }

/-- Whether two numbers are equal, or both are none. -/
def sameNumber (x y : Float) : Bool := x == y || (x.isNaN && y.isNaN)

/-- Whether two snapshots are the same; positions are compared as numbers. -/
def NodeSnapshot.same (a b : NodeSnapshot) : Bool :=
  a.payload == b.payload && sameNumber a.position.x b.position.x &&
    sameNumber a.position.y b.position.y

/-- The record of a node in a flow. -/
def CanvasNode.entry (node : CanvasNode) (flow : Option String) : NodeEntry :=
  { flow, kind := some node.kindName, data := node.payload,
    x := some node.position.x, y := some node.position.y }

/-- How an edge looks to a store. -/
def Edge.snapshot (edge : Edge) : Json :=
  Json.sorted (.array [.string edge.source, .ofText? edge.sourceHandle, .string edge.target,
    .ofText? edge.targetHandle, .object edge.data])

/-- The record of an edge in a flow, given the records of its ends. -/
def Edge.entry (edge : Edge) (flow : Option String) (source target : String) : EdgeEntry :=
  { flow, source := some source, sourceHandle := edge.sourceHandle, target := some target,
    targetHandle := edge.targetHandle,
    data := .object (Catalog.insert "localId" (.string edge.id) edge.data) }

/-- The id that a reply gives. -/
def StoreReply.id? : StoreReply → Option String
  | .id given => some given
  | _ => none

/-! ## Differences -/

namespace Session

/-- Whether the graph has an edge with an id, with both ends. Of several the last one counts. -/
def hasLiveEdge (graph : Graph) (id : String) : Bool :=
  (graph.edges.reverse.find? (·.id == id)).any fun edge =>
    graph.hasNode edge.source && graph.hasNode edge.target

/-- Removes the record of an edge that is gone. -/
def dropEdge (id : String) : Act Unit := do
  let session ← get
  if hasLiveEdge session.graph id then
    return
  else
    let record := session.edgeRecords.get? id
    set { session with edgeRecords := session.edgeRecords.erase id }
    let _ ← ask (.removeEdge record)
    modify fun session => { session with edgeSnapshots := session.edgeSnapshots.erase id }

/-- Removes the record of a node that is gone. -/
def dropNode (id : String) : Act Unit := do
  let session ← get
  if session.graph.hasNode id then
    return
  else
    let record := session.nodeRecords.get? id
    set { session with nodeRecords := session.nodeRecords.erase id }
    let _ ← ask (.removeNode record)
    modify fun session => { session with nodeSnapshots := session.nodeSnapshots.erase id }

/-- Writes a node that looks different. -/
def writeNode (node : CanvasNode) : Act Unit := do
  let session ← get
  if (session.nodeSnapshots.get? node.id).any (·.same node.snapshot) then
    return
  else
    let record := session.nodeRecords.get? node.id
    let reply ← ask (.upsertNode record (node.entry session.setup.flow))
    modify fun session =>
      { session with
        nodeRecords := Catalog.insert node.id (reply.id?.getD "") session.nodeRecords
        nodeSnapshots := Catalog.insert node.id node.snapshot session.nodeSnapshots }

/-- Writes an edge that looks different, if both its ends have records. -/
def writeEdge (edge : Edge) : Act Unit := do
  let session ← get
  if session.edgeSnapshots.get? edge.id = some edge.snapshot then
    return
  else
    match session.nodeRecords.get? edge.source, session.nodeRecords.get? edge.target with
    | some source, some target =>
      let record := session.edgeRecords.get? edge.id
      let reply ← ask (.upsertEdge record (edge.entry session.setup.flow source target))
      modify fun session =>
        { session with
          edgeRecords := Catalog.insert edge.id (reply.id?.getD "") session.edgeRecords
          edgeSnapshots := Catalog.insert edge.id edge.snapshot session.edgeSnapshots }
    | _, _ => return

/-- Writes the differences since the last time. The first call that fails ends it. -/
def writeDifferences : Act Unit := do
  (Catalog.names (← get).edgeRecords).forM dropEdge
  (Catalog.names (← get).nodeRecords).forM dropNode
  (← get).graph.nodes.forM writeNode
  (← get).graph.edges.forM writeEdge

/-- Whether a session has a store and a flow in it. -/
def isStored (session : Session) : Bool := session.storage.isSome && session.setup.flow.isSome

/-- Writes what has changed of the graph into the store. -/
def saveGraph (tell : Listener) : StateM Session Unit := do
  if (← get).isStored then
    attempt tell .persistence writeDifferences

/-- Writes the text into the store. -/
def saveText (tell : Listener) (text : String) : StateM Session Unit := do
  let session ← get
  if session.isStored then
    attempt tell .persistence do
      let _ ← ask (.updatePreview session.setup.flow (some text))

end Session

end SourceCanvas
