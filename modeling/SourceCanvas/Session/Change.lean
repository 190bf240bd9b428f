import SourceCanvas.Graph.Connect
import SourceCanvas.Graph.Rekey
import SourceCanvas.Layout.Layered
import SourceCanvas.Outline.Parser
import SourceCanvas.Session.Saving

/-!
# Changes of a session

A change of the text is parsed and merged into the graph (`Session.changeText`). A change of the
graph writes the text anew, if the text shows it, and moves the nodes to the ids that the next
reading of that text gives them (`Session.changeGraph`). Both are saved in the store. A graph
that was stored can be loaded again (`Session.loadFlow`).
-/

namespace SourceCanvas.Session

/-! ## From the text to the graph -/

/-- The positions that the layout gives to the nodes of a graph; none if it fails. -/
def computeLayout (tell : Listener) (graph : Graph) : StateM Session (Catalog Point) := do
  let session ← get
  if session.setup.layoutFails then
    notify tell (failureNotice .layout (.collaborator ⟨.layout, .because "no layout"⟩))
    return []
  else
    let placed := session.setup.settings.measures.layout graph
    return placed.map fun (id, x, y) => (id, ⟨x.toFloat, y.toFloat⟩)

/-- What gives positions to the nodes of a graph. -/
abbrev LayoutEngine := Graph → StateM Session (Catalog Point)

/-- The positions for the nodes of a parsed text. The layout is asked only if a node has come or gone
or lies below another one than before. -/
def newPositions (layout : LayoutEngine) (fresh : Graph) : StateM Session (Catalog Point) := do
  let session ← get
  if fresh.sameTopology session.graph then
    return []
  else
    layout fresh

/-- Merges the nodes of a parsed text into the graph. -/
def mergeNodes (layout : LayoutEngine) (nodes : List Node) : StateM Session Unit := do
  let fresh := Graph.ofNodes nodes []
  let positions ← newPositions layout fresh
  modify fun session => { session with graph := session.graph.merge fresh positions }

/-- Takes over a text, and tells whether the graph has followed. A text that cannot be read leaves
the graph as it is. -/
def followText (layout : LayoutEngine) (tell : Listener) (text : String) : StateM Session Bool := do
  modify fun session => { session with text }
  match parse (← get).setup.settings.reclassify text with
  | .error error =>
    notify tell { message := error.message, source := "parser", offset := some error.offset }
    return false
  | .ok nodes =>
    mergeNodes layout nodes
    saveGraph tell
    saveText tell text
    tell .graph
    return true

/-- Changes the text with a layout, and tells whether the graph has followed. -/
def changeTextWith (layout : LayoutEngine) (tell : Listener) (text : String) : Act Bool := do
  let session ← get
  if session.phase ≠ .idle ∨ text = session.text then
    return false
  else
    during .applyingText (followText layout tell text)

/-- Changes the text, and tells whether the graph has followed. -/
def changeText (tell : Listener) (text : String) : Act Bool :=
  changeTextWith (computeLayout tell) tell text

/-! ## From the graph to the text -/

/-- Removes the record of a node whose id another node takes over. -/
def dropRecord (tell : Listener) (id : String) : StateM Session Unit := do
  let session ← get
  set { session with nodeRecords := session.nodeRecords.erase id }
  attempt tell .persistence do
    let _ ← ask (.removeNode (session.nodeRecords.get? id))

/-- Moves the records of nodes to new ids, given by the old ones. Records of ids that are taken over
are removed first. -/
def moveRecords (tell : Listener) (renamed : Catalog String) : StateM Session Unit := do
  let stale := renamed.names ++ renamed.map (·.2)
  let leaving := (Catalog.names (← get).nodeRecords).filter fun id =>
    stale.contains id && !renamed.has id
  leaving.forM (dropRecord tell)
  modify fun session =>
    { session with
      nodeRecords := Catalog.ofList
        (session.nodeRecords.map fun (id, record) => (Graph.newId renamed id, record))
      nodeSnapshots := session.nodeSnapshots.filter fun entry => !stale.contains entry.1 }

/-- A graph whose nodes have the spans of their blocks. -/
def withSpans (graph : Graph) (ranges : Catalog Span) : Graph :=
  { graph with nodes := graph.nodes.map fun node => { node with span := ranges.get? node.id } }

/-- A graph once its text is written: the nodes have the ids that the next reading of the text gives
them. The new ids are told by the old ones; a text that cannot be read gives none. -/
def settle (reclassify : Bool) (program : Program) (graph : Graph) : Graph × Catalog String :=
  let graph := withSpans graph program.ranges
  match parse reclassify program.text with
  | .error _ => (graph, [])
  | .ok parsed => graph.rekey parsed program.ranges

/-- The text that a session writes for a graph, if that works. -/
def writing? (session : Session) (graph : Graph) : Option Program :=
  match render session.setup.settings.indent graph.toNodes with
  | .error _ => none
  | .ok program => if session.setup.writerFails then none else some program

/-- Settles the graph for its text, moves its records, and tells the new ids of nodes by the old
ones. -/
def settleGraph (tell : Listener) (program : Program) : StateM Session (Catalog String) := do
  let session ← get
  let settled := settle session.setup.settings.reclassify program session.graph
  set { session with graph := settled.1 }
  if settled.2.isEmpty then
    return []
  else
    moveRecords tell settled.2
    return settled.2

/-- Takes over the text that was written for the graph, if it is another one. -/
def takeText (tell : Listener) (text : String) : StateM Session Unit := do
  let session ← get
  if text = session.text then
    return
  else
    set { session with text }
    saveText tell text
    tell .text

/-- Writes the text of the graph, and tells the new ids of nodes by the old ones. A graph that
cannot be written leaves the text as it is. -/
def writeText (tell : Listener) : StateM Session (Catalog String) := do
  let session ← get
  match session.writing? session.graph with
  | none => return []
  | some program =>
    let renamed ← settleGraph tell program
    takeText tell program.text
    return renamed

/-- What a change of the graph comes to. -/
inductive Impact where
  /-- the graph stays as it is -/
  | refused
  /-- the graph changes in a way that the text does not show -/
  | silent
  /-- the text has to be written anew -/
  | visible
  deriving DecidableEq, Repr

/-- A change of a graph. One that fails may still have touched the graph. -/
abbrev GraphChange := Graph → Graph × Except Fault Impact

/-- Changes the graph, and tells the new ids of nodes by the old ones, if the change happened. -/
def changeGraph (tell : Listener) (change : GraphChange) : Act (Option (Catalog String)) := do
  if (← get).phase ≠ .idle then
    return none
  else
    during .applyingGraph do
      let (graph, impact) := change (← get).graph
      modify fun session => { session with graph }
      match impact with
      | .error fault => throw fault
      | .ok .refused => return none
      | .ok .silent =>
        saveGraph tell
        tell .graph
        return some []
      | .ok .visible =>
        let renamed ← writeText tell
        saveGraph tell
        tell .graph
        return some renamed

/-! ## Edits of the graph -/

namespace GraphChange

/-- Adds a node. -/
def insert (node : CanvasNode) : GraphChange := fun graph => (graph.insertNode node, .ok .visible)

/-- Removes a node. -/
def remove (id : String) : GraphChange := fun graph =>
  match graph.removeNode? id with
  | some graph => (graph, .ok .visible)
  | none => (graph, .ok .refused)

/-- Moves a node. -/
def move (id : String) (position : Point) : GraphChange := fun graph =>
  if graph.hasNode id then
    (graph.adjust id fun node => { node with position }, .ok .silent)
  else
    (graph, .ok .refused)

/-- Draws an edge between two nodes. -/
def connect (edge : Edge) : GraphChange := fun graph =>
  if graph.hasNode edge.source && graph.hasNode edge.target then
    let (graph, changed) := graph.connect edge
    (graph, changed.map fun changed => if changed then .visible else .silent)
  else
    (graph, .ok .refused)

/-- Takes an edge away. -/
def disconnect (id : String) : GraphChange := fun graph =>
  let (graph, found) := graph.disconnect id
  (graph, .ok (if found then .silent else .refused))

/-- Changes fields of a node. -/
def update (id : String) (changes : Json.Fields) : GraphChange := fun graph =>
  let (graph, found) := graph.update id changes
  (graph, found.map fun found => if found then .visible else .refused)

end GraphChange

/-- Adds a fresh node, and tells its id. -/
def addNode (tell : Listener) (kind : String) (position : Point) (parent : Option String) :
    Act (Option String) := do
  let session ← get
  let drawn := session.supply.drawNode
  set { session with supply := drawn.2 }
  let renamed ← changeGraph tell (.insert (CanvasNode.create kind position parent drawn.1))
  return renamed.map fun renamed => Graph.newId renamed drawn.1

/-- Removes a node. -/
def removeNode (tell : Listener) (id : String) : Act Bool := do
  return (← changeGraph tell (.remove id)).isSome

/-- Moves a node. -/
def moveNode (tell : Listener) (id : String) (position : Point) : Act Bool := do
  return (← changeGraph tell (.move id position)).isSome

/-- Draws an edge, and tells its id. -/
def connect (tell : Listener) (source target : String) (sourceHandle targetHandle : Option String) :
    Act (Option String) := do
  let session ← get
  let drawn := session.supply.drawEdge
  set { session with supply := drawn.2 }
  let edge : Edge := { id := drawn.1, source, sourceHandle, target, targetHandle }
  let changed ← changeGraph tell (.connect edge)
  return changed.map fun _ => drawn.1

/-- Takes an edge away. -/
def disconnect (tell : Listener) (id : String) : Act Bool := do
  return (← changeGraph tell (.disconnect id)).isSome

/-- Changes fields of a node. Fields that name the node itself are refused in every phase. -/
def update (tell : Listener) (id : String) (changes : Json.Fields) : Act Bool := do
  match Graph.nodeNames.find? changes.has with
  | some name => throw (.shape (.wrongType name))
  | none => return (← changeGraph tell (.update id changes)).isSome

/-! ## Loading -/

/-- The fields of stored data; data that is not given has none. -/
def dataFields (data : Json) : Except Fault Json.Fields :=
  if data.isGiven then
    match data with
    | .object fields => .ok fields
    | _ => .error (.shape .notObject)
  else
    .ok []

/-- A stored field that is given, as a text. -/
def givenText (fields : Json.Fields) (name : String) : Option String :=
  ((fields.get? name).filter Json.isGiven).map Json.plainText

/-- The id under which a record stands in the graph: its label, or its own id. A list or an object
is no label. -/
def localId (fields : Json.Fields) (own : String) : Except Fault String :=
  match fields.get? "localId" with
  | some (.array (_ :: _)) | some (.object (_ :: _)) => .error (.shape (.wrongType "localId"))
  | _ => .ok ((givenText fields "localId").getD own)

/-- A number that has to be there. -/
def requireNumber (name : String) : Option Float → Except Fault Float
  | some value => .ok value
  | none => .error (.shape (.wrongType name))

/-- The node that a record stands for. Data without attributes of its own is the attributes. -/
def loadNode (stored : StoredNode) : Except Fault CanvasNode := do
  let fields ← dataFields stored.data
  let kind := (givenText fields "kind").getD (stored.kind.getD (Json.null).plainText)
  let position : Point := ⟨← requireNumber "x" stored.x, ← requireNumber "y" stored.y⟩
  let content ← Content.ofJson kind ((fields.get? "attributes").getD (.object fields))
  let parent := ((fields.get? "parentId").filter (· ≠ .null)).map Json.plainText
  return { id := ← localId fields stored.id, content, parent, position }

/-- The edge that a record stands for, given the ids of the nodes by their records, if both ends are
there. -/
def loadEdge (ids : Catalog String) (stored : StoredEdge) : Except Fault (Option Edge) := do
  match stored.source.bind ids.get?, stored.target.bind ids.get? with
  | some source, some target =>
    let fields ← dataFields stored.data
    return some {
      id := ← localId fields stored.id
      source, sourceHandle := stored.sourceHandle
      target, targetHandle := stored.targetHandle
      data := Catalog.erase fields "localId" }
  | _, _ => return none

/-- Takes a stored node into a graph, and notes its record. -/
def takeNode (graph : Graph) (stored : StoredNode) : Act Graph := do
  match loadNode stored with
  | .error fault => throw fault
  | .ok node =>
    modify fun session =>
      { session with
        nodeRecords := Catalog.insert node.id stored.id session.nodeRecords
        nodeSnapshots := Catalog.insert node.id node.snapshot session.nodeSnapshots }
    return graph.insertNode node

/-- Takes a stored edge into a graph, and notes its record. -/
def takeEdge (ids : Catalog String) (graph : Graph) (stored : StoredEdge) : Act Graph := do
  match loadEdge ids stored with
  | .error fault => throw fault
  | .ok none => return graph
  | .ok (some edge) =>
    modify fun session =>
      { session with
        edgeRecords := Catalog.insert edge.id stored.id session.edgeRecords
        edgeSnapshots := Catalog.insert edge.id edge.snapshot session.edgeSnapshots }
    return (graph.addEdge? edge).getD graph

/-- What a store has of a flow. -/
def readFlow (flow : Option String) : Act (List StoredNode × List StoredEdge) := do
  let nodes ← ask (.listNodes flow)
  let edges ← ask (.listEdges flow)
  match nodes, edges with
  | .nodes nodes, .edges edges => return (nodes, edges)
  | _, _ => return ([], [])

/-- The graph that records stand for. What was known about records before is forgotten, also if a
record cannot be read. -/
def takeRecords (nodes : List StoredNode) (edges : List StoredEdge) : Act Graph := do
  modify fun session =>
    { session with nodeRecords := [], edgeRecords := [], nodeSnapshots := [], edgeSnapshots := [] }
  let graph ← nodes.foldlM takeNode {}
  let ids := Catalog.ofList ((← get).nodeRecords.map fun (id, record) => (record, id))
  edges.foldlM (takeEdge ids) graph

/-- Replaces the graph by the stored one and writes its text. -/
def loadFlow (tell : Listener) : Act Bool := do
  let session ← get
  if !session.isStored || session.phase ≠ .idle then
    return false
  else
    match ← ExceptT.lift (readFlow session.setup.flow).run with
    | .error fault =>
      notify tell (failureNotice .persistence fault)
      return false
    | .ok (nodes, edges) =>
      during .applyingGraph do
        let graph ← takeRecords nodes edges
        modify fun session => { session with graph }
        let _ ← writeText tell
        tell .graph
        return true

/-! ## Diagnostics -/

/-- The diagnostics of the text by the nodes they belong to. -/
def diagnose (tell : Listener) : StateM Session (Catalog (List Diagnostic)) := do
  let session ← get
  match session.setup.checker.check session.text with
  | .ok found => return Diagnostic.byNode found session.graph.toNodes
  | .error fault =>
    notify tell (failureNotice .diagnostics fault)
    return []

end SourceCanvas.Session
