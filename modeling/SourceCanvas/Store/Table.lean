import SourceCanvas.Store.Record

/-!
# Stores in tables

A table numbers its rows: a new row gets the number after the largest one in use, and an updated row
keeps its number and its flow. Lists come in the order of the numbers. Some columns need a value,
and a row without one is refused before anything is written. A number that is no number counts as
missing, and a missing flow equals no flow.

A database is kept in a file, or in memory as long as it is open. Once that one is closed, every
call meets a database that is empty and forgotten afterwards.
-/

namespace SourceCanvas

/-! ## Tables -/

/-- A numbered row. -/
structure Row (α : Type) where
  number : Nat
  id : String
  entry : α
  deriving DecidableEq

/-- Rows with different ids, in any order. -/
abbrev Table (α : Type) := List (Row α)

namespace Table

variable {α : Type}

/-- Whether a table has a row with an id. -/
def has (table : Table α) (id : String) : Bool := List.any table (·.id == id)

/-- The number for a new row. -/
def nextNumber (table : Table α) : Nat :=
  (table.foldl (fun number row => max number row.number) 0) + 1

/-- The table with a new row. -/
def insert (table : Table α) (id : String) (entry : α) : Table α :=
  table ++ [⟨table.nextNumber, id, entry⟩]

/-- The table with the row of an id changed. -/
def update (table : Table α) (id : String) (change : α → α) : Table α :=
  table.map fun row => if row.id = id then { row with entry := change row.entry } else row

/-- The rows in the order of their numbers. -/
def inOrder (table : Table α) : List (Row α) := table.mergeSort fun a b => a.number ≤ b.number

end Table

/-! ## Databases -/

/-- The tables of a database. -/
structure Tables where
  flows : Table (Option String) := []
  nodes : Table NodeEntry := []
  edges : Table EdgeEntry := []
  deriving DecidableEq

namespace Tables

/-- Refuses a row without a value in a column. -/
def need {α : Type} (table column : String) : Option α → Except Fault Unit
  | some _ => .ok ()
  | none => .error (.store (.missingValue table column))

/-- Whether a value of a column is another one; a missing value is not. -/
def equals (value other : Option String) : Bool := value.isSome && value == other

/-- A number, if it is one. -/
def number? (value : Option Float) : Option Float := value.filter fun value => !value.isNaN

/-- Writes a node: its row keeps the flow. -/
def upsertNode (tables : Tables) (id : String) (entry : NodeEntry) : Except Fault Tables := do
  let known := tables.nodes.has id
  if !known then
    need "flow_nodes" "flow_id" entry.flow
  need "flow_nodes" "type" entry.kind
  need "flow_nodes" "x" (number? entry.x)
  need "flow_nodes" "y" (number? entry.y)
  if known then
    return { tables with
      nodes := tables.nodes.update id fun row => { entry with flow := row.flow } }
  else
    return { tables with nodes := tables.nodes.insert id entry }

/-- Writes an edge: its row keeps the flow. -/
def upsertEdge (tables : Tables) (id : String) (entry : EdgeEntry) : Except Fault Tables := do
  let known := tables.edges.has id
  if !known then
    need "flow_edges" "flow_id" entry.flow
  need "flow_edges" "source" entry.source
  need "flow_edges" "target" entry.target
  if known then
    return { tables with
      edges := tables.edges.update id fun row => { entry with flow := row.flow } }
  else
    return { tables with edges := tables.edges.insert id entry }

/-- The tables without a node and all edges that touch it. -/
def removeNode (tables : Tables) (id : Option String) : Tables :=
  { tables with
    nodes := tables.nodes.filter fun row => some row.id ≠ id
    edges := tables.edges.filter fun row =>
      !equals row.entry.source id && !equals row.entry.target id }

/-- The tables without an edge. -/
def removeEdge (tables : Tables) (id : Option String) : Tables :=
  { tables with edges := tables.edges.filter fun row => some row.id ≠ id }

/-- The nodes of a flow, in order. -/
def nodesOf (tables : Tables) (flow : Option String) : List StoredNode :=
  (tables.nodes.inOrder.filter fun row => equals row.entry.flow flow).map fun row =>
    { row.entry with id := row.id }

/-- The edges of a flow, in order. -/
def edgesOf (tables : Tables) (flow : Option String) : List StoredEdge :=
  (tables.edges.inOrder.filter fun row => equals row.entry.flow flow).map fun row =>
    { row.entry with id := row.id }

/-- Keeps the text of a flow. One without an id is never found again. -/
def updatePreview (tables : Tables) (flow code : Option String) : Tables :=
  match flow with
  | none => tables
  | some id =>
    { tables with
      flows :=
        if tables.flows.has id then tables.flows.update id fun _ => code
        else tables.flows.insert id code }

/-- The text of a flow. -/
def preview (tables : Tables) (flow : Option String) : Option String :=
  (tables.flows.find? fun row => some row.id == flow).bind (·.entry)

/-- Answers a call, given the id to be used where it needs a fresh one. -/
def perform (fresh : String) (tables : Tables) : StoreCall → Except Fault (StoreReply × Tables)
  | .createFlow title _ => do
    need "flows" "title" title
    return (.id fresh, { tables with flows := tables.flows.insert fresh none })
  | .upsertNode id entry => do
    let id := (Text.given? id).getD fresh
    return (.id id, ← tables.upsertNode id entry)
  | .removeNode id => .ok (.done, tables.removeNode id)
  | .listNodes flow => .ok (.nodes (tables.nodesOf flow), tables)
  | .upsertEdge id entry => do
    let id := (Text.given? id).getD fresh
    return (.id id, ← tables.upsertEdge id entry)
  | .removeEdge id => .ok (.done, tables.removeEdge id)
  | .listEdges flow => .ok (.edges (tables.edgesOf flow), tables)
  | .updatePreview flow code => .ok (.done, tables.updatePreview flow code)
  | .preview flow => .ok (.text (tables.preview flow), tables)
  | .close => .ok (.done, tables)

end Tables

/-- Where a database is kept. -/
inductive Database where
  | inFile (tables : Tables)
  | opened (tables : Tables)
  | closed
  deriving DecidableEq

namespace Database

/-- The tables that a call meets. -/
def tables : Database → Tables
  | inFile tables => tables
  | opened tables => tables
  | closed => {}

/-- The database after a call. -/
def withTables (database : Database) (tables : Tables) : Database :=
  match database with
  | inFile _ => inFile tables
  | opened _ => opened tables
  | closed => closed

/-- The database after it is closed. -/
def close : Database → Database
  | inFile tables => inFile tables
  | opened _ => closed
  | closed => closed

/-- Answers a call, given the id to be used where it needs a fresh one. -/
def perform (fresh : String) (database : Database) (call : StoreCall) :
    Except Fault StoreReply × Database :=
  match call with
  | .close => (.ok .done, database.close)
  | call =>
    match database.tables.perform fresh call with
    | .ok (reply, tables) => (.ok reply, database.withTables tables)
    | .error fault => (.error fault, database)

end Database

end SourceCanvas
